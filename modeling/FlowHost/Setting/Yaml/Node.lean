import FlowHost.Number.Text
import FlowHost.Setting.Yaml.Token

/-!
# Nodes of indented documents

The tree that the tokens of a document describe, with aliases replaced by what they stand for
and plain scalars read as what they look like.

* `Node.ofScalar`: the node that a scalar and its tag stand for.
* `Node.documents?`: the documents of a list of tokens.
-/

namespace FlowHost.Yaml

/-- A node of a document. -/
inductive Node where
  /-- A scalar that its tag does not fit, or an alias for a node that it is in. -/
  | unresolved
  | null
  | bool (b : Bool)
  | integer (i : Int)
  | real (spelling : String)
  | text (t : String)
  | list (items : List Node)
  | table (entries : List (Node × Node))
  deriving BEq, Repr

namespace Node

/-- The words of infinity. -/
def infinityWords : List String := [".inf", ".Inf", ".INF"]

/-- The words of what is no number. -/
def noNumberWords : List String := [".nan", ".NaN", ".NAN"]

/-- **Whether a plain scalar is a real number.** A name without a digit is none. -/
def isReal (t : String) : Bool :=
  noNumberWords.contains t || infinityWords.contains t ||
    infinityWords.any (fun w => t = "+" ++ w || t = "-" ++ w) ||
    (t.toList.any Char.isDigit && (readReal? t.toList).isSome)

/-- Whether a character is a digit in a base up to sixteen. -/
def isDigitIn (base : Nat) (c : Char) : Bool :=
  if base ≤ 10 then c.isDigit && decide (c.toNat - 48 < base)
  else c.isDigit || ('a' ≤ c && c ≤ 'f') || ('A' ≤ c && c ≤ 'F')

/-- Digits in a base, with an optional sign, as an integer of 64 bits. -/
def integerInBase? (base : Nat) (cs : List Char) : Option Int :=
  let (negative, ds) := splitSign cs
  if !ds.isEmpty && ds.all (isDigitIn base) then
    let n : Int := valueInBase base ds
    let i := if negative then -n else n
    if -(Int.pow 2 63) ≤ i ∧ i < Int.pow 2 63 then some i else none
  else none

/-- An integer that a mark of its base or a sign comes before. -/
def markedInteger? : List Char → Option Int
  | '0' :: 'x' :: cs => integerInBase? 16 cs
  | '0' :: 'o' :: cs => integerInBase? 8 cs
  | '+' :: cs => readLong? cs
  | _ => none

/-- **The node that a plain scalar stands for.** -/
def ofPlain (t : String) : Node :=
  match markedInteger? t.toList with
  | some i => integer i
  | none =>
    if t = "~" ∨ t = "null" then null
    else if t = "true" then bool true
    else if t = "false" then bool false
    else
      match readLong? t.toList with
      | some i => integer i
      | none => if isReal t then real t else text t

/-- **The node that a plain scalar with a tag of the core stands for.** -/
def ofCore (name t : String) : Node :=
  match name with
  | "bool" => if t = "true" then bool true else if t = "false" then bool false else unresolved
  | "int" => ((readLong? t.toList).map integer).getD unresolved
  | "float" => if isReal t then real t else unresolved
  | "null" => if t = "~" ∨ t = "null" then null else unresolved
  | _ => text t

/-- What a tag makes of a scalar. -/
inductive Tag where
  /-- A tag of the core, by its name. -/
  | core (name : String)
  | other
  deriving DecidableEq, Repr

/-- **The node that a scalar and its tag stand for.** -/
def ofScalar (style : Style) (t : String) (tag : Option Tag) : Node :=
  match style, tag with
  | .plain, none => ofPlain t
  | .plain, some (.core name) => ofCore name t
  | _, _ => text t

/-- The entries of a table whose keys and values alternate. A key that is unresolved counts as
not there. No two keys may be equal. -/
def entriesOf? : Nat → List (Node × Node) → List Node → Option (List (Node × Node))
  | 0, _, _ => none
  | fuel + 1, done, nodes =>
    match nodes with
    | unresolved :: rest => entriesOf? fuel done rest
    | k :: v :: rest =>
      if done.any fun e => e.1 == k then none else entriesOf? fuel (done ++ [(k, v)]) rest
    | _ => some done

/-- A table whose keys and values alternate. -/
def table? (nodes : List Node) : Option Node :=
  (entriesOf? (nodes.length + 1) [] nodes).map table

end Node

/-- What is known while nodes are read. -/
structure Reading where
  rest : List Token
  /-- The handles of tags that are declared. -/
  handles : List (String × String)
  /-- The numbers of the anchors, latest first. -/
  anchors : List (String × Nat)
  /-- The nodes that have numbers. -/
  nodes : List (Nat × Node)

namespace Reading

/-- A step of reading, which may fail. -/
abbrev Step (α : Type) := StateT Reading Option α

/-- The next token. -/
def peek : Step (Option Token) := return (← get).rest.head?

/-- Passes a token. -/
def skip : Step Unit := modify fun r => { r with rest := r.rest.drop 1 }

/-- Whether one of some tokens is next. -/
def isNext (tokens : List Token) : Step Bool := return (← peek).any tokens.contains

/-- Null if one of some tokens is next, else what is read. -/
def nullBefore (ends : List Token) (read : Step Node) : Step Node := do
  if ← isNext ends then return .null else read

/-- What the tags of the core begin with. -/
def coreMark : String := "tag:yaml.org,2002:"

/-- The tag that a handle and a word stand for. A handle between two marks has to be declared. -/
def tagOf (handle rest : String) : Step Node.Tag := do
  let handles := (← get).handles
  let meaning (leading : String) : Node.Tag := if leading = coreMark then .core rest else .other
  match handles.lookup handle with
  | some leading => return meaning leading
  | none =>
    if handle = "!!" then return .core rest
    else if 2 ≤ handle.length ∧ handle.startsWith "!" ∧ handle.endsWith "!" then failure
    else return .other

/-- Gives an anchor a number. -/
def register (name : String) : Step Nat := do
  let r ← get
  let number := r.anchors.length
  set { r with anchors := (name, number) :: r.anchors }
  return number

/-- Reads an anchor, if one is next. -/
def anchor? : Step (Option Nat) := do
  match ← peek with
  | some (.anchor name) =>
    skip
    return some (← register name)
  | _ => return none

/-- Reads a tag, if one is next. -/
def tag? : Step (Option Node.Tag) := do
  match ← peek with
  | some (.tag handle rest) =>
    skip
    return some (← tagOf handle rest)
  | _ => return none

/-- Reads an anchor and a tag, in either order. -/
def properties : Step (Option Nat × Option Node.Tag) := do
  match ← anchor? with
  | some number => return (some number, ← tag?)
  | none =>
    match ← tag? with
    | some tag => return (← anchor?, some tag)
    | none => return (none, none)

/-- The node that an alias stands for. -/
def aliased (name : String) : Step Node := do
  let r ← get
  match r.anchors.lookup name with
  | none => failure
  | some number => return (r.nodes.lookup number).getD .unresolved

/-- Puts a node under the number of its anchor. -/
def record (anchor : Option Nat) (n : Node) : Step Unit :=
  match anchor with
  | some number => modify fun r => { r with nodes := (number, n) :: r.nodes }
  | none => pure ()

mutual

/-- **Reads a node.** Only some places take blocks, and only some take items that are not
indented. -/
def node : Nat → Bool → Bool → Step Node
  | 0, _, _ => failure
  | fuel + 1, block, flush => do
    match ← peek with
    | some (.alias name) =>
      skip
      aliased name
    | _ =>
      let (anchor, tag) ← properties
      let n ← content fuel block flush tag (anchor.isSome || tag.isSome)
      record anchor n
      return n

/-- Reads what a node holds, after its anchor and its tag. -/
def content : Nat → Bool → Bool → Option Node.Tag → Bool → Step Node
  | 0, _, _, _, _ => failure
  | fuel + 1, block, flush, tag, mayBeEmpty => do
    match ← peek with
    | some (.scalar style t) =>
      skip
      return .ofScalar style t tag
    | some .flowSequence =>
      skip
      return .list (← flowItems fuel true)
    | some .flowMapping =>
      skip
      Node.table? (← flowMembers fuel true)
    | some .blockEntry => if flush then return .list (← flushItems fuel) else empty tag mayBeEmpty
    | some .blockSequence =>
      if block then
        skip
        return .list (← blockItems fuel)
      else empty tag mayBeEmpty
    | some .blockMapping =>
      if block then
        skip
        Node.table? (← blockMembers fuel)
      else empty tag mayBeEmpty
    | _ => empty tag mayBeEmpty
where
  /-- A node of which only an anchor or a tag is written. -/
  empty (tag : Option Node.Tag) (mayBeEmpty : Bool) : Step Node :=
    if mayBeEmpty then return .ofScalar .plain "" tag else failure

/-- Reads the items of an indented sequence. -/
def blockItems : Nat → Step (List Node)
  | 0 => failure
  | fuel + 1 => do
    match ← peek with
    | some .blockEnd =>
      skip
      return []
    | some .blockEntry =>
      skip
      let item ← nullBefore [.blockEntry, .blockEnd] (node fuel true false)
      return item :: (← blockItems fuel)
    | _ => failure

/-- Reads the items of a sequence that is not indented. -/
def flushItems : Nat → Step (List Node)
  | 0 => failure
  | fuel + 1 => do
    match ← peek with
    | some .blockEntry =>
      skip
      let item ← nullBefore [.blockEntry, .key, .value, .blockEnd] (node fuel true false)
      return item :: (← flushItems fuel)
    | _ => return []

/-- Reads the value of a key in an indented mapping. -/
def blockValue : Nat → Step Node
  | 0 => failure
  | fuel + 1 => do
    if ← isNext [.value] then
      skip
      nullBefore [.key, .value, .blockEnd] (node fuel true true)
    else return .null

/-- Reads the keys and values of an indented mapping. -/
def blockMembers : Nat → Step (List Node)
  | 0 => failure
  | fuel + 1 => do
    match ← peek with
    | some .blockEnd =>
      skip
      return []
    | some .key =>
      skip
      let k ← nullBefore [.key, .value, .blockEnd] (node fuel true true)
      let v ← blockValue fuel
      return k :: v :: (← blockMembers fuel)
    | some .value =>
      let v ← blockValue fuel
      return .null :: v :: (← blockMembers fuel)
    | _ => failure

/-- Reads the value of a key in brackets. -/
def flowValue : Nat → Token → Step Node
  | 0, _ => failure
  | fuel + 1, closing => do
    if ← isNext [.value] then
      skip
      nullBefore [.flowEntry, closing] (node fuel false false)
    else return .null

/-- Reads a key and its value in brackets, after the mark of the key if there is one. -/
def flowPair : Nat → Token → Step (Node × Node)
  | 0, _ => failure
  | fuel + 1, closing => do
    let k ← nullBefore [.value, .flowEntry, closing] (node fuel false false)
    return (k, ← flowValue fuel closing)

/-- Reads the items of a sequence in brackets. A key among them makes a mapping of its own. -/
def flowItems : Nat → Bool → Step (List Node)
  | 0, _ => failure
  | fuel + 1, isFirst => do
    if ← isNext [.flowSequenceEnd] then
      skip
      return []
    unless isFirst do
      if ← isNext [.flowEntry] then skip else failure
    match ← peek with
    | some .flowSequenceEnd =>
      skip
      return []
    | some .key | some .value =>
      if ← isNext [.key] then skip
      let pair ← flowPair fuel .flowSequenceEnd
      return .table [pair] :: (← flowItems fuel false)
    | _ =>
      let item ← node fuel false false
      return item :: (← flowItems fuel false)

/-- Reads the keys and values of a mapping in brackets. -/
def flowMembers : Nat → Bool → Step (List Node)
  | 0, _ => failure
  | fuel + 1, isFirst => do
    if ← isNext [.flowMappingEnd] then
      skip
      return []
    unless isFirst do
      if ← isNext [.flowEntry] then skip else failure
    match ← peek with
    | some .flowMappingEnd =>
      skip
      return []
    | some .key | some .value =>
      if ← isNext [.key] then skip
      let pair ← flowPair fuel .flowMappingEnd
      return pair.1 :: pair.2 :: (← flowMembers fuel false)
    | _ =>
      let k ← node fuel false false
      return k :: .null :: (← flowMembers fuel false)

end

/-! Documents. -/

/-- Whether a directive is next. -/
def isDirective : Option Token → Bool
  | some .versionMark | some (.tagMark _ _) => true
  | _ => false

/-- Reads the directives before a document. The handles of the last one count. -/
def directives : Nat → Bool → Step Unit
  | 0, _ => failure
  | fuel + 1, hasVersion => do
    match ← peek with
    | some .versionMark =>
      if hasVersion then failure
      modify fun r => { r with handles := [] }
      skip
      directives fuel true
    | some (.tagMark handle leading) =>
      modify fun r => { r with handles := [(handle, leading)] }
      skip
      directives fuel hasVersion
    | _ => return

/-- Reads a document whose start is marked. -/
def marked (fuel : Nat) : Step Node := do
  directives fuel false
  unless ← isNext [.documentStart] do failure
  skip
  let next ← peek
  if next.isNone || isDirective next then return .null
  nullBefore [.documentStart, .documentEnd] (node fuel true false)

/-- Reads the documents. Only a first one, and one after a marked end, may start unmarked. -/
def documents (size : Nat) : Nat → Bool → Step (List Node)
  | 0, _ => failure
  | fuel + 1, mayStart => do
    modify fun r => { r with rest := r.rest.dropWhile (· == .documentEnd) }
    let next ← peek
    if next.isNone then return []
    let isMarked := isDirective next || next == some .documentStart || !mayStart
    let n ← if isMarked then marked size else node size true false
    let hasEnd ← isNext [.documentEnd]
    if hasEnd then skip
    else if isDirective (← peek) then failure
    return n :: (← documents size fuel hasEnd)

end Reading

/-- **The documents of a list of tokens.** -/
def Node.documents? (tokens : List Token) : Option (List Node) :=
  let size := 4 * tokens.length + 8
  ((Reading.documents size size true).run ⟨tokens, [], [], []⟩).map (·.1)

end FlowHost.Yaml
