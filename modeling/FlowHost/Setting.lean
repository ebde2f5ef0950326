import FlowHost.Number.Text
import FlowHost.Json.Basic

/-!
# Settings

The value of a setting as a document or the environment gives it, and how it is read as the
type that is wanted: scalars pass for each other where that makes sense.

* `Setting.text?`, `Setting.bool?`, `Setting.signed?`, `Setting.unsigned?`: readings.
* `Setting.assign`: a value put under a key, which may be a path into tables and lists. The
  names in it count in lower case.
* `Setting.latest`, `Setting.Order`: the entries of a document as a map, and the order in which
  they are put.
-/

namespace FlowHost

/-- A value that a document gives. -/
inductive Setting where
  | null
  | bool (b : Bool)
  | integer (i : Int)
  | real (x : Double)
  | text (t : String)
  | list (items : List Setting)
  | table (entries : List (String × Setting))

namespace Setting

/-- **A setting as a text**: numbers and truth values are written out. -/
def text? : Setting → Option String
  | text t => some t
  | bool b => some (if b then "true" else "false")
  | integer i => some (toString i)
  | real x => some x.plain
  | _ => none

/-- The words for true. -/
def yesWords : List String := ["true", "on", "yes"]

/-- The words for false. -/
def noWords : List String := ["false", "off", "no"]

/-- **A setting as a truth value**: whatever is not zero is true, and some words are read. -/
def bool? : Setting → Option Bool
  | bool b => some b
  | integer i => some (decide (i ≠ 0))
  | real x => some (!x.isZero)
  | text t =>
    let word := lower t
    if word = "1" ∨ yesWords.contains word then some true
    else if word = "0" ∨ noWords.contains word then some false
    else none
  | _ => none

/-- A word or a numeral as an integer. -/
def integerOfText (read : List Char → Option Int) (t : String) : Option Int :=
  let word := lower t
  if yesWords.contains word then some 1
  else if noWords.contains word then some 0
  else read t.toList

/-- An integer within bounds. -/
def within (low high : Int) (i : Int) : Option Int := if low ≤ i ∧ i ≤ high then some i else none

/-- **A setting as a signed integer** within bounds. -/
def signed? (low high : Int) (s : Setting) : Option Int :=
  match s with
  | bool b => within low high (if b then 1 else 0)
  | integer i => within low high i
  | real x => within low high (x.nearestWithin (-(Int.pow 2 63)) (Int.pow 2 63 - 1))
  | text t => (integerOfText readLong? t).bind (within low high)
  | _ => none

/-- A numeral without a minus sign, of at most 64 bits. -/
def readUnsigned? (cs : List Char) : Option Int :=
  match readNatural? cs with
  | some n => if n < Nat.pow 2 64 then some n else none
  | none => none

/-- **A setting as an unsigned integer** up to a bound. -/
def unsigned? (high : Nat) (s : Setting) : Option Nat :=
  (match s with
    | bool b => within 0 high (if b then 1 else 0)
    | integer i => within 0 high i
    | real x => within 0 high (x.nearestWithin 0 (Int.pow 2 64 - 1))
    | text t => (integerOfText readUnsigned? t).bind (within 0 high)
    | _ => none).map Int.toNat

/-- A setting as a list of texts. -/
def texts? : Setting → Option (List String)
  | list items => items.mapM text?
  | _ => none

/-- The entries of a table; nothing else has any. -/
def entries : Setting → List (String × Setting)
  | table entries => entries
  | _ => []

/-- The items of a list; nothing else has any. -/
def items : Setting → List Setting
  | list items => items
  | _ => []

/-- Entries with a value under a name, in the place of an earlier one. -/
def insert (name : String) (value : Setting) :
    List (String × Setting) → List (String × Setting)
  | [] => [(name, value)]
  | (n, v) :: rest => if n = name then (n, value) :: rest else (n, v) :: insert name value rest

mutual

/-- A setting with a value under a name. A table is merged into what is there already. -/
def put (name : String) : Setting → Setting → Setting
  | table incoming, root =>
    let name := lower name
    let target := (root.entries.lookup name).getD (table [])
    table (insert name (putAll incoming target) root.entries)
  | value, root => table (insert (lower name) value root.entries)

/-- A setting with all entries put into it. -/
def putAll : List (String × Setting) → Setting → Setting
  | [], target => target
  | e :: rest, target => putAll rest (put e.1 e.2 target)

end

/-- One step of a key: an entry of a table or an item of a list. -/
inductive KeyStep where
  | entry (name : String)
  | item (index : Int)
  deriving DecidableEq, Repr

/-- The items of a list with one of them replaced; missing ones are null. A negative index
counts from the end. -/
def replaceItem (index : Int) (change : Setting → Setting) (items : List Setting) :
    List Setting :=
  let i := if 0 ≤ index then index.toNat else items.length - min items.length index.natAbs
  let padded := items ++ List.replicate (i + 1 - items.length) null
  padded.take i ++ change (padded.getD i null) :: padded.drop (i + 1)

/-- **A setting with a value put where a path leads.** What does not fit the path is replaced. -/
def assignSteps (value : Setting) : List KeyStep → Setting → Setting
  | [], _ => value
  | [.entry name], root => put name value root
  | .entry name :: rest, root =>
    let name := lower name
    let inner := (root.entries.lookup name).getD null
    table (insert name (assignSteps value rest inner) root.entries)
  | .item index :: rest, root =>
    list (replaceItem index (assignSteps value rest) root.items)

/-- Whether a character may stand in a name of a path. -/
def isNameChar (c : Char) : Bool :=
  c.isAlphanum || c == ' ' || c == '_' || c == '-'

/-- Whether a character may stand beside an index. -/
def isGap (c : Char) : Bool := c == ' ' || c == '\t'

/-- An index between brackets, of at most 64 bits: digits, after a minus sign if it is
negative. -/
def readIndex? (inside : List Char) : Option Int :=
  let (negative, body) := match inside.dropWhile isGap with
    | '-' :: body => (true, body)
    | body => (false, body)
  let ds := body.takeWhile Char.isDigit
  let n : Int := valueInBase 10 ds
  if ds.isEmpty || !(body.drop ds.length).all isGap then none
  else within (-(Int.pow 2 63)) (Int.pow 2 63 - 1) (if negative then -n else n)

/-- The further steps of a key. -/
def furtherSteps : Nat → List Char → Option (List KeyStep)
  | 0, _ => none
  | _ + 1, [] => some []
  | fuel + 1, '.' :: cs =>
    let name := cs.takeWhile isNameChar
    if name.isEmpty then none
    else (furtherSteps fuel (cs.drop name.length)).map (.entry (String.ofList name) :: ·)
  | fuel + 1, '[' :: cs =>
    let inside := cs.takeWhile (· ≠ ']')
    match cs.drop inside.length, readIndex? inside with
    | _ :: rest, some index => (furtherSteps fuel rest).map (.item index :: ·)
    | _, _ => none
  | _, _ => none

/-- The steps of a key. A key that is no path is a name as a whole. -/
def keySteps (key : String) : List KeyStep :=
  let cs := (lower key).toList
  let name := cs.takeWhile isNameChar
  let whole := [.entry (lower key)]
  if name.isEmpty then whole
  else
    match furtherSteps (cs.length + 1) (cs.drop name.length) with
    | some rest => .entry (String.ofList name) :: rest
    | none => whole

/-- **A setting with a value under a key.** -/
def assign (root : Setting) (key : String) (value : Setting) : Setting :=
  assignSteps value (keySteps key) root

/-- A setting with entries laid over it, one after another. -/
def overlay (root : Setting) (entries : List (String × Setting)) : Setting :=
  entries.foldl (fun root e => assign root e.1 e.2) root

/-- **Entries as a map has them**: under a name the last of those that have it. -/
def latest : List (String × Setting) → List (String × Setting)
  | [] => []
  | e :: rest => if rest.any (fun e' => e'.1 == e.1) then latest rest else e :: latest rest

/-- **An order in which a map is gone through**: its entries, rearranged. Which one it is, is
not up to the document. -/
structure Order where
  arrange : List (String × Setting) → List (String × Setting)
  perm (es : List (String × Setting)) : (arrange es).Perm es

/-- The order in which entries are written. -/
def Order.written : Order := ⟨id, fun _ => .refl _⟩

mutual

/-- A JSON document as a setting. Numbers have values only within the doubles. -/
def ofJson? : Json → Option Setting
  | .null => some null
  | .bool b => some (bool b)
  | .number n =>
    match n.toNumber? with
    | some (.natural v) => some (integer v)
    | some (.negative i) => some (integer i)
    | some (.real x) => some (real x)
    | none => none
  | .text t => t.map text
  | .array items => (ofItems? items).map list
  | .object members => (ofMembers? members).map fun es => table (latest es)

/-- The items of a JSON array. -/
def ofItems? : List Json → Option (List Setting)
  | [] => some []
  | j :: rest => do return (← ofJson? j) :: (← ofItems? rest)

/-- The members of a JSON object. -/
def ofMembers? : List (Option String × Json) → Option (List (String × Setting))
  | [] => some []
  | m :: rest => do return (← m.1, ← ofJson? m.2) :: (← ofMembers? rest)

end

end Setting

end FlowHost
