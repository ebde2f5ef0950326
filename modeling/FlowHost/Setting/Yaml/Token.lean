import FlowHost.Text.Scan

/-!
# Tokens of indented documents

What a YAML document is made of: scalars, indicators, and the beginnings and ends of
collections that the indentation implies. A plain scalar or a collection turns out to be a key
only when the colon after it is reached; a place is remembered for the token before it.

* `Token.scan?`: the tokens of a document.
-/

namespace FlowHost.Yaml

open Scan

/-- How a scalar is written. -/
inductive Style where
  | plain | quoted | block
  deriving DecidableEq, Repr

/-- A token. -/
inductive Token where
  | versionMark
  | tagMark (handle leading : String)
  | documentStart | documentEnd
  | blockSequence | blockMapping | blockEnd
  | flowSequence | flowSequenceEnd
  | flowMapping | flowMappingEnd
  | blockEntry | flowEntry
  | key | value
  | alias (name : String)
  | anchor (name : String)
  | tag (handle rest : String)
  | scalar (style : Style) (text : String)
  deriving DecidableEq, Repr

/-- A place where a key may turn out to have begun. -/
structure KeyPlace where
  isPossible : Bool
  isRequired : Bool
  /-- The number of tokens before it. -/
  number : Nat
  index : Nat
  line : Nat
  column : Nat
  deriving Repr

/-- No place. -/
def KeyPlace.none : KeyPlace := ⟨false, false, 0, 0, 0, 0⟩

/-- A scan under way. -/
structure Scanner where
  rest : List Char
  index : Nat
  line : Nat
  column : Nat
  /-- Whether only blanks stand before on the line. -/
  isLeading : Bool
  indent : Int
  /-- The indentations around, innermost first, and whether a block ends with each. -/
  indents : List (Int × Bool)
  /-- How many flow collections are open. -/
  flow : Nat
  keyAllowed : Bool
  /-- The place of a possible key for each open flow collection, innermost first. -/
  keys : List KeyPlace
  /-- The tokens, latest first. -/
  tokens : List Token
  count : Nat
  /-- The place at which a colon may stand close to what it follows. -/
  closeColon : Nat

namespace Scanner

/-- The character ahead by a number of places. -/
def ahead (s : Scanner) (n : Nat) : Option Char := s.rest[n]?

/-- Whether a character is a blank. -/
def isBlank : Option Char → Bool
  | some c => c == ' ' || c == '\t'
  | none => false

/-- Whether a character ends a line. -/
def isBreak : Option Char → Bool
  | some c => c == '\n' || c == '\r'
  | none => false

/-- Whether a line or the document ends. -/
def isEnd (c : Option Char) : Bool := c.isNone || isBreak c

/-- Whether a word ends. -/
def isGap (c : Option Char) : Bool := isEnd c || isBlank c

/-- Whether a character belongs to flow collections. -/
def isFlow : Option Char → Bool
  | some c => c == ',' || c == '[' || c == ']' || c == '\x7b' || c == '\x7d'
  | none => false

/-- Whether a character belongs to words and numerals. -/
def isWordChar (c : Char) : Bool := c.isAlphanum || c == '_' || c == '-'

/-- Passes a blank. -/
def skipBlank (s : Scanner) : Scanner :=
  { s with rest := s.rest.drop 1, index := s.index + 1, column := s.column + 1 }

/-- Passes a character that is not a blank. -/
def skipChar (s : Scanner) : Scanner := { s.skipBlank with isLeading := false }

/-- Passes the end of a line, if it comes first. -/
def skipBreak (s : Scanner) : Scanner :=
  let past (rest : List Char) (n : Nat) : Scanner :=
    { s with
      rest := rest, index := s.index + n, line := s.line + 1, column := 0, isLeading := true }
  match s.rest with
  | '\r' :: '\n' :: rest => past rest 2
  | '\r' :: rest | '\n' :: rest => past rest 1
  | _ => s

/-- Adds a token. -/
def push (s : Scanner) (t : Token) : Scanner :=
  { s with tokens := t :: s.tokens, count := s.count + 1 }

/-- Adds a token after a number of tokens. -/
def insertAt (s : Scanner) (number : Nat) (t : Token) : Scanner :=
  let later := s.count - number
  { s with tokens := s.tokens.take later ++ t :: s.tokens.drop later, count := s.count + 1 }

/-- What `skipToEnd` met: whether there were tabs, and whether there were spaces. -/
structure Gap where
  hasTab : Bool
  hasSpace : Bool

/-- Passes blanks and a comment up to the end of the line. A comment needs a blank before. -/
def skipToEnd (tabs : Bool) : Nat → Gap → Scanner → Option (Gap × Scanner)
  | 0, _, _ => none
  | fuel + 1, g, s =>
    match s.ahead 0 with
    | some ' ' => skipToEnd tabs fuel { g with hasSpace := true } s.skipBlank
    | some '\t' =>
      if tabs then skipToEnd tabs fuel { g with hasTab := true } s.skipBlank else some (g, s)
    | some '#' =>
      if g.hasTab || g.hasSpace then
        let n := (s.rest.takeWhile fun c => !isBreak (some c)).length
        some (g, { s with
          rest := s.rest.drop n, index := s.index + n, column := s.column + n, isLeading := false })
      else none
    | _ => some (g, s)

/-- Passes blanks and a comment. -/
def finishLine (s : Scanner) (tabs : Bool) : Option (Gap × Scanner) :=
  skipToEnd tabs (s.rest.length + 1) ⟨false, false⟩ s

/-- Lets a key begin. -/
def allowKey (s : Scanner) : Scanner := { s with keyAllowed := true }

/-- Lets no key begin. -/
def disallowKey (s : Scanner) : Scanner := { s with keyAllowed := false }

/-- Passes blanks, comments and ends of lines. Tabs are no indentation. -/
def skipToToken : Nat → Scanner → Option Scanner
  | 0, _ => none
  | fuel + 1, s =>
    match s.ahead 0 with
    | some '\t' =>
      if !s.indents.isEmpty && s.isLeading && decide ((s.column : Int) < s.indent) then do
        let (_, s) ← s.finishLine true
        if isEnd (s.ahead 0) then skipToToken fuel s else none
      else skipToToken fuel s.skipBlank
    | some ' ' => skipToToken fuel s.skipBlank
    | some '\n' | some '\r' =>
      let s := s.skipBreak
      skipToToken fuel (if s.flow = 0 then s.allowKey else s)
    | some '#' =>
      let n := (s.rest.takeWhile fun c => !isBreak (some c)).length
      skipToToken fuel { s with
        rest := s.rest.drop n, index := s.index + n, column := s.column + n, isLeading := false }
    | _ => some s

/-! Indentation and keys. -/

/-- The innermost place of a possible key. -/
def lastKey (s : Scanner) : KeyPlace := s.keys.head?.getD .none

/-- Sets the innermost place of a possible key. -/
def setLastKey (s : Scanner) (k : KeyPlace) : Scanner := { s with keys := k :: s.keys.drop 1 }

/-- Whether a block ends with the innermost indentation. -/
def isBlockIndent (s : Scanner) : Bool := (s.indents.head?.map (·.2)).getD false

/-- Drops places at which no key can have begun any more. -/
def dropStaleKeys (s : Scanner) : Option Scanner :=
  if s.flow = 0 then do
    let keys ← s.keys.mapM fun k =>
      if k.isPossible && decide (k.line < s.line ∨ k.index + 1024 < s.index) then
        if k.isRequired then none else some { k with isPossible := false }
      else some k
    return { s with keys := keys }
  else some s

/-- Ends the blocks that are indented further than a column. -/
def unroll (column : Int) : Nat → Scanner → Scanner
  | 0, s => s
  | fuel + 1, s =>
    if s.flow = 0 ∧ column < s.indent then
      match s.indents with
      | [] => s
      | (outer, isBlock) :: indents =>
        let s := { s with indent := outer, indents := indents }
        unroll column fuel (if isBlock then s.push .blockEnd else s)
    else s

/-- Ends the blocks that are indented further than a column. -/
def unrollTo (s : Scanner) (column : Int) : Scanner := unroll column (s.indents.length + 1) s

/-- Forgets indentations with which no block ends. -/
def dropPlainIndents : Nat → Scanner → Scanner
  | 0, s => s
  | fuel + 1, s =>
    match s.indents with
    | (outer, false) :: indents =>
      dropPlainIndents fuel { s with indent := outer, indents := indents }
    | _ => s

/-- Forgets indentations with which no block ends. -/
def dropPlain (s : Scanner) : Scanner := dropPlainIndents (s.indents.length + 1) s

/-- Expects what follows to be indented by one more column. -/
def rollOne (s : Scanner) : Scanner :=
  if s.flow = 0 ∧ s.isBlockIndent then
    { s with indents := (s.indent, false) :: s.indents, indent := s.indent + 1 }
  else s

/-- Begins a block at a column, unless one is open there; its token goes to a place. -/
def roll (s : Scanner) (column : Nat) (number : Option Nat) (t : Token) : Scanner :=
  if s.flow = 0 then
    let s := match s.indents with
      | (outer, false) :: indents =>
        if s.indent ≤ (column : Int) then { s with indent := outer, indents := indents } else s
      | _ => s
    if s.indent < (column : Int) then
      let s := { s with indents := (s.indent, true) :: s.indents, indent := (column : Int) }
      match number with
      | some n => s.insertAt n t
      | none => s.push t
    else s
  else s

/-- Remembers that a key may begin here. -/
def saveKey (s : Scanner) : Scanner :=
  if s.keyAllowed then
    s.setLastKey
      { isPossible := true
        isRequired := decide (s.flow = 0 ∧ s.indent = s.column) && s.isBlockIndent
        number := s.count, index := s.index, line := s.line, column := s.column }
  else s

/-- Forgets a possible key, unless it was required. -/
def removeKey (s : Scanner) : Option Scanner :=
  if s.lastKey.isPossible && s.lastKey.isRequired then none
  else some (s.setLastKey { s.lastKey with isPossible := false })

/-! Marks of documents. -/

/-- Whether three characters stand alone here. -/
def isMark (s : Scanner) (c : Char) : Bool :=
  s.ahead 0 == some c && s.ahead 1 == some c && s.ahead 2 == some c && isGap (s.ahead 3)

/-- Whether a document begins or ends here. -/
def isDocumentMark (s : Scanner) : Bool := s.isMark '-' || s.isMark '.'

/-- Passes a number of characters. -/
def skipChars : Nat → Scanner → Scanner
  | 0, s => s
  | n + 1, s => skipChars n s.skipChar

/-- Reads the mark of a document. -/
def documentMark (s : Scanner) (t : Token) : Option Scanner := do
  let s ← (s.unrollTo (-1)).removeKey
  return (skipChars 3 s.disallowKey).push t

/-- Reads a line that begins with a percent sign. -/
def directive (s : Scanner) : Option Scanner := do
  let s ← (s.unrollTo (-1)).removeKey
  let s := s.disallowKey
  let line := s.rest.takeWhile fun c => !isBreak (some c)
  let content := (line.takeWhile (· ≠ '#')).drop 1
  let words := ((String.ofList content).split fun c => c == ' ' || c == '\t').toList.filter
    (fun w => !w.isEmpty)
  let s := skipChars line.length s
  match words.map (·.toString) with
  | ["YAML", version] =>
    let parts := (version.split (· == '.')).toList.map (·.toString)
    if parts.length = 2 ∧ parts.all (fun p => areNumerals p.toList) then return s.push .versionMark
    else none
  | "YAML" :: _ => none
  | ["TAG", handle, leading] => return s.push (.tagMark handle leading)
  | "TAG" :: _ => none
  | [] => none
  | _ => return s.push (.tagMark "" "")
where
  /-- Whether characters are digits. -/
  areNumerals (cs : List Char) : Bool := !cs.isEmpty && cs.all Char.isDigit

/-! Flow collections. -/

/-- Begins a flow collection. -/
def flowStart (s : Scanner) (t : Token) : Option Scanner := do
  let s := s.saveKey.rollOne
  let s := { s with flow := s.flow + 1, keys := .none :: s.keys, keyAllowed := true }
  let (_, s) ← s.skipChar.finishLine true
  return s.push t

/-- Ends a flow collection. -/
def flowEnd (s : Scanner) (t : Token) : Option Scanner := do
  let s ← s.removeKey
  let s := if s.flow = 0 then s else { s with flow := s.flow - 1, keys := s.keys.drop 1 }
  let (_, s) ← s.disallowKey.skipChar.finishLine true
  let s := if 0 < s.flow then { s with closeColon := s.index } else s
  return s.push t

/-- Reads a comma between items. -/
def flowEntry (s : Scanner) : Option Scanner := do
  let s ← s.removeKey
  let (_, s) ← s.allowKey.skipChar.finishLine true
  return s.push .flowEntry

/-! Indicators of blocks. -/

/-- Whether the last token names a node at the start of its line. -/
def followsProperty (s : Scanner) : Bool :=
  match s.tokens with
  | .anchor _ :: _ | .tag _ _ :: _ => decide (s.column = 0 ∧ -1 < s.indent)
  | _ => false

/-- Reads a dash before an item. -/
def blockEntry (s : Scanner) : Option Scanner := do
  if 0 < s.flow ∨ !s.keyAllowed then none
  if s.followsProperty then none
  let s := s.skipChar.roll s.column none .blockSequence
  let (g, s) ← s.finishLine true
  if g.hasTab && s.ahead 0 == some '-' && isGap (s.ahead 1) then none
  let s := if isBreak (s.ahead 0) || isFlow (s.ahead 0) then s.rollOne else s
  let s ← s.removeKey
  return s.allowKey.push .blockEntry

/-- Reads a question mark before a key. -/
def explicitKey (s : Scanner) : Option Scanner := do
  if s.flow = 0 ∧ !s.keyAllowed then none
  let s ← (s.roll s.column none .blockMapping).removeKey
  let s := { s with keyAllowed := decide (s.flow = 0) }
  let (_, s) ← s.skipChar.finishLine false
  if s.ahead 0 == some '\t' then none
  return s.push .key

/-- Reads a colon before a value. -/
def colon (s : Scanner) : Option Scanner := do
  let k := s.lastKey
  let column := s.column
  let s := s.skipChar
  let s ← if s.ahead 0 == some '\t' then do
      let (g, s) ← s.finishLine true
      if !g.hasSpace && (s.ahead 0).any isWordChar then none
      else some s
    else some s
  let s ← if k.isPossible then
      let s := s.insertAt k.number .key
      let s := (s.roll k.column (some k.number) .blockMapping).rollOne
      some (s.setLastKey { s.lastKey with isPossible := false }).disallowKey
    else if s.flow = 0 then
      if s.keyAllowed then some ((s.roll column none .blockMapping).rollOne.allowKey) else none
    else some s.rollOne.disallowKey
  return s.push .value

/-! Names of nodes. -/

/-- Whether a character may stand in the name of an anchor. -/
def isAnchorChar (c : Char) : Bool := !isGap (some c) && !isFlow (some c) && c != '\ufeff'

/-- Reads an anchor, or an alias for one. -/
def anchor (s : Scanner) (token : String → Token) : Option Scanner := do
  let s := s.saveKey.disallowKey.skipChar
  let name := s.rest.takeWhile isAnchorChar
  if name.isEmpty then none
  return (skipChars name.length s).push (token (String.ofList name))

/-- Whether a character may stand in a word of a tag. -/
def isTagChar (c : Char) : Bool := !isGap (some c) && !isFlow (some c) && c != '!'

/-- The handle and the rest of a tag, and how many characters they take. -/
def tagParts (cs : List Char) : Option (String × String × Nat) :=
  match cs with
  | '!' :: '<' :: more =>
    let name := more.takeWhile (· ≠ '>')
    if name.length < more.length then some ("", String.ofList name, name.length + 3) else none
  | '!' :: more =>
    let word := more.takeWhile isTagChar
    match more.drop word.length with
    | '!' :: later =>
      let rest := later.takeWhile isTagChar
      if rest.isEmpty then none
      else
        some ("!" ++ String.ofList word ++ "!", String.ofList rest, word.length + rest.length + 2)
    | _ =>
      if word.isEmpty then some ("", "!", 1)
      else some ("!", String.ofList word, word.length + 1)
  | _ => none

/-- Reads a tag. -/
def tag (s : Scanner) : Option Scanner := do
  let s := s.saveKey.disallowKey
  let (handle, rest, n) ← tagParts s.rest
  let s := skipChars n s
  if isGap (s.ahead 0) || (decide (0 < s.flow) && isFlow (s.ahead 0)) then
    return s.push (.tag handle rest)
  else none

/-! Scalars. -/

/-- What a run of blanks between words is read as. -/
structure Fold where
  /-- Blanks on one line. -/
  blanks : List Char
  /-- Whether a line has ended. -/
  hasBreak : Bool
  /-- How many further lines have ended. -/
  further : Nat

/-- No blanks. -/
def Fold.empty : Fold := ⟨[], false, 0⟩

/-- **What stands for blanks in a scalar**: themselves on one line, a blank for the end of a
line, and the ends of empty lines. -/
def Fold.text (f : Fold) : List Char :=
  if f.hasBreak then
    if f.further = 0 then [' '] else List.replicate f.further '\n'
  else f.blanks

/-- Whether a plain scalar may go on with the character here. -/
def isPlainHere (s : Scanner) : Bool :=
  match s.ahead 0 with
  | some ':' => !(isGap (s.ahead 1) || (decide (0 < s.flow) && isFlow (s.ahead 1)))
  | some c => !(decide (0 < s.flow) && isFlow (some c))
  | none => false

/-- Reads the characters of a plain scalar up to a blank. -/
def plainWord : Nat → Scanner → List Char × Scanner
  | 0, s => ([], s)
  | fuel + 1, s =>
    match s.ahead 0 with
    | none => ([], s)
    | some c =>
      if isGap (some c) || !s.isPlainHere then ([], s)
      else
        let (more, s) := plainWord fuel s.skipChar
        (c :: more, s)

/-- Passes the blanks between the words of a plain scalar. -/
def plainBlanks (indent : Int) : Nat → Fold → Scanner → Option (Fold × Scanner)
  | 0, _, _ => none
  | fuel + 1, f, s =>
    match s.ahead 0 with
    | some c =>
      if isBlank (some c) then
        if !s.isLeading then
          plainBlanks indent fuel { f with blanks := f.blanks ++ [c] } s.skipBlank
        else if (s.column : Int) < indent ∧ c = '\t' then do
          let (_, s) ← s.finishLine true
          if isEnd (s.ahead 0) then plainBlanks indent fuel f s else none
        else plainBlanks indent fuel f s.skipBlank
      else if isBreak (some c) then
        if s.isLeading then plainBlanks indent fuel { f with further := f.further + 1 } s.skipBreak
        else plainBlanks indent fuel { f with hasBreak := true, blanks := [] } s.skipBreak
      else some (f, s)
    | none => some (f, s)

/-- Reads the words of a plain scalar. -/
def plainWords (indent : Int) : Nat → Fold → Scanner → Option (List Char × Scanner)
  | 0, _, _ => none
  | fuel + 1, f, s =>
    if (s.column = 0 ∧ s.isDocumentMark) ∨ s.ahead 0 == some '#' then some ([], s)
    else if 0 < s.flow ∧ s.ahead 0 == some '-' ∧ isFlow (s.ahead 1) then none
    else
      let (word, s) := plainWord (s.rest.length + 1) s
      let (text, f) := if word.isEmpty then ([], f) else (f.text ++ word, .empty)
      if isBlank (s.ahead 0) || isBreak (s.ahead 0) then do
        let (f, s) ← plainBlanks indent (s.rest.length + 1) f s
        if s.flow = 0 ∧ (s.column : Int) < indent then return (text, s)
        else
          let (more, s) ← plainWords indent fuel f s
          return (text ++ more, s)
      else some (text, s)

/-- Reads a plain scalar. -/
def plain (s : Scanner) : Option Scanner := do
  let s := s.saveKey.disallowKey.dropPlain
  let indent := s.indent + 1
  if 0 < s.flow ∧ (s.column : Int) < indent then none
  let (text, s) ← plainWords indent (s.rest.length + 1) .empty { s with isLeading := false }
  if text.isEmpty then none
  let s := if s.isLeading then s.allowKey else s
  return s.push (.scalar .plain (String.ofList text))

/-- Reads an escape after its backslash. -/
def escape : Reader Char
  | '0' :: cs => some ('\x00', cs)
  | 'a' :: cs => some ('\x07', cs)
  | 'b' :: cs => some ('\x08', cs)
  | 't' :: cs | '\t' :: cs => some ('\t', cs)
  | 'n' :: cs => some ('\n', cs)
  | 'v' :: cs => some ('\x0b', cs)
  | 'f' :: cs => some ('\x0c', cs)
  | 'r' :: cs => some ('\r', cs)
  | 'e' :: cs => some ('\x1b', cs)
  | ' ' :: cs => some (' ', cs)
  | '"' :: cs => some ('"', cs)
  | '/' :: cs => some ('/', cs)
  | '\\' :: cs => some ('\\', cs)
  | 'N' :: cs => some ('\u0085', cs)
  | '_' :: cs => some ('\u00a0', cs)
  | 'L' :: cs => some ('\u2028', cs)
  | 'P' :: cs => some ('\u2029', cs)
  | 'x' :: cs => codeChar 2 cs
  | 'u' :: cs => codeChar 4 cs
  | 'U' :: cs => codeChar 8 cs
  | _ => none

/-- Reads the characters of a quoted scalar up to a blank or the quote. The flag says whether a
backslash ended the line. -/
def quotedWord (quote : Char) : Nat → Scanner → Option (List Char × Bool × Scanner)
  | 0, _ => none
  | fuel + 1, s =>
    match s.rest with
    | [] => some ([], false, s)
    | c :: cs =>
      if isGap (some c) then some ([], false, s)
      else if c = quote then
        if quote = '\'' ∧ cs.head? = some '\'' then do
          let (more, b, s) ← quotedWord quote fuel s.skipChar.skipChar
          return ('\'' :: more, b, s)
        else some ([], false, s)
      else if c = '\\' ∧ quote = '"' then
        if isBreak cs.head? then some ([], true, s.skipChar.skipBreak)
        else do
          let (found, rest) ← escape cs
          let (more, b, s) ← quotedWord quote fuel (skipChars (cs.length - rest.length + 1) s)
          return (found :: more, b, s)
      else do
        let (more, b, s) ← quotedWord quote fuel s.skipChar
        return (c :: more, b, s)

/-- Passes the blanks between the words of a quoted scalar. -/
def quotedBlanks : Nat → Bool → Fold → Scanner → Option (Bool × Fold × Scanner)
  | 0, _, _, _ => none
  | fuel + 1, isLeading, f, s =>
    match s.ahead 0 with
    | some c =>
      if isBlank (some c) then
        if isLeading then
          if c = '\t' ∧ (s.column : Int) < s.indent then none
          else quotedBlanks fuel isLeading f s.skipBlank
        else quotedBlanks fuel isLeading { f with blanks := f.blanks ++ [c] } s.skipBlank
      else if isBreak (some c) then
        if isLeading then quotedBlanks fuel true { f with further := f.further + 1 } s.skipBreak
        else quotedBlanks fuel true { f with hasBreak := true, blanks := [] } s.skipBreak
      else some (isLeading, f, s)
    | none => some (isLeading, f, s)

/-- Reads a quoted scalar after its quote. -/
def quotedWords (quote : Char) : Nat → Scanner → Option (List Char × Scanner)
  | 0, _ => none
  | fuel + 1, s =>
    if (s.column = 0 ∧ s.isDocumentMark) ∨ s.rest.isEmpty ∨ (s.column : Int) < s.indent then none
    else do
      let (word, isLeading, s) ← quotedWord quote (s.rest.length + 1) s
      if s.ahead 0 == some quote then return (word, s.skipChar)
      else
        let (isLeading, f, s) ← quotedBlanks (s.rest.length + 1) isLeading .empty s
        let between := if isLeading && !f.hasBreak then List.replicate f.further '\n' else f.text
        let (more, s) ← quotedWords quote fuel s
        return (word ++ between ++ more, s)

/-- Whether what follows a quoted scalar may follow it. -/
def mayFollow (s : Scanner) (line : Nat) : Bool :=
  let c := s.ahead 0
  isEnd c || (decide (0 < s.flow) && (c == some ',' || c == some '\x7d' || c == some ']')) ||
    (c == some ':' && decide (0 < s.flow ∨ line = s.line))

/-- Reads a quoted scalar. -/
def quoted (s : Scanner) (quote : Char) : Option Scanner := do
  let s := s.saveKey.disallowKey
  let line := s.line
  let s := s.skipChar
  let (text, s) ← quotedWords quote (s.rest.length + 1) s
  let (_, s) ← s.finishLine true
  if !s.mayFollow line then none
  let s ← skipToToken (s.rest.length + 1) s
  return ({ s with closeColon := s.index } : Scanner).push (.scalar .quoted (String.ofList text))

/-- What becomes of the ends of lines at the end of a block scalar. -/
inductive Chomping where
  | strip | clip | keep
  deriving DecidableEq, Repr

/-- The chomping that a character asks for. -/
def chomping? : Option Char → Option Chomping
  | some '+' => some .keep
  | some '-' => some .strip
  | _ => none

/-- Reads what follows the indicator of a block scalar: chomping and indentation. -/
def blockHeader (s : Scanner) : Option (Chomping × Nat × Scanner) :=
  let digit (s : Scanner) : Option (Nat × Scanner) :=
    match s.ahead 0 with
    | some c =>
      if c = '0' then none
      else if c.isDigit then some (c.toNat - 48, s.skipChar)
      else some (0, s)
    | none => some (0, s)
  match chomping? (s.ahead 0) with
  | some how => do
    let (n, s) ← digit s.skipChar
    return (how, n, s)
  | none => do
    let (n, s) ← digit s
    if n = 0 then return (.clip, 0, s)
    else
      match chomping? (s.ahead 0) with
      | some how => return (how, n, s.skipChar)
      | none => return (.clip, n, s)

/-- Passes spaces up to a column. -/
def skipSpacesTo (column : Option Nat) : Nat → Scanner → Scanner
  | 0, s => s
  | fuel + 1, s =>
    if s.ahead 0 == some ' ' && (column.map fun n => decide (s.column < n)).getD true then
      skipSpacesTo column fuel s.skipBlank
    else s

/-- Passes empty lines and the indentation after them: how many lines there were, and the
furthest column. -/
def skipEmptyLines (column : Option Nat) : Nat → Nat → Nat → Scanner → Nat × Nat × Scanner
  | 0, breaks, furthest, s => (breaks, furthest, s)
  | fuel + 1, breaks, furthest, s =>
    let s := skipSpacesTo column (s.rest.length + 1) s
    let furthest := max furthest s.column
    if isBreak (s.ahead 0) then skipEmptyLines column fuel (breaks + 1) furthest s.skipBreak
    else (breaks, furthest, s)

/-- A block scalar under way. -/
structure BlockText where
  text : List Char
  /-- Whether the end of a line waits. -/
  hasBreak : Bool
  /-- How many ends of empty lines wait after it. -/
  further : Nat
  /-- Whether the last line began with a blank. -/
  wasBlank : Bool

/-- The end of a line that waits. -/
def BlockText.breakText (b : BlockText) : List Char := if b.hasBreak then ['\n'] else []

/-- The ends of empty lines that wait. -/
def BlockText.furtherText (b : BlockText) : List Char := List.replicate b.further '\n'

/-- Reads the lines of a block scalar at a column. -/
def blockLines (literal : Bool) (column : Nat) : Nat → BlockText → Scanner → BlockText × Scanner
  | 0, b, s => (b, s)
  | fuel + 1, b, s =>
    if s.column = column ∧ !s.rest.isEmpty ∧ !(column = 0 ∧ s.isDocumentMark) then
      let startsBlank := isBlank (s.ahead 0)
      let between :=
        if !literal && b.hasBreak && !b.wasBlank && !startsBlank then
          (if b.further = 0 then [' '] else b.furtherText)
        else b.breakText ++ b.furtherText
      let line := s.rest.takeWhile fun c => !isBreak (some c)
      let s := skipChars line.length s
      let b : BlockText := ⟨b.text ++ between ++ line, false, 0, startsBlank⟩
      if s.rest.isEmpty then (b, s)
      else
        let (breaks, _, s) := skipEmptyLines (some column) (s.rest.length + 1) 0 0 s.skipBreak
        blockLines literal column fuel { b with hasBreak := true, further := breaks } s
    else (b, s)

/-- Reads a block scalar. -/
def blockScalar (s : Scanner) (literal : Bool) : Option Scanner := do
  let s := s.saveKey.allowKey.skipChar.dropPlain
  let line := s.line
  let (how, increment, s) ← s.blockHeader
  let (_, s) ← s.finishLine true
  if !isEnd (s.ahead 0) then none
  let s := s.skipBreak
  if s.ahead 0 == some '\t' then none
  let fuel := s.rest.length + 1
  let (column, breaks, s) :=
    if increment = 0 then
      let (breaks, furthest, s) := skipEmptyLines none fuel 0 0 s
      let column := max furthest (s.indent + 1).toNat
      (if 0 < s.indent then max column 1 else column, breaks, s)
    else
      let column := if 0 ≤ s.indent then s.indent.toNat + increment else increment
      let (breaks, _, s) := skipEmptyLines (some column) fuel 0 0 s
      (column, breaks, s)
  let done (text : List Char) (s : Scanner) : Scanner :=
    s.push (.scalar .block (String.ofList text))
  if s.rest.isEmpty then
    let text :=
      if how = .strip ∨ s.line = line then []
      else if how = .keep ∧ breaks ≠ 0 then List.replicate breaks '\n'
      else ['\n']
    return done text s
  else if s.column < column ∧ s.indent < s.column then none
  else
    let (b, s) := blockLines literal column fuel ⟨[], false, breaks, false⟩ s
    let text := b.text ++
      (if how = .strip then []
       else b.breakText ++ (if s.rest.isEmpty ∧ max column 1 ≤ s.column then ['\n'] else [])) ++
      (if how = .keep then b.furtherText else [])
    return done text s

/-! The whole scan. -/

/-- Ends all blocks at the end of the document. -/
def finish (s : Scanner) : Option Scanner :=
  if s.keys.any fun k => k.isPossible && k.isRequired then none
  else
    let keys := s.keys.map fun k => { k with isPossible := false }
    some (({ s with keys := keys } : Scanner).unrollTo (-1))

/-- Reads one token that is not the mark of a document. -/
def token (s : Scanner) : Option Scanner :=
  let next := s.ahead 1
  match s.ahead 0 with
  | some '[' => s.flowStart .flowSequence
  | some '\x7b' => s.flowStart .flowMapping
  | some ']' => s.flowEnd .flowSequenceEnd
  | some '\x7d' => s.flowEnd .flowMappingEnd
  | some ',' => s.flowEntry
  | some '-' => if isGap next then s.blockEntry else s.plain
  | some '?' => if isGap next then s.explicitKey else s.plain
  | some ':' =>
    if isGap next || (decide (0 < s.flow) && (isFlow next || s.index == s.closeColon)) then s.colon
    else s.plain
  | some '*' => s.anchor .alias
  | some '&' => s.anchor .anchor
  | some '!' => s.tag
  | some '|' => if s.flow = 0 then s.blockScalar true else s.plain
  | some '>' => if s.flow = 0 then s.blockScalar false else s.plain
  | some '\'' => s.quoted '\''
  | some '"' => s.quoted '"'
  | some '%' | some '@' | some '`' => none
  | _ => s.plain

/-- Reads tokens up to the end. -/
def run : Nat → Scanner → Option Scanner
  | 0, _ => none
  | fuel + 1, s => do
    let s ← skipToToken (s.rest.length + 1) s
    let s ← s.dropStaleKeys
    let s := s.unrollTo s.column
    if s.rest.isEmpty then s.finish
    else if s.column = 0 ∧ s.ahead 0 == some '%' then run fuel (← s.directive)
    else if s.column = 0 ∧ s.isMark '-' then run fuel (← s.documentMark .documentStart)
    else if s.column = 0 ∧ s.isMark '.' then
      let (_, s) ← (← s.documentMark .documentEnd).finishLine true
      if isEnd (s.ahead 0) then run fuel s else none
    else if (s.column : Int) < s.indent then none
    else run fuel (← s.token)

/-- The start of a scan. -/
def start (cs : List Char) : Scanner :=
  ⟨cs, 0, 0, 0, true, -1, [], 0, true, [.none], [], 0, 0⟩

end Scanner

/-- **The tokens of a document.** -/
def Token.scan? (text : String) : Option (List Token) :=
  let cs := text.toList.takeWhile (· ≠ '\x00')
  (Scanner.run (2 * cs.length + 2) (Scanner.start cs)).map fun s => s.tokens.reverse

end FlowHost.Yaml
