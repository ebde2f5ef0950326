import FlowHost.Json.Basic
import FlowHost.Bytes

/-!
# Reading JSON

The grammar of JSON over lists of characters. Every function returns what it read
and the rest of the text, or nothing if the text does not follow the grammar.

* `Json.readValue`: one value.
* `Json.read?`: a whole document.
-/

namespace FlowHost.Json

/-- The characters between tokens. -/
def isBlank (c : Char) : Bool := c == ' ' || c == '\n' || c == '\t' || c == '\r'

/-- Drops leading blanks. -/
def skipBlanks (cs : List Char) : List Char := cs.dropWhile isBlank

/-- Whether a character is a decimal digit. -/
def isDigit (c : Char) : Bool := decide ('0' ≤ c) && decide (c ≤ '9')

/-- The number of four hexadecimal digits. -/
def hexQuad (a b c d : Char) : Option Nat := do
  return ((← Bytes.hexValue? a) * 16 + (← Bytes.hexValue? b)) * 256 +
    ((← Bytes.hexValue? c) * 16 + (← Bytes.hexValue? d))

/-- The character that a one-letter escape stands for. -/
def shortEscape (c : Char) : Option Char :=
  match c with
  | '"' => some '"'
  | '\\' => some '\\'
  | '/' => some '/'
  | 'b' => some '\x08'
  | 'f' => some '\x0c'
  | 'n' => some '\n'
  | 'r' => some '\r'
  | 't' => some '\t'
  | _ => none

/-- Whether a number is the first half of a surrogate pair. -/
def isLeading (n : Nat) : Bool := decide (0xD800 ≤ n) && decide (n ≤ 0xDBFF)

/-- Whether a number is the second half of a surrogate pair. -/
def isTrailing (n : Nat) : Bool := decide (0xDC00 ≤ n) && decide (n ≤ 0xDFFF)

/-- The character of a surrogate pair. -/
def joinPair (high low : Nat) : Char :=
  Char.ofNat (0x10000 + (high - 0xD800) * 1024 + (low - 0xDC00))

/-- What one escape after its backslash stands for, and the rest: a character, or nothing for
half of a surrogate pair. -/
def readEscape : List Char → Option (Option Char × List Char)
  | 'u' :: a :: b :: c :: d :: rest => do
    let n ← hexQuad a b c d
    if isLeading n then
      match rest with
      | '\\' :: 'u' :: a' :: b' :: c' :: d' :: rest' =>
        match hexQuad a' b' c' d' with
        | some low =>
          if isTrailing low then some (some (joinPair n low), rest') else some (none, rest)
        | none => none
      | _ => some (none, rest)
    else if isTrailing n then some (none, rest)
    else some (some (Char.ofNat n), rest)
  | c :: rest => (shortEscape c).map fun e => (some e, rest)
  | [] => none

/-- The text up to the closing quote. The text has no value if any part of it has none. -/
def readText : Nat → Option (List Char) → List Char → Option (Option String × List Char)
  | 0, _, _ => none
  | _ + 1, _, [] => none
  | fuel + 1, acc, c :: rest =>
    if c = '"' then some (acc.map fun cs => String.ofList cs.reverse, rest)
    else if c = '\\' then
      match readEscape rest with
      | some (some e, rest') => readText fuel (acc.map (e :: ·)) rest'
      | some (none, rest') => readText fuel none rest'
      | none => none
    else if c.toNat < 0x20 then none
    else readText fuel (acc.map (c :: ·)) rest

/-- The digits at the start. -/
def spanDigits (cs : List Char) : List Char × List Char :=
  (cs.takeWhile isDigit, cs.dropWhile isDigit)

/-- The exponent of a number, if there is one. -/
def readExponent (cs : List Char) : Option (Option (Bool × List Char) × List Char) :=
  match cs with
  | 'e' :: rest | 'E' :: rest =>
    let (negative, rest) := match rest with
      | '-' :: r => (true, r)
      | '+' :: r => (false, r)
      | r => (false, r)
    let (ds, rest) := spanDigits rest
    if ds.isEmpty then none else some (some (negative, ds), rest)
  | rest => some (none, rest)

/-- The fraction of a number, if there is one. -/
def readFraction (cs : List Char) : Option (List Char × List Char) :=
  match cs with
  | '.' :: rest =>
    let (ds, rest) := spanDigits rest
    if ds.isEmpty then none else some (ds, rest)
  | rest => some ([], rest)

/-- A number; no digit follows a leading zero. -/
def readNumeral (cs : List Char) : Option (Numeral × List Char) := do
  let (negative, cs) := match cs with
    | '-' :: r => (true, r)
    | r => (false, r)
  let (whole, cs) := spanDigits cs
  if whole.isEmpty then none
  else if whole.head? = some '0' ∧ whole.length ≠ 1 then none
  else
    let (fraction, cs) ← readFraction cs
    let (exponent, cs) ← readExponent cs
    return (⟨negative, whole, fraction, exponent⟩, cs)

/-- The rest after a word that the text must start with. -/
def expect (word : List Char) (cs : List Char) : Option (List Char) :=
  if word.isPrefixOf cs then some (cs.drop word.length) else none

mutual

/-- A value, after any blanks. -/
def readValue : Nat → List Char → Option (Json × List Char)
  | 0, _ => none
  | fuel + 1, cs =>
    match skipBlanks cs with
    | '"' :: rest => (readText (rest.length + 1) (some []) rest).map fun r => (text r.1, r.2)
    | '[' :: rest =>
      match skipBlanks rest with
      | ']' :: rest => some (array [], rest)
      | rest => (readItems fuel rest).map fun r => (array r.1, r.2)
    | '\x7b' :: rest =>
      match skipBlanks rest with
      | '\x7d' :: rest => some (object [], rest)
      | rest => (readMembers fuel rest).map fun r => (object r.1, r.2)
    | 'n' :: rest => (expect ['u', 'l', 'l'] rest).map fun r => (null, r)
    | 't' :: rest => (expect ['r', 'u', 'e'] rest).map fun r => (bool true, r)
    | 'f' :: rest => (expect ['a', 'l', 's', 'e'] rest).map fun r => (bool false, r)
    | rest => (readNumeral rest).map fun r => (number r.1, r.2)

/-- The items of an array up to its closing bracket. -/
def readItems : Nat → List Char → Option (List Json × List Char)
  | 0, _ => none
  | fuel + 1, cs => do
    let (item, rest) ← readValue fuel cs
    match skipBlanks rest with
    | ',' :: rest =>
      let (items, rest) ← readItems fuel rest
      return (item :: items, rest)
    | ']' :: rest => return ([item], rest)
    | _ => none

/-- The members of an object up to its closing brace. -/
def readMembers : Nat → List Char → Option (List (Option String × Json) × List Char)
  | 0, _ => none
  | fuel + 1, cs =>
    match skipBlanks cs with
    | '"' :: rest => do
      let (name, rest) ← readText (rest.length + 1) (some []) rest
      match skipBlanks rest with
      | ':' :: rest =>
        let (value, rest) ← readValue fuel rest
        match skipBlanks rest with
        | ',' :: rest =>
          let (members, rest) ← readMembers fuel rest
          return ((name, value) :: members, rest)
        | '\x7d' :: rest => return ([(name, value)], rest)
        | _ => none
      | _ => none
    | _ => none

end

/-- **A whole document**: one value and nothing after it but blanks. -/
def read? (source : String) : Option Json :=
  let cs := source.toList
  match readValue (2 * cs.length + 2) cs with
  | some (value, rest) => if (skipBlanks rest).isEmpty then some value else none
  | none => none

/-- Whether a text is a document in which everything has a value and nothing is nested too
deeply: at most 127 lists and objects inside each other. -/
def isDocument (source : String) : Bool :=
  match read? source with
  | some j => j.isSound 128
  | none => false

end FlowHost.Json
