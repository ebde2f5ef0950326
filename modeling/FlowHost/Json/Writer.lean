import FlowHost.Json.Basic
import FlowHost.Bytes

/-!
# Writing JSON

The compact spelling of a document, and the one with a member or item a line.

* `Json.compact`: no blanks at all.
* `Json.pretty`: two more blanks of indentation at each level.
-/

namespace FlowHost.Json

/-- One character inside a text. -/
def escapeChar (c : Char) : List Char :=
  if c = '"' then ['\\', '"']
  else if c = '\\' then ['\\', '\\']
  else if c = '\x08' then ['\\', 'b']
  else if c = '\x0c' then ['\\', 'f']
  else if c = '\n' then ['\\', 'n']
  else if c = '\r' then ['\\', 'r']
  else if c = '\t' then ['\\', 't']
  else if c.toNat < 0x20 then
    ['\\', 'u', '0', '0', Bytes.hexDigit (c.toNat / 16), Bytes.hexDigit (c.toNat % 16)]
  else [c]

/-- A text in quotes. -/
def writeText (t : String) : List Char := '"' :: t.toList.flatMap escapeChar ++ ['"']

/-- A text that may have no value; half of a surrogate pair stands for it then. -/
def writeName (t : Option String) : List Char :=
  match t with
  | some t => writeText t
  | none => ['"', '\\', 'u', 'd', '8', '0', '0', '"']

/-- A number as its digits stand. -/
def writeNumeral (n : Numeral) : List Char :=
  (if n.negative then ['-'] else []) ++ n.whole ++
    (if n.fraction.isEmpty then [] else '.' :: n.fraction) ++
    match n.exponent with
    | none => []
    | some (negative, ds) => 'e' :: (if negative then ['-'] else []) ++ ds

mutual

/-- The compact spelling. -/
def write : Json → List Char
  | null => ['n', 'u', 'l', 'l']
  | bool true => ['t', 'r', 'u', 'e']
  | bool false => ['f', 'a', 'l', 's', 'e']
  | number n => writeNumeral n
  | text t => writeName t
  | array [] => ['[', ']']
  | array (j :: rest) => '[' :: (write j ++ writeItems rest)
  | object [] => ['\x7b', '\x7d']
  | object (m :: rest) => '\x7b' :: (writeName m.1 ++ ':' :: (write m.2 ++ writeMembers rest))

/-- Further items, each after a comma, and the closing bracket. -/
def writeItems : List Json → List Char
  | [] => [']']
  | j :: rest => ',' :: (write j ++ writeItems rest)

/-- Further members, each after a comma, and the closing brace. -/
def writeMembers : List (Option String × Json) → List Char
  | [] => ['\x7d']
  | m :: rest => ',' :: (writeName m.1 ++ ':' :: (write m.2 ++ writeMembers rest))

end

/-- **The compact spelling of a document.** -/
def compact (j : Json) : String := String.ofList j.write

/-- A new line at a level of indentation. -/
def newline (level : Nat) : List Char := '\n' :: List.replicate (2 * level) ' '

mutual

/-- The spelling with a member or item a line, inside a level. -/
def writePretty (level : Nat) : Json → List Char
  | null => ['n', 'u', 'l', 'l']
  | bool true => ['t', 'r', 'u', 'e']
  | bool false => ['f', 'a', 'l', 's', 'e']
  | number n => writeNumeral n
  | text t => writeName t
  | array [] => ['[', ']']
  | array (j :: rest) =>
    '[' :: newline (level + 1) ++ (writePretty (level + 1) j ++ prettyItems level rest)
  | object [] => ['\x7b', '\x7d']
  | object (m :: rest) =>
    '\x7b' :: newline (level + 1) ++ writeName m.1 ++ ':' :: ' ' ::
      (writePretty (level + 1) m.2 ++ prettyMembers level rest)

/-- Further items and the closing bracket. -/
def prettyItems (level : Nat) : List Json → List Char
  | [] => newline level ++ [']']
  | j :: rest =>
    ',' :: newline (level + 1) ++ (writePretty (level + 1) j ++ prettyItems level rest)

/-- Further members and the closing brace. -/
def prettyMembers (level : Nat) : List (Option String × Json) → List Char
  | [] => newline level ++ ['\x7d']
  | m :: rest =>
    ',' :: newline (level + 1) ++ writeName m.1 ++ ':' :: ' ' ::
      (writePretty (level + 1) m.2 ++ prettyMembers level rest)

end

/-- **The spelling with a member or item a line.** -/
def pretty (j : Json) : String := String.ofList (j.writePretty 0)

end FlowHost.Json
