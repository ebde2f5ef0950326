import FlowHost.Bytes

/-!
# Scanning

Small readers of characters that the readers of documents share. A reader gives what it
read and the characters after it, or nothing.
-/

namespace FlowHost.Scan

/-- A reader of characters. -/
abbrev Reader (α : Type) := List Char → Option (α × List Char)

/-- The character of a code point, if there is one. -/
def charOf? (code : Nat) : Option Char :=
  if code < 0xd800 ∨ (0xe000 ≤ code ∧ code < 0x110000) then some (Char.ofNat code) else none

/-- Reads as many hexadecimal digits as asked for. -/
def hexDigits : Nat → Nat → Reader Nat
  | 0, value, cs => some (value, cs)
  | _ + 1, _, [] => none
  | count + 1, value, c :: cs => do hexDigits count (16 * value + (← Bytes.hexValue? c)) cs

/-- Reads the code point of a character in a number of hexadecimal digits. -/
def codeChar (count : Nat) : Reader Char := fun cs => do
  let (code, rest) ← hexDigits count 0 cs
  return (← charOf? code, rest)

/-- What follows some characters, if they come first. -/
def after? : List Char → List Char → Option (List Char)
  | [], cs => some cs
  | _ :: _, [] => none
  | p :: ps, c :: cs => if p = c then after? ps cs else none

/-- What follows blanks and tabs. -/
def skipSpaces (cs : List Char) : List Char := cs.dropWhile fun c => c == ' ' || c == '\t'

/-- What follows the end of a line, if it comes first. -/
def lineEnd? : List Char → Option (List Char)
  | '\n' :: rest => some rest
  | '\r' :: '\n' :: rest => some rest
  | _ => none

/-- Reads digits in a base with single underscores between them. -/
def spacedDigits (isDigit : Char → Bool) : Reader (List Char)
  | [] => none
  | c :: cs => if isDigit c then some (c :: (go cs).1, (go cs).2) else none
where
  /-- The digits that follow one. -/
  go : List Char → List Char × List Char
    | '_' :: c :: cs => if isDigit c then (c :: (go cs).1, (go cs).2) else ([], '_' :: c :: cs)
    | c :: cs => if isDigit c then (c :: (go cs).1, (go cs).2) else ([], c :: cs)
    | [] => ([], [])

end FlowHost.Scan
