import FlowHost.Setting
import FlowHost.Text.Blank
import FlowHost.Text.Scan

/-!
# Documents for people

The reader of JSON5 documents: JSON with comments, bare names, single quotes, trailing commas
and more ways to write numbers.

* `Json5.read?`: a document as a setting.
-/

namespace FlowHost.Json5

open Scan

/-- Whether a character ends a line. -/
def isLineEnd (c : Char) : Bool := c == '\n' || c == '\r' || c == '\u2028' || c == '\u2029'

/-- Whether a character is white space. -/
def isSpace (c : Char) : Bool := (isBlank c && c != '\u0085') || c == '\ufeff'

/-- What follows a comment in stars. -/
def skipStars : List Char → Option (List Char)
  | '*' :: '/' :: cs => some cs
  | _ :: cs => skipStars cs
  | [] => none

/-- What follows blanks and comments. A comment that does not end is left. -/
def skip : Nat → List Char → List Char
  | 0, cs => cs
  | fuel + 1, cs =>
    match cs with
    | '/' :: '/' :: rest => skip fuel (rest.dropWhile fun c => !isLineEnd c)
    | '/' :: '*' :: rest =>
      match skipStars rest with
      | some rest => skip fuel rest
      | none => cs
    | c :: rest => if isSpace c then skip fuel rest else cs
    | [] => []

/-- What follows all blanks and comments. -/
def skipAll (cs : List Char) : List Char := skip (cs.length + 1) cs

/-- Whether a character may begin a name. Beyond the basic alphabet all but blanks may. -/
def isNameStart (c : Char) : Bool :=
  c.isAlpha || c == '$' || c == '_' || (decide (0xaa ≤ c.toNat) && !isSpace c)

/-- Whether a character may stand in a name. -/
def isNamePart (c : Char) : Bool := isNameStart c || c.isDigit

/-- Reads the further characters of a name. -/
def nameRest : Nat → List Char → List Char × List Char
  | 0, cs => ([], cs)
  | fuel + 1, '\\' :: 'u' :: cs =>
    match codeChar 4 cs with
    | some (c, rest) => (c :: (nameRest fuel rest).1, (nameRest fuel rest).2)
    | none => ([], '\\' :: 'u' :: cs)
  | fuel + 1, c :: cs =>
    if isNamePart c then (c :: (nameRest fuel cs).1, (nameRest fuel cs).2) else ([], c :: cs)
  | _ + 1, [] => ([], [])

/-- Reads a name. -/
def name : Reader String := fun cs =>
  let begins := match cs with
    | '\\' :: 'u' :: _ => true
    | c :: _ => isNameStart c
    | [] => false
  if begins then
    let (found, rest) := nameRest (cs.length + 1) cs
    if found.isEmpty then none else some (String.ofList found, rest)
  else none

/-- Reads the character of a code in four digits, or of two codes that belong together. -/
def wideChar : Reader Char := fun cs => do
  let (code, rest) ← hexDigits 4 0 cs
  if 0xd800 ≤ code ∧ code < 0xdc00 then
    let rest ← after? ['\\', 'u'] rest
    let (low, rest) ← hexDigits 4 0 rest
    if 0xdc00 ≤ low ∧ low < 0xe000 then
      return (← charOf? (0x10000 + (code - 0xd800) * 0x400 + (low - 0xdc00)), rest)
    else none
  else return (← charOf? code, rest)

/-- Reads an escape after its backslash; the end of a line stands for nothing. -/
def escape : Reader (List Char)
  | [] => none
  | '\r' :: '\n' :: cs => some ([], cs)
  | 'b' :: cs => some (['\x08'], cs)
  | 'f' :: cs => some (['\x0c'], cs)
  | 'n' :: cs => some (['\n'], cs)
  | 'r' :: cs => some (['\r'], cs)
  | 't' :: cs => some (['\t'], cs)
  | 'v' :: cs => some (['\x0b'], cs)
  | 'x' :: cs => (codeChar 2 cs).map fun r => ([r.1], r.2)
  | 'u' :: cs => (wideChar cs).map fun r => ([r.1], r.2)
  | '0' :: cs => if (cs.head?.map Char.isDigit).getD false then none else some (['\x00'], cs)
  | c :: cs =>
    if c.isDigit then none
    else if isLineEnd c then some ([], cs)
    else some ([c], cs)

/-- Reads a text up to its closing quote. -/
def quotedText (quote : Char) : Nat → Reader (List Char)
  | 0, _ => none
  | _ + 1, [] => none
  | fuel + 1, c :: cs =>
    if c = quote then some ([], cs)
    else if c = '\\' then do
      let (found, cs) ← escape cs
      let (text, cs) ← quotedText quote fuel cs
      return (found ++ text, cs)
    else if c = '\n' ∨ c = '\r' then none
    else (quotedText quote fuel cs).map fun r => (c :: r.1, r.2)

/-- Reads an exponent with its letter, if there is one. -/
def exponent (cs : List Char) : Option Int × List Char :=
  match cs with
  | c :: rest =>
    if c = 'e' ∨ c = 'E' then
      let (negative, body) := splitSign rest
      let ds := body.takeWhile Char.isDigit
      if ds.isEmpty then (none, cs)
      else
        let n : Int := valueInBase 10 ds
        (some (if negative then -n else n), body.drop ds.length)
    else (none, cs)
  | [] => (none, cs)

/-- Reads decimal digits with a point, an exponent, or neither. -/
def decimal (negative : Bool) : Reader Setting := fun cs =>
  let whole := match cs with
    | '0' :: _ => ['0']
    | cs => cs.takeWhile Char.isDigit
  let rest := cs.drop whole.length
  let real (fraction : List Char) (power : Int) (rest : List Char) :=
    let x := assembleReal negative whole fraction power
    if x.isFinite then some (Setting.real x, rest) else none
  match rest with
  | '.' :: more =>
    let fraction := more.takeWhile Char.isDigit
    if whole.isEmpty && fraction.isEmpty then none
    else
      let (power, rest) := exponent (more.drop fraction.length)
      real fraction (power.getD 0) rest
  | _ =>
    if whole.isEmpty then none
    else
      match exponent rest with
      | (some power, rest) => real [] power rest
      | (none, rest) =>
        let n : Int := valueInBase 10 whole
        let i := if negative then -n else n
        if -(Int.pow 2 63) ≤ i ∧ i < Int.pow 2 63 then some (.integer i, rest) else none

/-- Reads digits in base sixteen after their mark. -/
def hexadecimal (signed : Bool) : Reader Setting := fun cs =>
  let ds := cs.takeWhile fun c => (Bytes.hexValue? c).isSome
  let n := valueInBase 16 ds
  if signed || ds.isEmpty || decide (Nat.pow 2 32 ≤ n) then none
  else some (.integer n, cs.drop ds.length)

/-- Reads a number. -/
def number : Reader Setting := fun cs =>
  let (negative, body) := splitSign cs
  let signed := body.length != cs.length
  let plus := signed && !negative
  let found : Option (Setting × List Char) := match body with
    | '0' :: 'x' :: rest | '0' :: 'X' :: rest => hexadecimal signed rest
    | _ =>
      match after? "Infinity".toList body, after? "NaN".toList body with
      | some rest, _ =>
        if plus then none else some (.real (Double.infinity.withSign negative), rest)
      | _, some rest => if plus then none else some (.real Double.notANumber, rest)
      | none, none => decimal negative body
  match found with
  | some (s, rest) => if (rest.head?.map isNamePart).getD false then none else some (s, rest)
  | none => none

mutual

/-- Reads a value. -/
def value : Nat → Reader Setting
  | 0, _ => none
  | fuel + 1, cs =>
    match skipAll cs with
    | '\x7b' :: rest => (entries fuel rest).map fun r => (.table (Setting.latest r.1), r.2)
    | '[' :: rest => (items fuel rest).map fun r => (.list r.1, r.2)
    | '"' :: rest =>
      (quotedText '"' (rest.length + 1) rest).map fun r => (.text (String.ofList r.1), r.2)
    | '\'' :: rest =>
      (quotedText '\'' (rest.length + 1) rest).map fun r => (.text (String.ofList r.1), r.2)
    | start =>
      match name start with
      | some ("null", rest) => some (.null, rest)
      | some ("true", rest) => some (.bool true, rest)
      | some ("false", rest) => some (.bool false, rest)
      | _ => number start

/-- Reads the items of a list up to its closing bracket. -/
def items : Nat → Reader (List Setting)
  | 0, _ => none
  | fuel + 1, cs =>
    match skipAll cs with
    | ']' :: rest => some ([], rest)
    | start => do
      let (item, rest) ← value fuel start
      match skipAll rest with
      | ',' :: rest =>
        let (others, rest) ← items fuel rest
        return (item :: others, rest)
      | ']' :: rest => return ([item], rest)
      | _ => none

/-- Reads the entries of a table up to its closing brace. -/
def entries : Nat → Reader (List (String × Setting))
  | 0, _ => none
  | fuel + 1, cs =>
    match skipAll cs with
    | '\x7d' :: rest => some ([], rest)
    | start => do
      let (title, rest) ← match start with
        | '"' :: rest =>
          (quotedText '"' (rest.length + 1) rest).map fun r => (String.ofList r.1, r.2)
        | '\'' :: rest =>
          (quotedText '\'' (rest.length + 1) rest).map fun r => (String.ofList r.1, r.2)
        | start => name start
      let rest ← after? [':'] (skipAll rest)
      let (s, rest) ← value fuel rest
      match skipAll rest with
      | ',' :: rest =>
        let (others, rest) ← entries fuel rest
        return ((title, s) :: others, rest)
      | '\x7d' :: rest => return ([(title, s)], rest)
      | _ => none

end

/-- **A document as a setting.** -/
def read? (text : String) : Option Setting := do
  let cs := text.toList
  let (s, rest) ← value (2 * cs.length + 2) cs
  if (skipAll rest).isEmpty then return s else none

end FlowHost.Json5
