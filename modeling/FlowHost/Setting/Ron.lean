import FlowHost.Setting
import FlowHost.Text.Scan

/-!
# Documents of records

The reader of RON documents: records with named fields in round brackets, maps in braces,
lists, options and scalars.

* `Ron.read?`: a document as a setting.
-/

namespace FlowHost.Ron

open Scan

/-- What follows a comment in stars, which may hold others; the depth is how many are open. -/
def skipStars : Nat → List Char → Option (List Char)
  | _, [] => none
  | depth, '/' :: '*' :: cs => skipStars (depth + 1) cs
  | depth, '*' :: '/' :: cs =>
    match depth with
    | 0 => none
    | 1 => some cs
    | depth + 2 => skipStars (depth + 1) cs
  | depth, _ :: cs => skipStars depth cs

/-- What follows blanks and comments. A comment that does not end is left. -/
def skip : Nat → List Char → List Char
  | 0, cs => cs
  | fuel + 1, cs =>
    match cs with
    | '/' :: '/' :: rest => skip fuel (rest.dropWhile (· ≠ '\n'))
    | '/' :: '*' :: rest =>
      match skipStars 1 rest with
      | some rest => skip fuel rest
      | none => cs
    | c :: rest => if c = ' ' ∨ c = '\n' ∨ c = '\t' ∨ c = '\r' then skip fuel rest else cs
    | [] => []

/-- What follows all blanks and comments. -/
def skipAll (cs : List Char) : List Char := skip (cs.length + 1) cs

/-- Whether a character may begin a name. -/
def isNameStart (c : Char) : Bool := c.isAlpha || c == '_'

/-- Whether a character may stand in a name. -/
def isNamePart (c : Char) : Bool := c.isAlphanum || c == '_'

/-- Reads a name. -/
def name : Reader String
  | [] => none
  | c :: cs =>
    if isNameStart c then
      let more := cs.takeWhile isNamePart
      some (String.ofList (c :: more), cs.drop more.length)
    else none

/-- Reads an escape after its backslash. -/
def escape : Reader Char
  | '\'' :: cs => some ('\'', cs)
  | '"' :: cs => some ('"', cs)
  | '\\' :: cs => some ('\\', cs)
  | 'n' :: cs => some ('\n', cs)
  | 'r' :: cs => some ('\r', cs)
  | 't' :: cs => some ('\t', cs)
  | '0' :: cs => some ('\x00', cs)
  | 'x' :: cs => codeChar 2 cs
  | 'u' :: '\x7b' :: cs =>
    let ds := cs.takeWhile (· ≠ '\x7d')
    if 1 ≤ ds.length ∧ ds.length ≤ 6 then do
      let (c, _) ← codeChar ds.length ds
      return (c, cs.drop (ds.length + 1))
    else none
  | _ => none

/-- Reads a text up to its closing quote. -/
def quotedText : Nat → Reader (List Char)
  | 0, _ => none
  | _ + 1, [] => none
  | _ + 1, '"' :: cs => some ([], cs)
  | fuel + 1, '\\' :: cs => do
    let (c, cs) ← escape cs
    let (text, cs) ← quotedText fuel cs
    return (c :: text, cs)
  | fuel + 1, c :: cs => (quotedText fuel cs).map fun r => (c :: r.1, r.2)

/-- Reads a raw text up to its closing quote and marks. -/
def rawText (close : List Char) : Reader (List Char)
  | [] => none
  | c :: cs =>
    match after? close (c :: cs) with
    | some rest => some ([], rest)
    | none => (rawText close cs).map fun r => (c :: r.1, r.2)

/-- Reads a character in single quotes. -/
def quotedChar : Reader Char
  | '\\' :: cs => do
    let (c, rest) ← escape cs
    return (c, ← after? ['\''] rest)
  | c :: '\'' :: rest => some (c, rest)
  | _ => none

/-- Whether a character may stand in a real number. -/
def isRealChar (c : Char) : Bool :=
  c.isDigit || c == 'e' || c == 'E' || c == '.' || c == '+' || c == '-' || c == '_'

/-- Whether a character may stand in an integer. -/
def isIntegerChar (c : Char) : Bool := (Bytes.hexValue? c).isSome || c == '_'

/-- Reads infinity and what is no number. -/
def namedReal : Reader Setting := fun cs =>
  let (negative, body) := splitSign cs
  match name body with
  | some ("inf", rest) => some (.real (Double.infinity.withSign negative), rest)
  | some ("NaN", rest) => some (.real (Double.notANumber.withSign negative), rest)
  | _ => none

/-- Reads a real number in decimal digits. -/
def real : Reader Setting := fun cs =>
  let ds := cs.takeWhile isRealChar
  if ds.contains '_' then none
  else (readReal? ds).map fun x => (.real x, cs.drop ds.length)

/-- The base that digits begin with, and the digits after its mark. -/
def baseOf : List Char → Nat × List Char
  | '0' :: 'x' :: cs => (16, cs)
  | '0' :: 'b' :: cs => (2, cs)
  | '0' :: 'o' :: cs => (8, cs)
  | cs => (10, cs)

/-- An integer: of 64 bits as it is, beyond them as a real number. -/
def ofInteger (i : Int) : Setting :=
  if i < Int.pow 2 63 then .integer i else .real (Double.ofInt i)

/-- Reads an integer of 64 bits, with or without a sign. -/
def integer : Reader Setting := fun cs =>
  let isSigned := match cs with
    | '+' :: _ | '-' :: _ => true
    | _ => false
  let (negative, cs) := splitSign cs
  let (base, cs) := baseOf cs
  let run := cs.takeWhile isIntegerChar
  let ds := run.filter (· ≠ '_')
  let fits := ds.all fun c =>
    match Bytes.hexValue? c with
    | some v => decide (v < base)
    | none => false
  let n : Int := valueInBase base ds
  let i := if negative then -n else n
  let inRange :=
    if isSigned then decide (-(Int.pow 2 63) ≤ i ∧ i < Int.pow 2 63) else decide (i < Int.pow 2 64)
  if run.isEmpty || run.head? == some '_' || !fits || !inRange then none
  else some (ofInteger i, cs.drop run.length)

/-- Reads a number: an integer, or else a real number. -/
def number : Reader Setting := fun cs =>
  match namedReal cs with
  | some r => some r
  | none =>
    let body := (splitSign cs).2
    if (body.takeWhile isIntegerChar).length < (body.takeWhile isRealChar).length then real cs
    else
      match integer cs with
      | some r => some r
      | none => real cs

/-- Whether what follows an opening bracket is a named field. -/
def isNamed (cs : List Char) : Bool :=
  match name (skipAll cs) with
  | some (_, rest) => (skipAll rest).head? == some ':'
  | none => false

/-- The name that a key counts as, if it counts as one. -/
def keyText? : Setting → Option String
  | .text t => some t
  | _ => none

mutual

/-- Reads a value, in which brackets may be nested to some depth. -/
def value : Nat → Nat → Reader Setting
  | 0, _, _ => none
  | fuel + 1, depth, cs =>
    match skipAll cs with
    | [] => none
    | '(' :: rest => bracket fuel depth rest
    | '[' :: rest =>
      if depth = 0 then none
      else (items fuel (depth - 1) ']' rest).map fun r => (.list r.1, r.2)
    | '\x7b' :: rest =>
      if depth = 0 then none
      else (entries fuel (depth - 1) rest).map fun r => (.table (Setting.latest r.1), r.2)
    | '"' :: rest =>
      (quotedText (rest.length + 1) rest).map fun r => (.text (String.ofList r.1), r.2)
    | '\'' :: rest => (quotedChar rest).map fun r => (.text (String.singleton r.1), r.2)
    | 'r' :: '"' :: rest => (rawText ['"'] rest).map fun r => (.text (String.ofList r.1), r.2)
    | 'r' :: '#' :: rest =>
      let marks := '#' :: rest.takeWhile (· == '#')
      match rest.drop (marks.length - 1) with
      | '"' :: rest =>
        (rawText ('"' :: marks) rest).map fun r => (.text (String.ofList r.1), r.2)
      | _ => none
    | start =>
      match name start with
      | none => number start
      | some ("true", rest) => some (.bool true, rest)
      | some ("false", rest) => some (.bool false, rest)
      | some ("None", rest) => some (.null, rest)
      | some ("Some", rest) =>
        match skipAll rest with
        | '(' :: rest => do
          if depth = 0 then none
          let (s, rest) ← value fuel (depth - 1) rest
          let rest := skipAll rest
          let rest := (after? [','] rest).map skipAll |>.getD rest
          return (s, ← after? [')'] rest)
        | _ => none
      | some (word, rest) =>
        if word = "inf" ∨ word = "NaN" then number start
        else
          match skipAll rest with
          | '(' :: rest => bracket fuel depth rest
          | _ => some (.null, rest)

/-- Reads what stands in round brackets: nothing, named fields, or items. -/
def bracket : Nat → Nat → Reader Setting
  | 0, _, _ => none
  | fuel + 1, depth, cs =>
    match skipAll cs with
    | ')' :: rest => some (.null, rest)
    | start =>
      if depth = 0 then none
      else if isNamed start then
        (fields fuel (depth - 1) start).map fun r => (.table (Setting.latest r.1), r.2)
      else (items fuel (depth - 1) ')' start).map fun r => (.list r.1, r.2)

/-- Reads items up to a closing character. -/
def items : Nat → Nat → Char → Reader (List Setting)
  | 0, _, _, _ => none
  | fuel + 1, depth, close, cs =>
    match skipAll cs with
    | [] => none
    | c :: rest =>
      if c = close then some ([], rest)
      else do
        let (item, rest) ← value fuel depth (c :: rest)
        match skipAll rest with
        | ',' :: rest =>
          let (others, rest) ← items fuel depth close rest
          return (item :: others, rest)
        | d :: rest => if d = close then return ([item], rest) else none
        | [] => none

/-- Reads the entries of a map up to its closing brace. -/
def entries : Nat → Nat → Reader (List (String × Setting))
  | 0, _, _ => none
  | fuel + 1, depth, cs =>
    match skipAll cs with
    | '\x7d' :: rest => some ([], rest)
    | start => do
      let (k, rest) ← value fuel depth start
      let rest ← after? [':'] (skipAll rest)
      let (s, rest) ← value fuel depth rest
      let title ← keyText? k
      match skipAll rest with
      | ',' :: rest =>
        let (others, rest) ← entries fuel depth rest
        return ((title, s) :: others, rest)
      | '\x7d' :: rest => return ([(title, s)], rest)
      | _ => none

/-- Reads named fields up to the closing bracket. -/
def fields : Nat → Nat → Reader (List (String × Setting))
  | 0, _, _ => none
  | fuel + 1, depth, cs =>
    match skipAll cs with
    | ')' :: rest => some ([], rest)
    | start => do
      let (title, rest) ← name start
      let rest ← after? [':'] (skipAll rest)
      let (s, rest) ← value fuel depth rest
      match skipAll rest with
      | ',' :: rest =>
        let (others, rest) ← fields fuel depth rest
        return ((title, s) :: others, rest)
      | ')' :: rest => return ([(title, s)], rest)
      | _ => none

end

/-- What follows a line that turns extensions on, if the document begins with one. -/
def skipExtensions (cs : List Char) : List Char :=
  match after? "#![enable(".toList cs with
  | none => cs
  | some rest => (after? ")]".toList (rest.dropWhile (· ≠ ')'))).getD cs

/-- How deeply brackets may be nested. -/
def maxDepth : Nat := 128

/-- **A document as a setting.** -/
def read? (text : String) : Option Setting := do
  let cs := skipExtensions (skipAll text.toList)
  let (s, rest) ← value (2 * cs.length + 2) maxDepth cs
  if (skipAll rest).isEmpty then return s else none

end FlowHost.Ron
