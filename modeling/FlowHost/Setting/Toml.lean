import FlowHost.Setting
import FlowHost.Text.Scan

/-!
# Documents of keys and tables

The reader of TOML documents: keys with values, tables under headings, lists of tables. A
table is opened once, and a key is given once.

* `Toml.read?`: the entries of a document.
-/

namespace FlowHost.Toml

open Scan

/-- A node of a document while it is read. -/
inductive Node where
  | value (s : Setting)
  /-- A table; whether a dotted key made it, and whether it has no heading of its own yet. -/
  | table (isDotted isImplicit : Bool) (entries : List (String × Node))
  /-- A list of tables, at least one. -/
  | tables (all : List (List (String × Node)))

mutual

/-- A node as a setting. -/
def Node.toSetting : Node → Setting
  | .value s => s
  | .table _ _ entries => .table (entriesToSettings entries)
  | .tables all => .list (allToSettings all)

/-- Entries as settings. -/
def entriesToSettings : List (String × Node) → List (String × Setting)
  | [] => []
  | e :: rest => (e.1, e.2.toSetting) :: entriesToSettings rest

/-- Tables as settings. -/
def allToSettings : List (List (String × Node)) → List Setting
  | [] => []
  | entries :: rest => .table (entriesToSettings entries) :: allToSettings rest

end

/-- Entries with a node under a name, in the place of an earlier one. -/
def replace (name : String) (node : Node) : List (String × Node) → List (String × Node)
  | [] => [(name, node)]
  | (n, old) :: rest => if n = name then (n, node) :: rest else (n, old) :: replace name node rest

/-- A change of a table: it is told whether a dotted key made the table. -/
abbrev Change := Bool → List (String × Node) → Option (List (String × Node))

/-- **Changes the table that a path leads to.** Tables on the way are made where they are
missing; a dotted path passes only through tables without a heading. -/
def changeAt (dotted : Bool) (change : Change) : List String → Change
  | [], isDotted, entries => change isDotted entries
  | name :: path, _, entries =>
    match entries.lookup name with
    | none => do
      let inner ← changeAt dotted change path dotted []
      return replace name (.table dotted true inner) entries
    | some (.table isDotted isImplicit inner) =>
      if dotted && !isImplicit then none
      else do
        let inner ← changeAt dotted change path isDotted inner
        return replace name (.table isDotted isImplicit inner) entries
    | some (.tables all) => do
      let last ← all.getLast?
      let inner ← changeAt dotted change path false last
      return replace name (.tables (all.dropLast ++ [inner])) entries
    | some (.value _) => none

/-- Gives a key its value, once. -/
def giveKey (key : List String) (s : Setting) : Change := fun isDotted entries =>
  match key.getLast? with
  | none => none
  | some name =>
    changeAt true (fun isDotted entries =>
      if isDotted = key.dropLast.isEmpty then none
      else if (entries.lookup name).isSome then none
      else some (entries ++ [(name, .value s)])) key.dropLast isDotted entries

/-- Opens the table of a heading. -/
def openTable (name : String) : Change := fun _ entries =>
  match entries.lookup name with
  | none => some (entries ++ [(name, .table false false [])])
  | some (.table false true inner) => some (replace name (.table false false inner) entries)
  | _ => none

/-- Opens a further table of a list. -/
def openItem (name : String) : Change := fun _ entries =>
  match entries.lookup name with
  | none => some (entries ++ [(name, .tables [[]])])
  | some (.tables all) => some (replace name (.tables (all ++ [[]])) entries)
  | _ => none

/-! Texts. -/

/-- Whether a character may stand in a text as it is. -/
def isPlain (c : Char) : Bool := c == '\t' || (decide (0x20 ≤ c.toNat) && c.toNat != 0x7f)

/-- What follows a comment, if there is one. -/
def skipComment : List Char → List Char
  | '#' :: rest => rest.dropWhile isPlain
  | cs => cs

/-- Reads an escape after its backslash. -/
def escape : Reader Char
  | 'b' :: cs => some ('\x08', cs)
  | 't' :: cs => some ('\t', cs)
  | 'n' :: cs => some ('\n', cs)
  | 'f' :: cs => some ('\x0c', cs)
  | 'r' :: cs => some ('\r', cs)
  | '"' :: cs => some ('"', cs)
  | '\\' :: cs => some ('\\', cs)
  | 'u' :: cs => codeChar 4 cs
  | 'U' :: cs => codeChar 8 cs
  | _ => none

/-- Reads a text up to its closing quote. -/
def basicText : Nat → Reader (List Char)
  | 0, _ => none
  | _ + 1, [] => none
  | _ + 1, '"' :: cs => some ([], cs)
  | fuel + 1, '\\' :: cs => do
    let (c, cs) ← escape cs
    let (text, cs) ← basicText fuel cs
    return (c :: text, cs)
  | fuel + 1, c :: cs =>
    if isPlain c then (basicText fuel cs).map fun r => (c :: r.1, r.2) else none

/-- Reads a literal text up to its closing quote. -/
def literalText : Reader (List Char)
  | [] => none
  | '\'' :: cs => some ([], cs)
  | c :: cs => if isPlain c then (literalText cs).map fun r => (c :: r.1, r.2) else none

/-- The number of times that a character comes first. -/
def leading (c : Char) (cs : List Char) : Nat := (cs.takeWhile (· == c)).length

/-- The quotes that end a text of several lines, with up to two that belong to it. -/
def closing (quote : Char) (cs : List Char) : Option (List Char × List Char) :=
  let count := leading quote cs
  if 3 ≤ count ∧ count ≤ 5 then some (List.replicate (count - 3) quote, cs.drop count) else none

/-- What follows a backslash at the end of a line: all blanks and ends of lines. -/
def continuation? (cs : List Char) : Option (List Char) :=
  let rest := skipSpaces cs
  if (lineEnd? rest).isSome then
    some (rest.dropWhile fun c => c == ' ' || c == '\t' || c == '\n' || c == '\r')
  else none

/-- Reads a text of several lines up to its closing quotes. -/
def longText (quote : Char) : Nat → Reader (List Char)
  | 0, _ => none
  | _ + 1, [] => none
  | fuel + 1, c :: cs =>
    if c = quote ∧ 3 ≤ leading quote (c :: cs) then closing quote (c :: cs)
    else if c = '\\' ∧ quote = '"' then
      match continuation? cs with
      | some cs => longText quote fuel cs
      | none => do
        let (c, cs) ← escape cs
        let (text, cs) ← longText quote fuel cs
        return (c :: text, cs)
    else
      match lineEnd? (c :: cs) with
      | some cs => (longText quote fuel cs).map fun r => ('\n' :: r.1, r.2)
      | none =>
        if isPlain c then (longText quote fuel cs).map fun r => (c :: r.1, r.2) else none

/-- What follows the end of a line right after opening quotes. -/
def skipFirstEnd (cs : List Char) : List Char := (lineEnd? cs).getD cs

/-- Reads a text in quotes of any kind. -/
def quoted : Reader (List Char)
  | '"' :: '"' :: '"' :: cs => longText '"' (cs.length + 1) (skipFirstEnd cs)
  | '"' :: cs => basicText (cs.length + 1) cs
  | '\'' :: '\'' :: '\'' :: cs => longText '\'' (cs.length + 1) (skipFirstEnd cs)
  | '\'' :: cs => literalText cs
  | _ => none

/-! Keys. -/

/-- Whether a character may stand in a bare key. -/
def isBare (c : Char) : Bool := c.isAlphanum || c == '_' || c == '-'

/-- Reads one name of a key. -/
def keyName : Reader String
  | '"' :: cs => (basicText (cs.length + 1) cs).map fun r => (String.ofList r.1, r.2)
  | '\'' :: cs => (literalText cs).map fun r => (String.ofList r.1, r.2)
  | cs =>
    let name := cs.takeWhile isBare
    if name.isEmpty then none else some (String.ofList name, cs.drop name.length)

/-- Reads names with dots between them. -/
def dotted : Nat → Reader (List String)
  | 0, _ => none
  | fuel + 1, cs => do
    let (name, rest) ← keyName cs
    match skipSpaces rest with
    | '.' :: rest =>
      let (names, rest) ← dotted fuel (skipSpaces rest)
      return (name :: names, rest)
    | rest => return ([name], rest)

/-- One more than how deeply values may be nested and how many names a key may have. -/
def maxDepth : Nat := 80

/-- Reads a key. -/
def key : Reader (List String) := fun cs => do
  let (names, rest) ← dotted (cs.length + 1) cs
  if names.length < maxDepth then return (names, rest) else none

/-! Numbers and times. -/

/-- Reads as many decimal digits as asked for. -/
def fixedDigits (count : Nat) : Reader Nat := fun cs =>
  let ds := cs.take count
  if ds.length = count ∧ ds.all Char.isDigit then some (valueInBase 10 ds, cs.drop count) else none

/-- Reads a number of two digits up to a bound. -/
def twoDigits (least most : Nat) : Reader Nat := fun cs => do
  let (n, rest) ← fixedDigits 2 cs
  if least ≤ n ∧ n ≤ most then return (n, rest) else none

/-- A number in at least two digits. -/
def padTwo (n : Nat) : String := if n < 10 then "0" ++ toString n else toString n

/-- The number of days of a month. -/
def daysIn (year month : Nat) : Nat :=
  if month = 2 then
    if year % 4 = 0 ∧ (year % 100 ≠ 0 ∨ year % 400 = 0) then 29 else 28
  else if month = 4 ∨ month = 6 ∨ month = 9 ∨ month = 11 then 30
  else 31

/-- Reads a date. -/
def date : Reader String := fun cs => do
  let (year, rest) ← fixedDigits 4 cs
  let (month, rest) ← twoDigits 1 12 (← after? ['-'] rest)
  let (day, rest) ← twoDigits 1 (daysIn year month) (← after? ['-'] rest)
  return (String.ofList (cs.take 4) ++ "-" ++ padTwo month ++ "-" ++ padTwo day, rest)

/-- The fraction of a second, up to nine digits, without trailing zeros. -/
def fractionText (ds : List Char) : String :=
  let kept := ((ds.take 9).reverse.dropWhile (· == '0')).reverse
  if kept.isEmpty then "" else "." ++ String.ofList kept

/-- Reads a time of day. -/
def time : Reader String := fun cs => do
  let (hour, rest) ← twoDigits 0 23 cs
  let (minute, rest) ← twoDigits 0 59 (← after? [':'] rest)
  let (second, rest) ← twoDigits 0 60 (← after? [':'] rest)
  let whole := padTwo hour ++ ":" ++ padTwo minute ++ ":" ++ padTwo second
  match rest with
  | '.' :: more =>
    let ds := more.takeWhile Char.isDigit
    if ds.isEmpty then return (whole, rest)
    else return (whole ++ fractionText ds, more.drop ds.length)
  | _ => return (whole, rest)

/-- Reads an offset from universal time, if there is one. -/
def offset (cs : List Char) : String × List Char :=
  match cs with
  | 'Z' :: rest | 'z' :: rest => ("Z", rest)
  | sign :: rest =>
    if sign = '+' ∨ sign = '-' then
      let found := do
        let (hours, rest) ← twoDigits 0 23 rest
        let (minutes, rest) ← twoDigits 0 59 (← after? [':'] rest)
        let shown := if hours = 0 ∧ minutes = 0 then "+" else String.singleton sign
        some (shown ++ padTwo hours ++ ":" ++ padTwo minutes, rest)
      found.getD ("", cs)
    else ("", cs)
  | [] => ("", cs)

/-- Reads a date, a time of day, or both. -/
def moment : Reader String := fun cs =>
  match date cs with
  | none => time cs
  | some (day, rest) =>
    let later := match rest with
      | 'T' :: more | 't' :: more | ' ' :: more => time more
      | _ => none
    match later with
    | none => some (day, rest)
    | some (hour, rest) =>
      let (zone, rest) := offset rest
      some (day ++ "T" ++ hour ++ zone, rest)

/-- Reads the digits of a whole number: a zero alone, or digits that do not start with one. -/
def wholeDigits : Reader (List Char)
  | '0' :: cs => some (['0'], cs)
  | cs => spacedDigits Char.isDigit cs

/-- Reads an exponent after its letter. -/
def exponent : Reader Int := fun cs => do
  let (negative, cs) := splitSign cs
  let (ds, cs) ← spacedDigits Char.isDigit cs
  let n : Int := valueInBase 10 ds
  return (if negative then -n else n, cs)

/-- Reads an exponent with its letter. -/
def exponentPart : Reader Int
  | c :: cs => if c = 'e' ∨ c = 'E' then exponent cs else none
  | [] => none

/-- Reads a real number; it has a point or an exponent, and does not exceed the doubles. -/
def real : Reader Setting := fun cs => do
  let (negative, cs) := splitSign cs
  let (whole, cs) ← wholeDigits cs
  let finish (fraction : List Char) (power : Int) (rest : List Char) :=
    let x := assembleReal negative whole fraction power
    if x = Double.infinity then none else some (Setting.real x, rest)
  match cs with
  | '.' :: rest =>
    let (fraction, rest) ← spacedDigits Char.isDigit rest
    match exponentPart rest with
    | some (power, rest) => finish fraction power rest
    | none => finish fraction 0 rest
  | _ =>
    let (power, rest) ← exponentPart cs
    finish [] power rest

/-- Reads infinity and what is no number. -/
def namedReal : Reader Setting := fun cs =>
  let (negative, cs) := splitSign cs
  match after? "inf".toList cs with
  | some rest => some (.real (Double.infinity.withSign negative), rest)
  | none => (after? "nan".toList cs).map fun rest =>
      (.real (Double.notANumber.withSign negative), rest)

/-- An integer of 64 bits. -/
def longOnly (i : Int) (rest : List Char) : Option (Setting × List Char) :=
  if -(Int.pow 2 63) ≤ i ∧ i < Int.pow 2 63 then some (.integer i, rest) else none

/-- Reads digits in a base after their mark. -/
def based (base : Nat) (isDigit : Char → Bool) (cs : List Char) : Option (Setting × List Char) := do
  let (ds, rest) ← spacedDigits isDigit cs
  longOnly (valueInBase base ds) rest

/-- Reads an integer. -/
def integer : Reader Setting
  | '0' :: 'x' :: cs => based 16 (fun c => (Bytes.hexValue? c).isSome) cs
  | '0' :: 'o' :: cs => based 8 (fun c => decide ('0' ≤ c ∧ c ≤ '7')) cs
  | '0' :: 'b' :: cs => based 2 (fun c => c == '0' || c == '1') cs
  | cs => do
    let (negative, cs) := splitSign cs
    let (ds, rest) ← wholeDigits cs
    let n : Int := valueInBase 10 ds
    longOnly (if negative then -n else n) rest

/-- Reads a value that is neither a text nor made of others. -/
def simple : Reader Setting := fun cs =>
  match after? "true".toList cs, after? "false".toList cs with
  | some rest, _ => some (.bool true, rest)
  | _, some rest => some (.bool false, rest)
  | none, none =>
    match moment cs with
    | some (text, rest) => some (.text text, rest)
    | none =>
      match real cs with
      | some r => some r
      | none =>
        match namedReal cs with
        | some r => some r
        | none => integer cs

/-! Values and documents. -/

/-- What follows blanks, comments and ends of lines. -/
def skipLines : Nat → List Char → List Char
  | 0, cs => cs
  | fuel + 1, cs =>
    let rest := skipComment (skipSpaces cs)
    match lineEnd? rest with
    | some rest => skipLines fuel rest
    | none => rest

mutual

/-- Reads a value, in which brackets and braces may be nested to some depth. -/
def value : Nat → Nat → Reader Setting
  | 0, _, _ => none
  | fuel + 1, depth, cs =>
    match cs with
    | '[' :: rest =>
      if depth = 0 then none
      else (items fuel (depth - 1) rest).map fun r => (.list r.1, r.2)
    | '\x7b' :: rest => do
      if depth = 0 then none
      match skipSpaces rest with
      | '\x7d' :: rest => return (.table [], rest)
      | rest =>
        let (entries, rest) ← pairs fuel (depth - 1) [] rest
        return (.table (entriesToSettings entries), rest)
    | '"' :: _ | '\'' :: _ => (quoted cs).map fun r => (.text (String.ofList r.1), r.2)
    | _ => simple cs

/-- Reads the items of a list up to its closing bracket. -/
def items : Nat → Nat → Reader (List Setting)
  | 0, _, _ => none
  | fuel + 1, depth, cs =>
    match skipLines (cs.length + 1) cs with
    | ']' :: rest => some ([], rest)
    | start => do
      let (item, rest) ← value fuel depth start
      match skipLines (rest.length + 1) rest with
      | ',' :: rest =>
        let (others, rest) ← items fuel depth rest
        return (item :: others, rest)
      | ']' :: rest => return ([item], rest)
      | _ => none

/-- Reads the entries of a table in braces up to its closing brace. -/
def pairs : Nat → Nat → List (String × Node) → Reader (List (String × Node))
  | 0, _, _, _ => none
  | fuel + 1, depth, found, cs => do
    let cs := skipSpaces cs
    let (names, rest) ← key cs
    let rest ← after? ['='] rest
    let (s, rest) ← value fuel depth (skipSpaces rest)
    let found ← giveKey names s false found
    match skipSpaces rest with
    | ',' :: rest => pairs fuel depth found rest
    | '\x7d' :: rest => return (found, rest)
    | _ => none

end

/-- What follows a line whose content has been read, if nothing is left on it. -/
def finishLine (cs : List Char) : Option (List Char) :=
  match skipComment (skipSpaces cs) with
  | [] => some []
  | rest => lineEnd? rest

/-- Reads a heading up to its closing brackets. -/
def heading (close : List Char) (cs : List Char) : Option (List String × List Char) := do
  let (names, rest) ← key (skipSpaces cs)
  return (names, ← after? close (skipSpaces rest))

/-- Opens what a heading names. -/
def openAt (names : List String) (opening : String → Change)
    (root : List (String × Node)) : Option (List (String × Node)) := do
  changeAt false (opening (← names.getLast?)) names.dropLast false root

/-- Reads the lines of a document under a heading. -/
def lines : Nat → List String → List (String × Node) → List Char → Option (List (String × Node))
  | 0, _, _, _ => none
  | fuel + 1, current, root, cs =>
    match skipLines (cs.length + 1) cs with
    | [] => some root
    | '[' :: '[' :: rest => do
      let (names, rest) ← heading [']', ']'] rest
      let root ← openAt names openItem root
      lines fuel names root (← finishLine rest)
    | '[' :: rest => do
      let (names, rest) ← heading [']'] rest
      let root ← openAt names openTable root
      lines fuel names root (← finishLine rest)
    | start => do
      let (names, rest) ← key start
      let rest ← after? ['='] rest
      let (s, rest) ← value (2 * rest.length + 2) (maxDepth - 1) (skipSpaces rest)
      let root ← changeAt false (giveKey names s) current false root
      lines fuel current root (← finishLine rest)

/-- **The entries of a document.** -/
def read? (text : String) : Option (List (String × Setting)) :=
  let cs := match text.toList with
    | '\ufeff' :: rest => rest
    | cs => cs
  (lines (cs.length + 1) [] [] cs).map entriesToSettings

end FlowHost.Toml
