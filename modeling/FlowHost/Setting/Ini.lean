import FlowHost.Setting
import FlowHost.Text.Blank
import FlowHost.Text.Scan

/-!
# Documents of lines

The reader of INI documents: keys with values, line by line, in sections. All values are
texts.

* `Ini.read?`: the entries of a document; sections become tables.
-/

namespace FlowHost.Ini

open Scan

/-- Reads four characters of a code point; a backslash among them has to end a line. -/
def codeDigits : Nat → Reader (List Char)
  | 0, cs => some ([], cs)
  | count + 1, '\\' :: '\n' :: cs => (codeDigits count cs).map fun r => ('\\' :: r.1, r.2)
  | _ + 1, '\\' :: _ => none
  | count + 1, c :: cs => (codeDigits count cs).map fun r => (c :: r.1, r.2)
  | _ + 1, [] => none

/-- Reads an escape after its backslash; it may stand for nothing. -/
def escape : Reader (List Char)
  | '0' :: cs => some (['\x00'], cs)
  | 'a' :: cs => some (['\x07'], cs)
  | 'b' :: cs => some (['\x08'], cs)
  | 't' :: cs => some (['\t'], cs)
  | 'r' :: cs => some (['\r'], cs)
  | 'n' :: cs => some (['\n'], cs)
  | '\n' :: cs => some ([], cs)
  | 'x' :: cs => do
    let (ds, rest) ← codeDigits 4 cs
    let ds := match ds with
      | '+' :: more => more
      | ds => ds
    let (c, _) ← codeChar ds.length ds
    return ([c], rest)
  | c :: cs => some ([c], cs)
  | [] => none

/-- **Reads up to one of some characters**, which stays. The end counts only if it is allowed. -/
def upTo (ends : List Char) (allowEnd : Bool) : Nat → Reader (List Char)
  | 0, _ => none
  | _ + 1, [] => if allowEnd then some ([], []) else none
  | fuel + 1, c :: cs =>
    if ends.contains c then some ([], c :: cs)
    else if c = '\\' then do
      let (found, cs) ← escape cs
      let (text, cs) ← upTo ends allowEnd fuel cs
      return (found ++ text, cs)
    else (upTo ends allowEnd fuel cs).map fun r => (c :: r.1, r.2)

/-- Reads a value from its line. Quoted pieces keep their blanks. -/
def value : Nat → Bool → Reader (List Char)
  | 0, _, _ => none
  | _ + 1, _, [] => some ([], [])
  | fuel + 1, isFirst, c :: cs =>
    if c = '"' ∨ c = '\'' then do
      let (piece, rest) ← upTo [c] false (cs.length + 1) cs
      let (text, rest) ← value fuel false (rest.drop 1)
      return (piece ++ text, rest)
    else do
      let (line, rest) ← upTo ['\n', '\r'] true (cs.length + 2) (c :: cs)
      return (if isFirst then trimBlank line else trimBlankEnd line, rest)

/-- A document while it is read: the entries outside sections, the sections with their own
entries, latest first, and the key that waits for its value. -/
structure State where
  outer : List (String × Setting)
  sections : List (String × List (String × Setting))
  key : List Char

/-- Gives the waiting key its value. -/
def State.give (s : State) (text : List Char) : State :=
  let entry := (String.ofList s.key, Setting.text (String.ofList text))
  match s.sections with
  | [] => { s with outer := s.outer ++ [entry], key := [] }
  | (name, entries) :: rest => { s with sections := (name, entries ++ [entry]) :: rest, key := [] }

/-- The character of a place at which a line has just begun: the start, or after its end. -/
def beginsLine (before : Option Char) : Bool :=
  match before with
  | none => true
  | some c => c == '\n'

/-- Reads a document, given the character before. -/
def document : Nat → Option Char → State → List Char → Option State
  | 0, _, _, _ => none
  | _ + 1, _, s, [] => some s
  | fuel + 1, before, s, c :: cs =>
    if isBlank c then document fuel (some c) s cs
    else if c = ';' ∨ c = '#' then
      if beginsLine before then
        let rest := cs.dropWhile (· ≠ '\n')
        document fuel (some '\n') s (rest.drop 1)
      else none
    else if c = '[' then do
      let (name, rest) ← upTo [']'] false (cs.length + 1) cs
      let name := String.ofList (trimBlank name)
      document fuel (some ']') { s with sections := (name, []) :: s.sections } (rest.drop 1)
    else if c = '=' ∨ c = ':' then
      if s.key.isEmpty then none
      else do
        let start := cs.dropWhile fun c => isBlank c && c != '\n' && c != '\r'
        let (text, rest) ← value (start.length + 1) true start
        document fuel (some c) (s.give text) rest
    else do
      let (name, rest) ← upTo ['=', ':'] false (cs.length + 2) (c :: cs)
      document fuel (some c) { s with key := trimBlank name } rest

/-- **The entries of a document.** -/
def read? (text : String) : Option (List (String × Setting)) :=
  let cs := text.toList
  (document (cs.length + 1) none ⟨[], [], []⟩ cs).map fun s =>
    s.outer ++ s.sections.reverse.map fun e => (e.1, .table (Setting.latest e.2))

end FlowHost.Ini
