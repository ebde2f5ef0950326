import FlowHost.Setting

/-!
# The environment

Variables as settings, and references to variables in documents.

* `Environment.settings`: the variables with the prefix, their values read as truth values
  and numbers where they look like them.
* `Environment.expand`: references replaced by values, in one pass from left to right.
-/

namespace FlowHost

/-- Variables with their values. -/
abbrev Environment := List (String × String)

namespace Environment

/-- How the names of variables for settings begin. -/
def settingMark : String := "eea_"

/-- The setting that takes a list of texts. -/
def listSetting : String := "extra_topics"

/-- The pieces of a text between commas. -/
def commaPieces : List Char → List (List Char)
  | [] => [[]]
  | c :: rest =>
    if c = ',' then [] :: commaPieces rest
    else
      match commaPieces rest with
      | [] => [[c]]
      | piece :: more => (c :: piece) :: more

/-- **The value of a variable as a setting.** -/
def valueOf (name value : String) : Setting :=
  let word := lower value
  if word = "true" then .bool true
  else if word = "false" then .bool false
  else
    match readLong? value.toList with
    | some i => .integer i
    | none =>
      match readReal? value.toList with
      | some x => .real x
      | none =>
        if name = listSetting then
          .list ((commaPieces value.toList).map fun p => .text (String.ofList p))
        else .text value

/-- The setting that a variable names, if it names one. -/
def settingName? (name : String) : Option String :=
  let cs := (lower name).toList
  if settingMark.toList.isPrefixOf cs then
    some (String.ofList (cs.drop settingMark.length))
  else none

/-- **The settings in an environment.** -/
def settings (env : Environment) : List (String × Setting) :=
  env.filterMap fun v => (settingName? v.1).map fun name => (name, valueOf name v.2)

/-- Whether a character may begin the name of a variable. -/
def isNameStart (c : Char) : Bool := c.isAlpha || c == '_'

/-- Whether a character may stand in the name of a variable. -/
def isNamePart (c : Char) : Bool := c.isAlphanum || c == '_'

/-- **A reference at the start of characters**: its name, and the rest. -/
def reference? : List Char → Option (List Char × List Char)
  | '$' :: '\x7b' :: c :: rest =>
    if isNameStart c then
      match rest.dropWhile isNamePart with
      | '\x7d' :: after => some (c :: rest.takeWhile isNamePart, after)
      | _ => none
    else none
  | _ => none

theorem length_of_reference? {cs name rest : List Char} (h : reference? cs = some (name, rest)) :
    rest.length < cs.length := by
  unfold reference? at h
  split at h
  · next c more =>
    split at h
    · have hlen := (List.dropWhile_suffix isNamePart (l := more)).length_le
      split at h
      · next after hd =>
        rw [hd, List.length_cons] at hlen
        cases h
        simp only [List.length_cons]
        omega
      · contradiction
    · contradiction
  · contradiction

/-- What stands for a reference: its variable's value, or the reference itself. -/
def resolve (env : Environment) (name : List Char) : List Char :=
  match env.lookup (String.ofList name) with
  | some value => value.toList
  | none => '$' :: '\x7b' :: name ++ ['\x7d']

/-- Characters with the references in them replaced. What was put in is not looked at again. -/
def expandChars (env : Environment) : List Char → List Char
  | [] => []
  | c :: rest =>
    match h : reference? (c :: rest) with
    | some (name, after) =>
      have := length_of_reference? h
      resolve env name ++ expandChars env after
    | none => c :: expandChars env rest
termination_by cs => cs.length
decreasing_by
  · exact this
  · exact Nat.lt_succ_self rest.length

/-- **A text with the references in it replaced.** -/
def expand (env : Environment) (text : String) : String :=
  String.ofList (expandChars env text.toList)

end Environment

end FlowHost
