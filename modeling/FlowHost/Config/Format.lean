import FlowHost.Error
import FlowHost.Json.Reader
import FlowHost.Setting.Ini
import FlowHost.Setting.Json5
import FlowHost.Setting.Ron
import FlowHost.Setting.Toml
import FlowHost.Setting.Yaml
import FlowHost.Storage.Disk

/-!
# Formats of configuration documents

* `Format.ofPath`: the format that the name of a file asks for.
* `Format.entries`: the settings in a document.
-/

namespace FlowHost

/-- The format of a configuration document. -/
inductive Format where
  | yaml | toml | json | ini | ron | json5
  deriving DecidableEq, Repr

namespace Format

/-- Every format. -/
def all : List Format := [yaml, toml, json, ini, ron, json5]

/-- The name of a format. -/
def name : Format → String
  | yaml => "Yaml"
  | toml => "Toml"
  | json => "Json"
  | ini => "Ini"
  | ron => "Ron"
  | json5 => "Json5"

/-- The suffixes of the files of a format. -/
def suffixes : Format → List String
  | yaml => ["yaml", "yml"]
  | toml => ["toml"]
  | json => ["json"]
  | ini => ["ini"]
  | ron => ["ron"]
  | json5 => ["json5"]

/-- The format of a suffix, in letters of either case. -/
def ofSuffix? (suffix : String) : Option Format :=
  all.find? fun f => f.suffixes.contains (lower suffix)

/-- **The format that the name of a file asks for.** -/
def ofPath (p : Path) : Except ConfigFault Format :=
  match p.fileName?.bind Path.suffix? with
  | none => .error .noExtension
  | some suffix =>
    match ofSuffix? suffix with
    | some f => .ok f
    | none => .error (.unsupportedFormat suffix)

/-- Entries that a document has, or the fault of a document that has none. -/
def orFault (entries : Option (List (String × Setting))) :
    Except ConfigFault (List (String × Setting)) :=
  match entries with
  | some entries => .ok entries
  | none => .error (.document "")

/-- The entries of a document whose root has to be a table. -/
def ofRoot (root : Option Setting) : Except ConfigFault (List (String × Setting)) :=
  match root with
  | some (.table entries) => .ok entries
  | _ => .error (.document "")

/-- The setting that a JSON document is. -/
def readJson? (text : String) : Option Setting := do
  let j ← Json.read? text
  if j.isSound 128 then Setting.ofJson? j else none

/-- **The settings in a document.** -/
def entries (f : Format) (text : String) : Except ConfigFault (List (String × Setting)) :=
  match f with
  | yaml =>
    match Yaml.read text with
    | .ok entries => .ok entries
    | .error .malformed => .error (.document "")
    | .error .unusableKey => .error .unusableKey
  | toml => orFault (Toml.read? text)
  | json => ofRoot (readJson? text)
  | ini => orFault (Ini.read? text)
  | ron => ofRoot (Ron.read? text)
  | json5 => ofRoot (Json5.read? text)

end Format

end FlowHost
