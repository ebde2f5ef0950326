import FlowHost.Setting
import FlowHost.Setting.Yaml.Node

/-!
# Indented documents

The reader of YAML documents.

* `Yaml.read`: the entries of a document.
-/

namespace FlowHost.Yaml

/-- Why a document has no settings. -/
inductive Fault where
  | malformed
  /-- A key is neither a text nor an integer. -/
  | unusableKey
  deriving DecidableEq, Repr

/-- The name that a key gives. -/
def nameOf : Node → Except Fault String
  | .text t => .ok t
  | .integer i => .ok (toString i)
  | _ => .error .unusableKey

mutual

/-- **The setting that a node stands for.** A real number has to be spelled in digits. -/
def settingOf : Node → Except Fault Setting
  | .unresolved | .null => .ok .null
  | .bool b => .ok (.bool b)
  | .integer i => .ok (.integer i)
  | .real spelling =>
    match readReal? spelling.toList with
    | some x => .ok (.real x)
    | none => .error .malformed
  | .text t => .ok (.text t)
  | .list items => (settingsOf items).map .list
  | .table entries => (entriesOf entries).map fun es => .table (Setting.latest es)

/-- The settings that nodes stand for. -/
def settingsOf : List Node → Except Fault (List Setting)
  | [] => .ok []
  | n :: rest => do return (← settingOf n) :: (← settingsOf rest)

/-- The entries that keys and values stand for. -/
def entriesOf : List (Node × Node) → Except Fault (List (String × Setting))
  | [] => .ok []
  | e :: rest => do
    let name ← nameOf e.1
    return (name, ← settingOf e.2) :: (← entriesOf rest)

end

/-- **The entries of a document.** A text without a document has none. -/
def read (text : String) : Except Fault (List (String × Setting)) :=
  match (Token.scan? text).bind Node.documents? with
  | some [] => .ok []
  | some [.table entries] => entriesOf entries
  | some [n] => do
    let _ ← settingOf n
    .error .malformed
  | _ => .error .malformed

end FlowHost.Yaml
