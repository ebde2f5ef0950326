import FlowHost.Config
import FlowHost.Config.Format
import FlowHost.Setting.Environment

/-!
# Where a configuration comes from

Standard values, a document over them, and the environment over both.

* `AgentConfig.ofTextIn`, `AgentConfig.ofText`: the configuration in a document.
* `AgentConfig.loadIn`, `AgentConfig.load`: the configuration of a file and the environment.
-/

namespace FlowHost.AgentConfig

/-- A file with a configuration: its path, and what it holds unless it cannot be read. -/
structure Source where
  path : Path
  content : Option Bytes

/-- The valid configuration of settings. -/
def ofValid (root : Setting) : Except ConfigFault AgentConfig := do
  match ofSetting? root with
  | none => .error (.document "")
  | some c =>
    c.validate
    return c

/-- The settings in a document with references to variables, put in some order. -/
def settings (order : Setting.Order) (env : Environment) (f : Format) (text : String) :
    Except ConfigFault Setting :=
  (f.entries (env.expand text)).map fun es =>
    Setting.overlay (.table []) (order.arrange (Setting.latest es))

/-- **The configuration in a document**, its settings put in some order. The environment only
replaces references. -/
def ofTextIn (order : Setting.Order) (env : Environment) (f : Format) (text : String) :
    Except ConfigFault AgentConfig := do
  ofValid (← settings order env f text)

/-- The configuration in a document, its settings put as they are written. -/
def ofText (env : Environment) (f : Format) (text : String) : Except ConfigFault AgentConfig :=
  ofTextIn .written env f text

/-- The settings in a file. Its name has to tell the format, whether it can be read or not. -/
def Source.settings (order : Setting.Order) (env : Environment) (s : Source) :
    Except ConfigFault Setting := do
  let f ← Format.ofPath s.path
  match s.content.map Utf8.decode with
  | some (.ok text) => AgentConfig.settings order env f text
  | _ => .error .unreadable

/-- **The configuration of a file, if there is one, and the environment over it.** The settings
of each are put in an order of their own. -/
def loadIn (order order' : Setting.Order) (env : Environment) (source : Option Source) :
    Except ConfigFault AgentConfig := do
  let root ← match source with
    | some s => s.settings order env
    | none => .ok (.table [])
  ofValid (root.overlay (order'.arrange (Setting.latest env.settings)))

/-- The configuration of a file and the environment, the settings put as they are written. -/
def load (env : Environment) (source : Option Source) : Except ConfigFault AgentConfig :=
  loadIn .written .written env source

end FlowHost.AgentConfig
