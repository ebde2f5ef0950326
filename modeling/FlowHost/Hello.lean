import FlowHost.Json.Record
import FlowHost.Json.Writer
import FlowHost.Message
import FlowHost.Topic

/-!
# The hello message

What the agent announces on every connect and after every new bundle: who it is,
what it runs and how the bundles it takes should be compiled.

* `Hello.toJson`: its fields; an option that is not given does not appear.
* `Hello.toMessage`: the message that is published.
-/

namespace FlowHost

/-- The service that the agent announces. -/
def helloService : String := "embeddedWorkflowAgent"

/-- How bundles for this agent should be compiled. -/
structure CompilerOptions where
  traceLevel : Int32
  exportMemory : Option Bool
  disableDebugMessage : Option Bool
  debugSymbols : Option Bool
  stackSize : Option UInt32
  gzip : Option Bool
  deriving DecidableEq

namespace CompilerOptions

/-- Nothing but the trace level. -/
def standard : CompilerOptions := ⟨1, none, none, none, none, none⟩

/-- The options that are given, under their names. -/
def toJson (o : CompilerOptions) : Json :=
  .ofMembers (("traceLevel", Json.ofInt o.traceLevel.toInt) ::
    (Json.present "exportMemory" .bool o.exportMemory ++
      Json.present "disableDebugMessage" .bool o.disableDebugMessage ++
      Json.present "debugSymbols" .bool o.debugSymbols ++
      Json.present "stackSize" (fun n => .ofInt n.toNat) o.stackSize ++
      Json.present "gzip" .bool o.gzip))

/-- The names of the options. -/
def fields : List String :=
  ["traceLevel", "exportMemory", "disableDebugMessage", "debugSymbols", "stackSize", "gzip"]

/-- Reads the options. -/
def ofJson? (j : Json) : Option CompilerOptions := do
  match ← j.slots? fields with
  | [level, exported, quiet, symbols, stack, gzip] =>
    let level ← Json.required (Json.int? (-(Int.pow 2 31)) (Int.pow 2 31 - 1)) level
    let stack ← Json.optional (Json.int? 0 (Int.pow 2 32 - 1)) stack
    return ⟨Int32.ofInt level, ← Json.optional Json.bool? exported,
      ← Json.optional Json.bool? quiet, ← Json.optional Json.bool? symbols,
      stack.map UInt32.ofInt, ← Json.optional Json.bool? gzip⟩
  | _ => none

end CompilerOptions

/-- The announcement of an agent. -/
structure Hello where
  service : String
  version : String
  bundle : String
  compilerOptions : CompilerOptions
  deriving DecidableEq

namespace Hello

/-- The announcement of this service. -/
def make (version bundle : String) (options : CompilerOptions) : Hello :=
  ⟨helloService, version, bundle, options⟩

/-- The fields of an announcement. -/
def toJson (h : Hello) : Json :=
  .ofMembers [("service", .ofText h.service), ("version", .ofText h.version),
    ("bundle", .ofText h.bundle), ("compilerOptions", h.compilerOptions.toJson)]

/-- Reads an announcement. -/
def ofJson? (j : Json) : Option Hello := do
  match ← j.slots? ["service", "version", "bundle", "compilerOptions"] with
  | [service, version, bundle, options] =>
    return ⟨← Json.required Json.text? service, ← Json.required Json.text? version,
      ← Json.required Json.text? bundle, ← Json.required CompilerOptions.ofJson? options⟩
  | _ => none

/-- **The message that announces the agent**, at the lowest quality of service. -/
def toMessage (h : Hello) (layout : TopicLayout) : Message :=
  ⟨layout.hello, h.toJson.compact, .atMostOnce⟩

end Hello

end FlowHost
