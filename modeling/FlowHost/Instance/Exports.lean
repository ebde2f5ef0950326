import FlowHost.Guest.Module

/-!
# Exports of a guest

The functions that the host calls on a guest: setters, which a guest may leave out, and
entry points, which it must have.

* `Exports.resolve`: all of them, or the first that is missing or has another signature.
-/

namespace FlowHost

/-- What a guest is told before it starts. -/
structure GuestSettings where
  debugEnabled : Bool
  topicBufferLength : UInt32
  payloadBufferLength : UInt32
  queueSize : UInt32
  storageIntervalMs : UInt32
  storageSize : UInt32
  traceLevel : Int32
  deriving DecidableEq, Repr

/-- What guests are told unless something else is set. -/
def GuestSettings.standard : GuestSettings :=
  ⟨true, 256, 4096, 1024000, 60000, 1024000, 1⟩

/-- The setters, which a guest may export. -/
inductive Setter where
  | debugEnabled | bufferLengths | queueSize | storageInterval | storageSize | traceLevel
  deriving DecidableEq, Repr

namespace Setter

/-- Every setter, in the order in which they are called. -/
def all : List Setter :=
  [debugEnabled, bufferLengths, queueSize, storageInterval, storageSize, traceLevel]

/-- The name of a setter's export. -/
def name : Setter → String
  | debugEnabled => "eea_config_set_debug_enabled"
  | bufferLengths => "eea_config_set_message_buffer_lengths"
  | queueSize => "eea_config_set_queue_size"
  | storageInterval => "eea_config_set_storage_interval"
  | storageSize => "eea_config_set_storage_size"
  | traceLevel => "eea_config_set_trace_level"

/-- The signature of a setter. -/
def signature : Setter → Signature
  | bufferLengths => ⟨[.i32, .i32], [.i32]⟩
  | _ => ⟨[.i32], [.i32]⟩

/-- What a setter is called with. -/
def arguments (s : GuestSettings) : Setter → List Value
  | debugEnabled => [.i32 (if s.debugEnabled then 1 else 0)]
  | bufferLengths => [.i32 s.topicBufferLength, .i32 s.payloadBufferLength]
  | queueSize => [.i32 s.queueSize]
  | storageInterval => [.i32 s.storageIntervalMs]
  | storageSize => [.i32 s.storageSize]
  | traceLevel => [.ofInt32 s.traceLevel]

end Setter

/-- The entry points, which a guest must export. -/
inductive EntryPoint where
  | init | loop | messageReceived | directTrigger | setConnectionStatus | shutdown
  deriving DecidableEq, Repr

namespace EntryPoint

/-- Every entry point, in the order in which they are looked up. -/
def all : List EntryPoint :=
  [init, loop, messageReceived, directTrigger, setConnectionStatus, shutdown]

/-- The name of an entry point's export. -/
def name : EntryPoint → String
  | init => "eea_init"
  | loop => "eea_loop"
  | messageReceived => "eea_message_received"
  | directTrigger => "eea_direct_trigger"
  | setConnectionStatus => "eea_set_connection_status"
  | shutdown => "eea_shutdown"

/-- The signature of an entry point. -/
def signature : EntryPoint → Signature
  | init | shutdown => ⟨[], [.i32]⟩
  | loop => ⟨[.i64], [.i32]⟩
  | messageReceived | directTrigger => ⟨[.i32, .i32], [.i32]⟩
  | setConnectionStatus => ⟨[.i32], [.i32]⟩

end EntryPoint

/-- The functions of a guest that the host calls. -/
structure Exports where
  /-- The setters that are there, in the order in which they are called. -/
  setters : List (Setter × Body)
  entry : EntryPoint → Body

namespace Exports

/-- A function that must be there with a signature. -/
def required (m : Module) (name : String) (signature : Signature) : Except Error Body :=
  match m.function? name with
  | none => .error (.exportNotFound name)
  | some (found, body) =>
    if found = signature then .ok body else .error (.exportNotFound (name ++ ": signature"))

/-- A function that may be missing, but has its signature if it is there. -/
def optional (m : Module) (name : String) (signature : Signature) :
    Except Error (Option Body) :=
  match m.function? name with
  | none => .ok none
  | some _ => (required m name signature).map some

/-- The setters that are there. -/
def resolveSetters (m : Module) : List Setter → Except Error (List (Setter × Body))
  | [] => .ok []
  | s :: rest => do
    let found ← optional m s.name s.signature
    let others ← resolveSetters m rest
    return (found.toList.map fun body => (s, body)) ++ others

/-- An entry point. -/
def resolveEntry (m : Module) (e : EntryPoint) : Except Error Body :=
  required m e.name e.signature

/-- **All functions of a guest**, or the first fault: setters before entry points. -/
def resolve (m : Module) : Except Error Exports := do
  let setters ← resolveSetters m Setter.all
  let init ← resolveEntry m .init
  let loop ← resolveEntry m .loop
  let messageReceived ← resolveEntry m .messageReceived
  let directTrigger ← resolveEntry m .directTrigger
  let setConnectionStatus ← resolveEntry m .setConnectionStatus
  let shutdown ← resolveEntry m .shutdown
  return {
    setters := setters
    entry := fun
      | .init => init
      | .loop => loop
      | .messageReceived => messageReceived
      | .directTrigger => directTrigger
      | .setConnectionStatus => setConnectionStatus
      | .shutdown => shutdown }

end Exports

end FlowHost
