import FlowHost.Lifecycle
import FlowHost.Text.Quoted
import FlowHost.Text.Utf8

/-!
# Failures

Every way in which the host refuses or fails, as a cause; the sentence for each
cause; and the causes that reject a candidate bundle.

* `Error.message`: the sentence of a failure.
* `Error.rejectsCandidate`: whether a failure counts as the rejection of a bundle.
-/

namespace FlowHost

/-- Why a bundle is refused before anything of it is compiled. -/
inductive ValidationFault where
  | unsupportedVersion (found : Option String)
  | missingBundle
  | malformed (detail : String)
  deriving DecidableEq, Repr

/-- Why an instance cannot do what is asked of it. -/
inductive StateFault where
  | refused (operation : Operation) (state : Lifecycle)
  | alreadyNegotiated
  | noWorkflow
  | other (detail : String)
  deriving DecidableEq, Repr

/-- Why a native function is refused or fails. -/
inductive RegistrationFault where
  | coreName (name : String)
  | duplicate (name : String)
  | wrongCount (name : String) (returned expected : Nat)
  | other (detail : String)
  deriving DecidableEq, Repr

/-- Why a transport does not take a request. -/
inductive TransportFault where
  | disconnected
  | other (detail : String)
  deriving DecidableEq, Repr

/-- Why a configuration is refused. -/
inductive ConfigFault where
  | deviceIdRequired
  | loopIntervalZero
  | pagesExceed (pages max : Nat)
  | noExtension
  | unsupportedFormat (extension : String)
  | unreadable
  /-- The document or a value in it cannot be read. -/
  | document (detail : String)
  /-- The document has a key that can name no setting, and reading it ends in a crash. -/
  | unusableKey
  deriving DecidableEq, Repr

/-- A failure of the host. -/
inductive Error where
  | validation (fault : ValidationFault)
  | compilation (detail : String)
  | instantiation (detail : String)
  | exportNotFound (detail : String)
  | memoryOutOfBounds (offset size : Nat)
  | bufferTooSmall (capacity required : Nat)
  | buffersNotNegotiated
  | invalidUtf8 (fault : Utf8.Fault)
  | guestCallFailure (function : String) (code : Int32)
  | execution (detail : String)
  | invalidState (fault : StateFault)
  | registration (fault : RegistrationFault)
  | transport (fault : TransportFault)
  | persistence (detail : String)
  | config (fault : ConfigFault)
  | agentStopped
  | io (detail : String)
  deriving DecidableEq

namespace ValidationFault

/-- The sentence of a refused bundle. -/
def message : ValidationFault → String
  | unsupportedVersion none => "Interface version of None is not supported"
  | unsupportedVersion (some v) =>
    "Interface version of Some(" ++ Quoted.quote v ++ ") is not supported"
  | missingBundle => "WASM bundle identifier is missing"
  | malformed detail => "Malformed WASM artifact: " ++ detail

end ValidationFault

/-- The sentence of a refusal by state. -/
def StateFault.message : StateFault → String
  | refused operation state => "cannot " ++ operation.phrase ++ " while " ++ state.name
  | alreadyNegotiated => "message buffers already negotiated"
  | noWorkflow => "no workflow loaded"
  | other detail => detail

/-- The sentence of a native function's refusal or failure. -/
def RegistrationFault.message : RegistrationFault → String
  | coreName name => name ++ " collides with a core host import"
  | duplicate name => name ++ " is already registered"
  | wrongCount name returned expected =>
    name ++ " returned " ++ toString returned ++ " values, expected " ++ toString expected
  | other detail => detail

/-- The sentence of a transport failure. -/
def TransportFault.message : TransportFault → String
  | disconnected => "disconnected"
  | other detail => detail

/-- The sentence of a refused configuration. -/
def ConfigFault.message : ConfigFault → String
  | deviceIdRequired => "device_id is required"
  | loopIntervalZero => "loop_interval_ms must be positive"
  | pagesExceed pages max =>
    "memory_pages (" ++ toString pages ++ ") exceeds max_memory_pages (" ++ toString max ++ ")"
  | noExtension => "No file extension found"
  | unsupportedFormat extension => "Unsupported format: " ++ extension
  | unreadable => "Could not read"
  | document detail => detail
  | unusableKey => "a key names no setting"

namespace Error

/-- **The sentence of a failure.** -/
def message : Error → String
  | validation fault => "Artifact validation failed: " ++ fault.message
  | compilation detail => "Failed to compile WASM module: " ++ detail
  | instantiation detail => "Failed to instantiate WASM module: " ++ detail
  | exportNotFound detail => "Export not found: " ++ detail
  | memoryOutOfBounds offset size =>
    "Memory access out of bounds: offset=" ++ toString offset ++ ", size=" ++ toString size
  | bufferTooSmall capacity required =>
    "Buffer too small: capacity " ++ toString capacity ++ ", required " ++ toString required
  | buffersNotNegotiated => "Message buffers have not been negotiated by the guest"
  | invalidUtf8 fault => "Invalid UTF-8 in guest memory: " ++ fault.message
  | guestCallFailure function code =>
    "Guest export " ++ function ++ " returned error code " ++ toString code.toInt
  | execution detail => "Execution error: " ++ detail
  | invalidState fault => "Invalid instance state: " ++ fault.message
  | registration fault => "Registered function error: " ++ fault.message
  | transport fault => "Transport error: " ++ fault.message
  | persistence detail => "Persistence error: " ++ detail
  | config fault => "Configuration error: " ++ fault.message
  | agentStopped => "Agent is not running"
  | io detail => "IO error: " ++ detail

/-- **Whether a failure rejects a candidate bundle**: it is refused, does not compile, does
not link, or lacks an export. -/
def rejectsCandidate : Error → Bool
  | validation _ | compilation _ | instantiation _ | exportNotFound _ => true
  | _ => false

end Error

/-- Turns the result code of a guest's export into an outcome: zero is success. -/
def checkCode (function : String) (code : Int32) : Except Error Unit :=
  if code = 0 then .ok () else .error (.guestCallFailure function code)

/-- Forgives a result code; every other failure stays. -/
def tolerateCode : Except Error Unit → Except Error Unit
  | .error (.guestCallFailure _ _) => .ok ()
  | result => result

end FlowHost
