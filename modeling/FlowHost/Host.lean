import FlowHost.Guest.Limits
import FlowHost.Memory.Buffers
import FlowHost.Message
import FlowHost.Native
import FlowHost.Storage
import FlowHost.Trace

/-!
# The host

What all instances share: what persists, the queue to the transport, the traces and
what native functions put out. Beside that the host keeps a history of what it did on
behalf of whom.

* `Host.queue`: a request put into the queue.
* `CoreCall.attempt`: the work of a core import.
* `CoreCall.code`: the result code of a core import. Core imports never trap.
-/

namespace FlowHost

/-- Something that the host did. -/
inductive Occurrence where
  /-- An export of an instance was entered, with the memory as it was then. -/
  | entered (instanceId : Nat) (function : String) (arguments : List Value) (memory : Memory)
  /-- An export of an instance returned a word, or trapped. -/
  | left (instanceId : Nat) (function : String) (result : Option UInt32)
  /-- A blob was saved for an instance. -/
  | saved (instanceId : Nat) (content : Bytes)
  /-- A request was queued, for an instance or for the agent itself. -/
  | queued (sender : Option Nat) (request : Outbound)
  /-- A bundle was saved. -/
  | persisted (content : Bytes)

/-- What all instances share. -/
structure Host where
  storage : Storage
  /-- Every request queued so far, oldest first. -/
  outbound : List Outbound
  /-- Whether the queue takes requests. -/
  isOpen : Bool
  traces : List TraceEvent
  output : Output
  /-- The time in milliseconds. -/
  clock : UInt64
  /-- What the host did so far, oldest first. -/
  history : List Occurrence

namespace Host

/-- A host with nothing in its queue yet. -/
def fresh (storage : Storage) : Host := ⟨storage, [], true, [], .empty, 0, []⟩

/-- **Puts a request into the queue**, if the queue is open. -/
def queue (h : Host) (sender : Option Nat) (request : Outbound) : Host :=
  if h.isOpen then
    { h with
      outbound := h.outbound ++ [request]
      history := h.history ++ [.queued sender request] }
  else h

/-- Records an occurrence. -/
def record (h : Host) (occurrence : Occurrence) : Host :=
  { h with history := h.history ++ [occurrence] }

/-- Saves a blob for an instance. -/
def saveBlob (h : Host) (place : BlobPlace) (instanceId : Nat) (content : Bytes) :
    Except Error Unit × Host :=
  match h.storage.save place content with
  | (.ok _, storage) =>
    (.ok (), { h with storage := storage }.record (.saved instanceId content))
  | (.error e, storage) => (.error e, { h with storage := storage })

end Host

/-- What the imports of an instance know of it. -/
structure Surroundings where
  instanceId : Nat
  deviceId : String
  blobPlace : BlobPlace
  natives : NativeTable
  limits : Limits

/-- A call of a core import, with its words. -/
inductive CoreCall where
  | deviceId (out capacity len : Int32)
  | time (out : Int32)
  | send (topic topicLen payload payloadLen qos : Int32)
  | setBuffers (topic topicLen payload payloadLen : Int32)
  | sleep (milliseconds : Int32)
  | storageRead (out capacity len : Int32)
  | storageSave (ptr len : Int32)
  | trace (ptr len level : Int32)
  deriving DecidableEq, Repr

/-- What a core import works on. -/
structure CoreState where
  memory : Memory
  buffers : BufferRegistry
  host : Host

/-- The work of a core import. -/
abbrev CoreM := EStateM Error CoreState

namespace CoreM

/-- Work on the memory alone. -/
def onMemory {α : Type} (action : MemoryM α) : CoreM α := fun s =>
  match action s.memory with
  | .ok a memory => .ok a { s with memory := memory }
  | .error e memory => .error e { s with memory := memory }

/-- Work that changes nothing. -/
def ofExcept {α : Type} : Except Error α → CoreM α
  | .ok a => pure a
  | .error e => throw e

/-- What the work is on can be looked at. -/
theorem get_apply (st : CoreState) : (get : CoreM CoreState) st = .ok st st := rfl

end CoreM

/-- A word as an address. -/
def address (ptr : Int32) : UInt32 := ptr.toUInt32

/-- A word as a count of octets; negative ones count as zero. -/
def capacity (count : Int32) : Nat := (max count 0).toUInt32.toNat

namespace CoreCall

/-- The number of words that a core import takes. -/
def arity? : String → Option Nat
  | "eea_get_device_id" | "eea_storage_read" | "eea_trace" => some 3
  | "eea_get_time" | "eea_sleep" => some 1
  | "eea_send_message" => some 5
  | "eea_set_message_buffers" => some 4
  | "eea_storage_save" => some 2
  | _ => none

/-- The signature of a core import. -/
def signature? (name : String) : Option Signature :=
  (arity? name).map fun count => ⟨List.replicate count .i32, [.i32]⟩

/-- The core import that a name and words call. -/
def ofWords? : String → List Int32 → Option CoreCall
  | "eea_get_device_id", [out, capacity, len] => some (deviceId out capacity len)
  | "eea_get_time", [out] => some (time out)
  | "eea_send_message", [t, tl, p, pl, qos] => some (send t tl p pl qos)
  | "eea_set_message_buffers", [t, tl, p, pl] => some (setBuffers t tl p pl)
  | "eea_sleep", [milliseconds] => some (sleep milliseconds)
  | "eea_storage_read", [out, capacity, len] => some (storageRead out capacity len)
  | "eea_storage_save", [ptr, len] => some (storageSave ptr len)
  | "eea_trace", [ptr, len, level] => some (trace ptr len level)
  | _, _ => none

/-- **The work of a core import.** -/
def attempt (s : Surroundings) : CoreCall → CoreM Unit
  | deviceId out cap len => do
    let _ ← CoreM.onMemory
      (MemoryM.encodeTextAndLength s.deviceId (address out) (capacity cap) (address len) .u8)
  | time out => do
    CoreM.onMemory (MemoryM.encodeScalar (.u64 (← get).host.clock) (address out) .u64)
  | send t tl p pl qos => do
    let topic ← CoreM.onMemory (MemoryM.decodeText (address t) (capacity tl))
    let payload ← CoreM.onMemory (MemoryM.decodeText (address p) (capacity pl))
    let state ← get
    if state.host.isOpen then
      set { state with
        host := state.host.queue (some s.instanceId) (.publish ⟨topic, payload, QoS.ofWord qos⟩) }
    else throw (.transport (.other "outbound channel closed"))
  | setBuffers t tl p pl => do
    CoreM.onMemory (MemoryM.check (address t) (capacity tl))
    CoreM.onMemory (MemoryM.check (address p) (capacity pl))
    let state ← get
    let announced ← CoreM.ofExcept
      (state.buffers.negotiate ⟨Region.ofWords t tl, Region.ofWords p pl⟩)
    set { state with buffers := announced }
  | sleep _ => return
  | storageRead out cap len => do
    match ← CoreM.ofExcept ((← get).host.storage.load s.blobPlace) with
    | none => return
    | some blob =>
      let _ ← CoreM.onMemory
        (MemoryM.encodeBytesAndLength blob (address out) (capacity cap) (address len) .u32)
  | storageSave ptr len => do
    let blob ← CoreM.onMemory (MemoryM.read (address ptr) (capacity len))
    let state ← get
    let (outcome, host) := state.host.saveBlob s.blobPlace s.instanceId blob
    set { state with host := host }
    CoreM.ofExcept outcome
  | trace ptr len level => do
    let text ← CoreM.onMemory (MemoryM.decodeTextLossy (address ptr) (capacity len))
    modify fun state => { state with
      host := { state.host with
        traces := state.host.traces ++ [TraceEvent.make s.deviceId level text] } }

/-- Whether a core import tells the guest that it failed. -/
def reportsFailure : CoreCall → Bool
  | time _ | setBuffers _ _ _ _ | storageRead _ _ _ => true
  | _ => false

/-- **The result code of a core import**: zero, or one where failures are reported. -/
def code (c : CoreCall) (failed : Bool) : UInt32 := if failed && c.reportsFailure then 1 else 0

/-- Whether a core import needs the guest's memory. -/
def needsMemory : CoreCall → Bool
  | sleep _ => false
  | _ => true

/-- A core import on its state, with its result code. -/
def run (s : Surroundings) (c : CoreCall) (state : CoreState) : UInt32 × CoreState :=
  match c.attempt s state with
  | .ok _ state => (c.code false, state)
  | .error _ state => (c.code true, state)

end CoreCall

end FlowHost
