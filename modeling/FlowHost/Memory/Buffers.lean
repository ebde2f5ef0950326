import FlowHost.Memory.Marshal

/-!
# Message buffers

A guest sets aside one region for topics and one for payloads and announces them
once. Messages to the guest are copied there before it is called.

* `BufferRegistry.negotiate`: the first announcement is kept, later ones are refused.
* `MessageBuffers.write`: both regions are checked before either is written.
-/

namespace FlowHost

/-- The two regions that a guest announces. -/
structure MessageBuffers where
  topic : Region
  payload : Region
  deriving DecidableEq, Repr

/-- Copies a topic and a payload into the regions, each cut to its region. -/
def MessageBuffers.write (b : MessageBuffers) (topic payload : String) :
    MemoryM (Encoded × Encoded) := do
  MemoryM.check b.topic.ptr b.topic.len.toNat
  MemoryM.check b.payload.ptr b.payload.len.toNat
  let first ← MemoryM.encodeText topic b.topic.ptr b.topic.len.toNat
  let second ← MemoryM.encodeText payload b.payload.ptr b.payload.len.toNat
  return (first, second)

/-- What an instance knows of its guest's regions. -/
structure BufferRegistry where
  buffers : Option MessageBuffers
  deriving DecidableEq, Repr

namespace BufferRegistry

/-- Nothing announced yet. -/
def empty : BufferRegistry := ⟨none⟩

/-- Records an announcement, unless there was one before. -/
def negotiate (r : BufferRegistry) (b : MessageBuffers) : Except Error BufferRegistry :=
  match r.buffers with
  | some _ => .error (.invalidState .alreadyNegotiated)
  | none => .ok ⟨some b⟩

/-- The announced regions. -/
def get (r : BufferRegistry) : Except Error MessageBuffers :=
  match r.buffers with
  | some b => .ok b
  | none => .error .buffersNotNegotiated

/-- Whether regions have been announced. -/
def isNegotiated (r : BufferRegistry) : Bool := r.buffers.isSome

end BufferRegistry

end FlowHost
