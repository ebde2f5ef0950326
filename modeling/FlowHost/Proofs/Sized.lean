import FlowHost.Native.Stock

/-!
# Work that keeps the size of a memory

Whatever the host does with a guest's memory, it reads and writes within it. Native functions do no more
than that, since what they see of a memory has a fixed size (`NativeFunction.KeepsSize`).

* `MemoryM.Sized`, `CallM.Sized`: work on a memory, and work of a native function, that keep its size.
* `agentFunctions_keepSize`, `observers_keepSize`: **the agent's own functions are of this kind**, and those that look
  at a guest.
-/

namespace FlowHost

namespace MemoryM

variable {α β : Type}

/-- The memory after work, failed or not. -/
def after : EStateM.Result Error Memory α → Memory
  | .ok _ m => m
  | .error _ m => m

/-- **Work that keeps the size of the memory.** -/
def Sized (x : MemoryM α) : Prop := ∀ m, (after (x m)).size = m.size

theorem Sized.bind {x : MemoryM α} {f : α → MemoryM β} (hx : Sized x) (hf : ∀ a, Sized (f a)) :
    Sized (x >>= f) := by
  intro m
  have h := hx m
  simp only [Bind.bind, EStateM.bind]
  cases hr : x m with
  | error e m' => rw [hr] at h; exact h
  | ok a m' =>
    rw [hr] at h
    exact (hf a m').trans h

theorem sized_pure (a : α) : Sized (pure a : MemoryM α) := fun _ => rfl

theorem sized_throw (e : Error) : Sized (throw e : MemoryM α) := fun _ => rfl

theorem sized_check (ptr : UInt32) (len : Nat) : Sized (check ptr len) := by
  intro m
  unfold check
  split <;> rfl

theorem sized_read (ptr : UInt32) (len : Nat) : Sized (read ptr len) := by
  intro m
  unfold read
  split <;> rfl

theorem sized_write (ptr : UInt32) (bs : Bytes) : Sized (write ptr bs) := by
  intro m
  unfold write
  split <;> rfl

theorem sized_size : Sized size := fun _ => rfl

theorem sized_decodeScalar (ptr : UInt32) (ty : ScalarType) : Sized (decodeScalar ptr ty) :=
  (sized_read _ _).bind fun _ => sized_pure _

theorem sized_encodeScalar (v : Scalar) (ptr : UInt32) (ty : ScalarType) : Sized (encodeScalar v ptr ty) :=
  sized_write _ _

theorem sized_decodeText (ptr : UInt32) (len : Nat) : Sized (decodeText ptr len) := by
  refine (sized_read _ _).bind fun bs => ?_
  cases Utf8.decode bs with
  | ok text => exact sized_pure _
  | error fault => exact sized_throw _

theorem sized_encodeText (text : String) (ptr : UInt32) (capacity : Nat) :
    Sized (encodeText text ptr capacity) := (sized_write _ _).bind fun _ => sized_pure _

theorem sized_encodeBytes (bs : Bytes) (ptr : UInt32) (capacity : Nat) :
    Sized (encodeBytes bs ptr capacity) := (sized_write _ _).bind fun _ => sized_pure _

theorem sized_encodeTextAndLength (text : String) (ptr : UInt32) (capacity : Nat) (slot : UInt32)
    (type : ScalarType) : Sized (encodeTextAndLength text ptr capacity slot type) :=
  (sized_check _ _).bind fun _ => (sized_encodeText _ _ _).bind fun _ =>
    (sized_write _ _).bind fun _ => sized_pure _

theorem sized_encodeBytesAndLength (bs : Bytes) (ptr : UInt32) (capacity : Nat) (slot : UInt32)
    (type : ScalarType) : Sized (encodeBytesAndLength bs ptr capacity slot type) :=
  (sized_check _ _).bind fun _ => (sized_encodeBytes _ _ _).bind fun _ =>
    (sized_write _ _).bind fun _ => sized_pure _

end MemoryM

namespace CallM

variable {α β : Type}

/-- The state after work, failed or not. -/
def after : EStateM.Result Error CallState α → CallState
  | .ok _ st => st
  | .error _ st => st

/-- Work of a native function that keeps the size of the memory. -/
def Sized (x : CallM α) : Prop := ∀ st, (after (x st)).memory.size = st.memory.size

theorem Sized.bind {x : CallM α} {f : α → CallM β} (hx : Sized x) (hf : ∀ a, Sized (f a)) :
    Sized (x >>= f) := by
  intro st
  have h := hx st
  simp only [Bind.bind, EStateM.bind]
  cases hr : x st with
  | error e st' => rw [hr] at h; exact h
  | ok a st' =>
    rw [hr] at h
    exact (hf a st').trans h

theorem sized_pure (a : α) : Sized (pure a : CallM α) := fun _ => rfl

theorem sized_onMemory {x : MemoryM α} (hx : x.Sized) : Sized (onMemory x) := by
  intro st
  have h := hx st.memory
  unfold onMemory
  cases hr : x st.memory <;> rw [hr] at h <;> exact h

theorem sized_note (n : Note) : Sized (note n) := fun _ => rfl

theorem sized_printLine (text : String) : Sized (printLine text) := fun _ => rfl

theorem sized_memorySize : Sized memorySize := sized_onMemory MemoryM.sized_size

theorem sized_readOctets (ptr len : UInt32) : Sized (readOctets ptr len) :=
  sized_onMemory (MemoryM.sized_read _ _)

theorem sized_readText (ptr len : UInt32) : Sized (readText ptr len) :=
  sized_onMemory (MemoryM.sized_decodeText _ _)

theorem sized_readScalar (ptr : UInt32) (ty : ScalarType) : Sized (readScalar ptr ty) :=
  sized_onMemory (MemoryM.sized_decodeScalar _ _)

theorem sized_writeScalar (v : Scalar) (ptr : UInt32) (ty : ScalarType) : Sized (writeScalar v ptr ty) :=
  sized_onMemory (MemoryM.sized_encodeScalar _ _ _)

theorem sized_writeTextAndLength (text : String) (ptr capacity slot : UInt32) :
    Sized (writeTextAndLength text ptr capacity slot) :=
  sized_onMemory (MemoryM.sized_encodeTextAndLength _ _ _ _ _)

end CallM

/-- **What a native function sees of the guest's memory has a fixed size**, whatever it writes there. -/
def NativeFunction.KeepsSize (f : NativeFunction) : Prop :=
  ∀ device arguments, CallM.Sized (f.handler device arguments)

/-- **The functions that the agent offers keep the size of the memory.** -/
theorem agentFunctions_keepSize : ∀ f ∈ agentFunctions.functions, f.KeepsSize := by
  intro f hf
  simp only [agentFunctions, List.mem_cons, List.not_mem_nil, or_false] at hf
  rcases hf with rfl | rfl
  · intro device arguments
    exact (CallM.sized_readOctets _ _).bind fun content =>
      (CallM.sized_writeTextAndLength _ _ _ _).bind fun _ => CallM.sized_pure _
  · intro device arguments
    exact (CallM.sized_readText _ _).bind fun text => (CallM.sized_printLine text).bind fun _ => CallM.sized_pure _

/-- **And so do functions that look at a guest from outside.** -/
theorem observers_keepSize {f : NativeFunction} (hf : f.handler ∈ Handler.observers) : f.KeepsSize := by
  intro device arguments
  generalize f.handler = handler at hf ⊢
  simp only [Handler.observers, List.mem_append, List.mem_cons, List.not_mem_nil, or_false, List.mem_map] at hf
  rcases hf with ((rfl | rfl | rfl | rfl | rfl | rfl | rfl) | ⟨ty, -, rfl⟩) | ⟨ty, -, rfl⟩
  · exact CallM.sized_pure _
  · exact (CallM.sized_note _).bind fun _ => CallM.sized_pure _
  · exact fun _ => rfl
  · exact (CallM.sized_readOctets _ _).bind fun content => (CallM.sized_note _).bind fun _ => CallM.sized_pure _
  · exact (CallM.sized_readText _ _).bind fun text =>
      (CallM.sized_writeTextAndLength _ _ _ _).bind fun _ => CallM.sized_pure _
  · exact (CallM.sized_writeTextAndLength _ _ _ _).bind fun _ => CallM.sized_pure _
  · exact CallM.sized_memorySize.bind fun _ => CallM.sized_pure _
  · exact (CallM.sized_readScalar _ _).bind fun _ => CallM.sized_pure _
  · exact (CallM.sized_writeScalar _ _ _).bind fun _ => CallM.sized_pure _

theorem NativeFunction.invoke_sized {f : NativeFunction} (hf : f.KeepsSize) (device : String)
    (arguments : List Value) : CallM.Sized (f.invoke device arguments) := by
  refine (hf device _).bind fun returned => ?_
  split
  · exact CallM.sized_pure _
  · exact fun _ => rfl

end FlowHost
