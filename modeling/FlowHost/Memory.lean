import FlowHost.Error

/-!
# Linear memory

A guest's memory is a size and the octet at each address. Addresses that come
from a guest never index it directly: every access names a range, and a range
that does not lie inside the memory is refused with nothing done.

* `Memory.read`, `Memory.write`: the two checked accesses.
* `Memory.byte_overlay`: what a write leaves at each address.
* `Region.ofWords`: a range as a guest passes it, in two signed words.
-/

namespace FlowHost

/-- The greatest 32-bit word. -/
def maxWord : Nat := Nat.pow 2 32 - 1

/-- A number held to 32 bits. -/
def clampWord (n : Nat) : Nat := min n maxWord

/-- A number of 32 bits is held as it is. -/
theorem clampWord_eq {n : Nat} (h : n < UInt32.size) : clampWord n = n :=
  Nat.min_eq_left (Nat.le_pred_of_lt h)

/-- A linear memory. Octets at addresses beyond the size are of no account. -/
structure Memory where
  /-- The number of octets. -/
  size : Nat
  /-- The octet at an address. -/
  byte : Nat → UInt8

/-- A guest's pointer moved forward, held at the greatest address. -/
def advance (ptr bytes : UInt32) : UInt32 := UInt32.ofNat (clampWord (ptr.toNat + bytes.toNat))

/-- A range of guest addresses. -/
structure Region where
  ptr : UInt32
  len : UInt32
  deriving DecidableEq, Repr

namespace Region

/-- **A range as a guest passes it**: the pointer's bits are an address, and a negative length
counts as zero. -/
def ofWords (ptr len : Int32) : Region := ⟨ptr.toUInt32, (max len 0).toUInt32⟩

/-- Whether a range is empty. -/
def isEmpty (r : Region) : Bool := r.len == 0

/-- The address after a range, held at the greatest address. -/
def stop (r : Region) : UInt32 := advance r.ptr r.len

end Region

namespace Memory

/-- A memory that holds one octet everywhere. -/
def filled (size : Nat) (b : UInt8) : Memory := ⟨size, fun _ => b⟩

/-- The octets from an address on, whether or not they lie inside. -/
def bytesAt (m : Memory) (start len : Nat) : Bytes := (List.range' start len).map m.byte

/-- The memory with octets put at an address, whether or not they lie inside. -/
def overlay (m : Memory) (start : Nat) (bs : Bytes) : Memory :=
  let held := bs.toArray
  { m with byte := fun j =>
      if start ≤ j ∧ j < start + held.size then held.getD (j - start) 0 else m.byte j }

/-- Whether a range lies inside. -/
def contains (m : Memory) (start len : Nat) : Bool := decide (start + len ≤ m.size)

/-- The refusal of a range. -/
def outOfBounds (ptr : UInt32) (len : Nat) : Error := .memoryOutOfBounds ptr.toNat (clampWord len)

/-- The memory with more room; new octets are zero. -/
def resize (m : Memory) (size : Nat) : Memory :=
  ⟨size, fun j => if j < m.size then m.byte j else 0⟩

@[simp] theorem size_overlay (m : Memory) (start : Nat) (bs : Bytes) :
    (m.overlay start bs).size = m.size := rfl

/-- **What an overlay leaves at each address.** -/
theorem byte_overlay (m : Memory) (start : Nat) (bs : Bytes) (j : Nat) :
    (m.overlay start bs).byte j =
      if start ≤ j ∧ j < start + bs.length then bs.getD (j - start) 0 else m.byte j := by
  simp [overlay]

@[simp] theorem length_bytesAt (m : Memory) (start len : Nat) :
    (m.bytesAt start len).length = len := by
  simp [bytesAt]

theorem getElem?_bytesAt (m : Memory) (start len i : Nat) :
    (m.bytesAt start len)[i]? = if i < len then some (m.byte (start + i)) else none := by
  simp only [bytesAt, List.getElem?_map]
  split
  · next h => rw [List.getElem?_range' h]; simp
  · next h => rw [List.getElem?_eq_none (by simpa using h)]; rfl

/-- **An overlay reads back as the octets put there.** -/
theorem bytesAt_overlay (m : Memory) (start : Nat) (bs : Bytes) :
    (m.overlay start bs).bytesAt start bs.length = bs := by
  apply List.ext_getElem?
  intro i
  rw [getElem?_bytesAt, byte_overlay]
  by_cases h : i < bs.length
  · simp [h]
  · simp [h]

/-- An overlay of what is already there changes nothing. -/
theorem overlay_bytesAt (m : Memory) (start len : Nat) :
    m.overlay start (m.bytesAt start len) = m := by
  have hbyte : (m.overlay start (m.bytesAt start len)).byte = m.byte := by
    funext j
    rw [byte_overlay]
    split
    · next h =>
      have hj : j - start < len := by
        have := h.2
        simp only [length_bytesAt] at this
        omega
      rw [List.getD_eq_getElem?_getD, getElem?_bytesAt, if_pos hj, Option.getD_some]
      congr 1
      omega
    · rfl
  cases m
  exact congrArg (Memory.mk _) hbyte

end Memory

/-- Work on a memory that may fail; what was written before a failure stays written. -/
abbrev MemoryM := EStateM Error Memory

namespace MemoryM

/-- The memory's size. -/
def size : MemoryM Nat := fun m => .ok m.size m

/-- Refuses a range that does not lie inside. -/
def check (ptr : UInt32) (len : Nat) : MemoryM Unit := fun m =>
  if m.contains ptr.toNat len then .ok () m else .error (Memory.outOfBounds ptr len) m

/-- The octets of a range. -/
def read (ptr : UInt32) (len : Nat) : MemoryM Bytes := fun m =>
  if m.contains ptr.toNat len then .ok (m.bytesAt ptr.toNat len) m
  else .error (Memory.outOfBounds ptr len) m

/-- The octets of a guest's range. -/
def readRegion (r : Region) : MemoryM Bytes := read r.ptr r.len.toNat

/-- Puts octets at an address. -/
def write (ptr : UInt32) (bs : Bytes) : MemoryM Unit := fun m =>
  if m.contains ptr.toNat bs.length then .ok () (m.overlay ptr.toNat bs)
  else .error (Memory.outOfBounds ptr bs.length) m

end MemoryM

end FlowHost
