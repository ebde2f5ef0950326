import FlowHost.Proofs.Accesses
import Mathlib.Data.List.Basic

/-!
# What a guest reads of the blob

A guest that reads the blob gives a place for it, a capacity, and a slot for the length. What fits is
put there (`Memory.Received`), and its length as a 32-bit word is put into the slot.

* `Machine.call_storageRead`: **a read with its places inside the memory succeeds**, and neither the
  host nor anything else of the guest changes.
-/

namespace FlowHost

namespace Memory

variable {m : Memory} {n : Nat}

/-- A memory after the first `n` octets of a blob were put at `out` and their number at `slot`. -/
structure Received (blob : Bytes) (out n slot : Nat) (m m' : Memory) : Prop where
  size : m'.size = m.size
  blob : m'.bytesAt out n = blob.take n
  length : Scalar.ofBytes .u32 (m'.bytesAt slot 4) = .u32 (UInt32.ofNat n)
  others : ∀ j, (j < out ∨ out + n ≤ j) → (j < slot ∨ slot + 4 ≤ j) → m'.byte j = m.byte j

theorem received_overlay {blob : Bytes} {out slot : Nat} (hn : n ≤ blob.length) (hw : n < UInt32.size)
    (hd : out + n ≤ slot ∨ slot + 4 ≤ out) :
    Received blob out n slot m
      ((m.overlay out (blob.take n)).overlay slot (Scalar.u32 (UInt32.ofNat n)).toBytes) := by
  have htake : (blob.take n).length = n := by rw [List.length_take]; omega
  have hslot : (Scalar.u32 (UInt32.ofNat n)).toBytes.length = 4 := by rw [Scalar.length_toBytes]; rfl
  have hnat : (UInt32.ofNat n).toNat = n := UInt32.toNat_ofNat_of_lt' hw
  refine ⟨rfl, ?_, ?_, fun j hj hj' => ?_⟩
  · rw [bytesAt_overlay_apart _ fun j _ _ => by omega, bytesAt_overlay_length _ htake]
  · rw [bytesAt_overlay_length _ hslot, Scalar.ofBytes, Scalar.toBytes, Bytes.toNat_ofNat]
    have hmod : n % Nat.pow 256 4 = n := Nat.mod_eq_of_lt hw
    simp only [Scalar.type, Scalar.word, ScalarType.width, hnat, hmod, Scalar.ofWord]
  · rw [byte_overlay, if_neg (by omega), byte_overlay, if_neg (by omega)]

end Memory

namespace MemoryM

/-- **Octets with their number**: as many as fit are written, if both places lie inside. -/
theorem encodeBytesAndLength_ok (bs : Bytes) {ptr slot : UInt32} {capacity : Nat} {m : Memory}
    (hout : ptr.toNat + min bs.length capacity ≤ m.size) (hslot : slot.toNat + 4 ≤ m.size)
    (hcap : capacity < UInt32.size) :
    ∃ e, encodeBytesAndLength bs ptr capacity slot .u32 m =
      .ok e ((m.overlay ptr.toNat (bs.take (min bs.length capacity))).overlay slot.toNat
        (Scalar.u32 (UInt32.ofNat (min bs.length capacity))).toBytes) := by
  have hw : min bs.length capacity < UInt32.size := Nat.lt_of_le_of_lt (Nat.min_le_right _ _) hcap
  rcases writeBoth_exact (Nat.min_le_left bs.length capacity) ptr slot .u32 m with ⟨-, hwrite⟩ | ⟨hfull, -⟩
  · rw [told_word hw] at hwrite
    exact ⟨_, hwrite⟩
  · exact absurd ⟨hslot, hout⟩ hfull

end MemoryM

namespace Machine

variable {σ : Surroundings} {m : Machine} {memory : Memory} {blob : Bytes} {out cap slot : UInt32}

/-- **A read of the blob with its places inside the memory**: it returns zero, and the guest has as much
of the blob as fits. Only the memory changes. -/
theorem call_storageRead (hm : m.guest.memory = some memory) (hk : m.guest.isKnown = true)
    (hb : m.host.storage.load σ.blobPlace = .ok (some blob))
    (hout : out.toNat + min blob.length (capacity cap.toInt32) ≤ memory.size)
    (hslot : slot.toNat + 4 ≤ memory.size)
    (hd : out.toNat + min blob.length (capacity cap.toInt32) ≤ slot.toNat ∨ slot.toNat + 4 ≤ out.toNat) :
    ∃ memory', m.call σ "eea_storage_read" [.i32 out, .i32 cap, .i32 slot] =
        (some [.i32 0], { m with guest := { m.guest with memory := some memory' } }) ∧
      Memory.Received blob out.toNat (min blob.length (capacity cap.toInt32)) slot.toNat memory memory' := by
  have hcap : capacity cap.toInt32 < UInt32.size := UInt32.toNat_lt _
  obtain ⟨e, he⟩ := MemoryM.encodeBytesAndLength_ok blob hout hslot hcap
  refine ⟨_, ?_, Memory.received_overlay (by omega) (by omega) hd⟩
  have hwords : words? [.i32 out, .i32 cap, .i32 slot] =
      some [out.toInt32, cap.toInt32, slot.toInt32] := rfl
  have hcall : CoreCall.ofWords? "eea_storage_read" [out.toInt32, cap.toInt32, slot.toInt32] =
      some (.storageRead out.toInt32 cap.toInt32 slot.toInt32) := rfl
  simp only [call, hwords, Option.bind_some, hcall, callCore, hm, hk, if_true]
  simp only [CoreCall.run, CoreCall.attempt, bind, EStateM.bind, CoreM.get_apply, hb, CoreM.ofExcept, pure,
    EStateM.pure, CoreM.onMemory, address, UInt32.toUInt32_toInt32, he]
  rfl

end Machine

end FlowHost
