import FlowHost.Guest.Behaviour
import FlowHost.Proofs.Spelling
import Mathlib.Tactic.Set

/-!
# Accesses of a guest's memory

An access is done where there is room for it; elsewhere it fails, and the memory stays as it is. Octets that are put
somewhere are there then, and leave those of every range that they share no address with.

* `Memory.bytesAt_overlay_apart`: a write leaves what it does not touch.
* `MemoryM.read_cases`, `MemoryM.write_cases`, `MemoryM.decodeText_cases`: when an access is done.
* `MemoryM.writeBoth_exact`: **octets and their number**, written both or not at all.
-/

namespace FlowHost

namespace Memory

variable {start len p : Nat} {bs : Bytes}

/-- A write leaves the octets that it does not touch. -/
theorem bytesAt_overlay_apart (m : Memory) (h : ∀ j, start ≤ j → j < start + len → ¬ (p ≤ j ∧ j < p + bs.length)) :
    (m.overlay p bs).bytesAt start len = m.bytesAt start len := by
  apply List.ext_getElem?
  intro i
  rw [getElem?_bytesAt, getElem?_bytesAt, byte_overlay]
  by_cases hi : i < len
  · rw [if_pos hi, if_pos hi, if_neg (h _ (by omega) (by omega))]
  · rw [if_neg hi, if_neg hi]

/-- Octets of a known number are read back. -/
theorem bytesAt_overlay_length (m : Memory) (h : bs.length = len) : (m.overlay start bs).bytesAt start len = bs := by
  rw [← h, bytesAt_overlay]

end Memory

namespace MemoryM

/-- A range inside the memory passes the check, and no other does. -/
theorem check_cases (ptr : UInt32) (len : Nat) (m : Memory) :
    (ptr.toNat + len ≤ m.size ∧ check ptr len m = .ok () m) ∨
      (¬ ptr.toNat + len ≤ m.size ∧ ∃ e, check ptr len m = .error e m) := by
  unfold check Memory.contains
  by_cases h : ptr.toNat + len ≤ m.size
  · exact .inl ⟨h, if_pos (decide_eq_true h)⟩
  · exact .inr ⟨h, _, if_neg (by simpa using h)⟩

theorem read_cases (ptr : UInt32) (len : Nat) (m : Memory) :
    (ptr.toNat + len ≤ m.size ∧ read ptr len m = .ok (m.bytesAt ptr.toNat len) m) ∨
      (¬ ptr.toNat + len ≤ m.size ∧ ∃ e, read ptr len m = .error e m) := by
  unfold read Memory.contains
  by_cases h : ptr.toNat + len ≤ m.size
  · exact .inl ⟨h, if_pos (decide_eq_true h)⟩
  · exact .inr ⟨h, _, if_neg (by simpa using h)⟩

theorem write_cases (ptr : UInt32) (bs : Bytes) (m : Memory) :
    (ptr.toNat + bs.length ≤ m.size ∧ write ptr bs m = .ok () (m.overlay ptr.toNat bs)) ∨
      (¬ ptr.toNat + bs.length ≤ m.size ∧ ∃ e, write ptr bs m = .error e m) := by
  unfold write Memory.contains
  by_cases h : ptr.toNat + bs.length ≤ m.size
  · exact .inl ⟨h, if_pos (decide_eq_true h)⟩
  · exact .inr ⟨h, _, if_neg (by simpa using h)⟩

/-! ### Texts and scalars -/

/-- A text is read where the octets are those of one, and nowhere else. -/
theorem decodeText_cases (ptr : UInt32) (len : Nat) (m : Memory) :
    (∃ text, (ptr.toNat + len ≤ m.size ∧ m.bytesAt ptr.toNat len = Utf8.encode text) ∧
        decodeText ptr len m = .ok text m) ∨
      ((¬ ∃ text, ptr.toNat + len ≤ m.size ∧ m.bytesAt ptr.toNat len = Utf8.encode text) ∧
        ∃ e, decodeText ptr len m = .error e m) := by
  simp only [decodeText, bind, EStateM.bind]
  rcases read_cases ptr len m with ⟨hin, hread⟩ | ⟨hout, e, hread⟩
  · simp only [hread]
    cases hd : Utf8.decode (m.bytesAt ptr.toNat len) with
    | ok text => exact .inl ⟨text, ⟨hin, Utf8.decode_eq_ok_iff.1 hd⟩, rfl⟩
    | error fault =>
      refine .inr ⟨?_, _, rfl⟩
      rintro ⟨text, -, htext⟩
      have hok := Utf8.decode_eq_ok_iff.2 htext
      exact absurd (hd.symm.trans hok) (by simp)
  · simp only [hread]
    exact .inr ⟨fun ⟨_, hin, _⟩ => hout hin, e, rfl⟩

theorem encodeScalar_cases (v : Scalar) (ptr : UInt32) (type : ScalarType) (m : Memory) :
    (ptr.toNat + type.width ≤ m.size ∧
        encodeScalar v ptr type m = .ok () (m.overlay ptr.toNat (v.cast type).toBytes)) ∨
      (¬ ptr.toNat + type.width ≤ m.size ∧ ∃ e, encodeScalar v ptr type m = .error e m) := by
  have h := write_cases ptr (v.cast type).toBytes m
  rwa [Scalar.length_toBytes_cast] at h

theorem decodeScalar_ok {ptr : UInt32} {type : ScalarType} {m : Memory} (h : ptr.toNat + type.width ≤ m.size) :
    decodeScalar ptr type m = .ok (Scalar.ofBytes type (m.bytesAt ptr.toNat type.width)) m := by
  simp only [decodeScalar, bind, EStateM.bind]
  rcases read_cases ptr type.width m with ⟨-, hread⟩ | ⟨hout, -⟩
  · simp only [hread]
    rfl
  · exact absurd h hout

/-! ### Octets and their number -/

/-- The first octets of a byte string, and then their number in a slot of its own. -/
def writeBoth (bs : Bytes) (n : Nat) (ptr slot : UInt32) (type : ScalarType) : MemoryM Encoded := do
  check slot type.width
  let encoded ← writeLeading bs n ptr
  encodeScalar (.u32 (UInt32.ofNat encoded.written)) slot type
  return encoded

/-- The scalar that tells in a slot how many octets were written. -/
def told (n : Nat) (type : ScalarType) : Scalar := (Scalar.u32 (UInt32.ofNat (clampWord n))).cast type

/-- A slot of 32 bits tells every number of 32 bits. -/
theorem told_word {n : Nat} (h : n < UInt32.size) : told n .u32 = .u32 (UInt32.ofNat n) := by
  have hword : UInt32.ofInt (UInt32.ofNat n).toNat = UInt32.ofNat n := by
    have hmod : ((n : Int) % 2 ^ 32).toNat = n := by unfold UInt32.size at h; omega
    rw [UInt32.toNat_ofNat_of_lt' h, UInt32.ofInt, hmod]
  rw [told, clampWord_eq h]
  exact congrArg Scalar.u32 hword

/-- **What octets and their number leave**, if there is room for both; and nothing else does anything. The number
comes last, but its place was looked at first, and what is written before takes no room from it. -/
theorem writeBoth_exact {bs : Bytes} {n : Nat} (hn : n ≤ bs.length) (ptr slot : UInt32) (type : ScalarType)
    (m : Memory) :
    ((slot.toNat + type.width ≤ m.size ∧ ptr.toNat + n ≤ m.size) ∧
        writeBoth bs n ptr slot type m = .ok ⟨clampWord n, clampWord bs.length⟩
          ((m.overlay ptr.toNat (bs.take n)).overlay slot.toNat (told n type).toBytes)) ∨
      (¬ (slot.toNat + type.width ≤ m.size ∧ ptr.toNat + n ≤ m.size) ∧
        ∃ e, writeBoth bs n ptr slot type m = .error e m) := by
  have hlen : (bs.take n).length = n := List.length_take_of_le hn
  simp only [writeBoth, writeLeading, bind, EStateM.bind]
  rcases check_cases slot type.width m with ⟨hslot, hcheck⟩ | ⟨hslot, e, hcheck⟩
  · rcases write_cases ptr (bs.take n) m with ⟨hptr, hwrite⟩ | ⟨hptr, e, hwrite⟩
    · rw [hlen] at hptr
      set m1 := m.overlay ptr.toNat (bs.take n) with hm1
      set v : Scalar := .u32 (UInt32.ofNat (clampWord n)) with hv
      rcases encodeScalar_cases v slot type m1 with ⟨-, hnum⟩ | ⟨hfull, -⟩
      · refine .inl ⟨⟨hslot, hptr⟩, ?_⟩
        simp only [hcheck, hwrite, pure, EStateM.pure, ← hv, hnum, told]
      · exact absurd hslot hfull
    · rw [hlen] at hptr
      exact .inr ⟨fun h => hptr h.2, e, by simp only [hcheck, hwrite]⟩
  · exact .inr ⟨fun h => hslot h.1, e, by simp only [hcheck]⟩

/-- **Octets and their number are written both or not at all.** -/
theorem writeBoth_cases {bs : Bytes} {n : Nat} (hn : n ≤ bs.length) (ptr slot : UInt32)
    (type : ScalarType) (m : Memory) :
    ((slot.toNat + type.width ≤ m.size ∧ ptr.toNat + n ≤ m.size) ∧
        ∃ e m', writeBoth bs n ptr slot type m = .ok e m' ∧ m'.size = m.size ∧
          ∀ j, ¬ (ptr.toNat ≤ j ∧ j < ptr.toNat + n) →
            ¬ (slot.toNat ≤ j ∧ j < slot.toNat + type.width) → m'.byte j = m.byte j) ∨
      (¬ (slot.toNat + type.width ≤ m.size ∧ ptr.toNat + n ≤ m.size) ∧
        ∃ e, writeBoth bs n ptr slot type m = .error e m) := by
  have hlen : (bs.take n).length = n := List.length_take_of_le hn
  refine (writeBoth_exact hn ptr slot type m).imp_left fun ⟨hroom, hwrite⟩ => ?_
  refine ⟨hroom, _, _, hwrite, rfl, fun j hj hj' => ?_⟩
  rw [Memory.byte_overlay, told, Scalar.length_toBytes_cast, if_neg hj', Memory.byte_overlay, hlen, if_neg hj]

end MemoryM

end FlowHost
