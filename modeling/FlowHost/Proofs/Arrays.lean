import FlowHost.Proofs.Casting
import FlowHost.Proofs.Encoders

/-!
# Arrays are scalars in a row

An array is read and written at once, with one look at the bounds. That comes to the same as its scalars one by one,
each at the address where the one before it ended.

* `MemoryM.decodeArray_cases`: when an array is read.
* `MemoryM.encodeEach_ok`: scalars written one by one leave what their octets leave together.
* `MemoryM.arrays_elementwise`: **arrays as their items**, in both directions and there and back.
-/

namespace FlowHost

/-! ### Octets in a row -/

namespace Memory

/-- Memories of one size with the same octets are the same. -/
theorem eq_of_byte {m m' : Memory} (hsize : m.size = m'.size) (hbyte : ∀ j, m.byte j = m'.byte j) : m = m' := by
  cases m
  cases m'
  rw [Memory.mk.injEq]
  exact ⟨hsize, funext hbyte⟩

/-- **Two pieces are put in a row** as one. -/
theorem overlay_append (m : Memory) (start : Nat) (as bs : Bytes) :
    (m.overlay start as).overlay (start + as.length) bs = m.overlay start (as ++ bs) := by
  refine eq_of_byte rfl fun j => ?_
  simp only [byte_overlay, List.length_append, List.getD_eq_getElem?_getD]
  rcases Nat.lt_or_ge j (start + as.length) with hj | hj
  · -- an address before the second piece
    rw [if_neg (by omega)]
    by_cases hfirst : start ≤ j
    · rw [if_pos (by omega), if_pos (by omega), List.getElem?_append_left (by omega)]
    · rw [if_neg (by omega), if_neg (by omega)]
  · have hplace : j - start - as.length = j - (start + as.length) := by omega
    by_cases hsecond : j < start + as.length + bs.length
    · rw [if_pos (by omega), if_pos (by omega), List.getElem?_append_right (by omega), hplace]
    · rw [if_neg (by omega), if_neg (by omega), if_neg (by omega)]

@[simp] theorem overlay_nil (m : Memory) (start : Nat) : m.overlay start [] = m := overlay_bytesAt m start 0

theorem bytesAt_add (m : Memory) (start a b : Nat) :
    m.bytesAt start (a + b) = m.bytesAt start a ++ m.bytesAt (start + a) b := by
  have hrange : List.range' start (a + b) = List.range' start a ++ List.range' (start + a) b := by
    rw [← List.range'_append_1]
  rw [bytesAt, hrange, List.map_append]
  rfl

end Memory

namespace MemoryM

variable {m : Memory} {type : ScalarType}

/-- The pieces of a range are the ranges of the pieces. -/
theorem pieces_bytesAt (m : Memory) (width count start : Nat) :
    pieces width count (m.bytesAt start (count * width)) =
      (List.range count).map fun i => m.bytesAt (start + i * width) width := by
  induction count generalizing start with
  | zero => rfl
  | succ count ih =>
    have hsplit : m.bytesAt start ((count + 1) * width) =
        m.bytesAt start width ++ m.bytesAt (start + width) (count * width) := by
      rw [Nat.succ_mul, Nat.add_comm, Memory.bytesAt_add]
    have hlength := m.length_bytesAt start width
    rw [hsplit, pieces, List.take_left' hlength, List.drop_left' hlength, ih, List.range_succ_eq_map, List.map_cons,
      List.map_map]
    have hplace (i : Nat) : start + width + i * width = start + (i + 1) * width := by rw [Nat.succ_mul]; omega
    simp only [hplace, Nat.zero_mul, Nat.add_zero]
    rfl

/-- The pieces of scalars in a row are the scalars. -/
theorem pieces_flatMap (items : List Scalar) (type : ScalarType) :
    pieces type.width items.length (items.flatMap fun v => (v.cast type).toBytes) =
      items.map fun v => (v.cast type).toBytes := by
  induction items with
  | nil => rfl
  | cons v items ih =>
    have hlength := v.length_toBytes_cast type
    rw [List.length_cons, pieces, List.flatMap_cons, List.take_left' hlength, List.drop_left' hlength, ih,
      List.map_cons]

/-! ### Reading -/

/-- **An array is read exactly if it lies inside the memory.** A length beyond 32 bits is refused, and no memory of
fewer octets has room for it. -/
theorem decodeArray_cases (hm : m.size < UInt32.size) (ptr count : UInt32) (type : ScalarType) :
    (ptr.toNat + count.toNat * type.width ≤ m.size ∧ decodeArray ptr count type m =
        .ok ((pieces type.width count.toNat (m.bytesAt ptr.toNat (count.toNat * type.width))).map
          (Scalar.ofBytes type)) m) ∨
      (¬ ptr.toNat + count.toNat * type.width ≤ m.size ∧ ∃ e, decodeArray ptr count type m = .error e m) := by
  have hmax : UInt32.size = maxWord + 1 := rfl
  by_cases hword : maxWord < count.toNat * type.width
  · refine .inr ⟨by omega, .memoryOutOfBounds ptr.toNat maxWord, ?_⟩
    simp only [decodeArray, if_pos hword]
    rfl
  · simp only [decodeArray, if_neg hword, bind, EStateM.bind, pure, EStateM.pure]
    rcases read_cases ptr (count.toNat * type.width) m with ⟨hin, hread⟩ | ⟨hout, e, hread⟩
    · exact .inl ⟨hin, by simp only [hread]⟩
    · exact .inr ⟨hout, e, by simp only [hread]⟩

/-! ### Writing -/

/-- Scalars of one type written one after another, each by itself. -/
def encodeEach (type : ScalarType) : UInt32 → List Scalar → MemoryM Unit
  | _, [] => pure ()
  | ptr, v :: items => do
    encodeScalar v ptr type
    encodeEach type (advance ptr (UInt32.ofNat type.width)) items

/-- An address moves on by the width of a scalar, as long as it stays in 32 bits. -/
theorem toNat_advance {ptr : UInt32} (h : ptr.toNat + type.width < UInt32.size) :
    (advance ptr (UInt32.ofNat type.width)).toNat = ptr.toNat + type.width := by
  have hwidth : (UInt32.ofNat type.width).toNat = type.width := by cases type <;> rfl
  rw [advance, hwidth, clampWord_eq h]
  exact UInt32.toNat_ofNat_of_lt' h

/-- **Scalars written one by one leave what their octets leave together.** -/
theorem encodeEach_ok {items : List Scalar} {ptr : UInt32} (hm : m.size < UInt32.size)
    (h : ptr.toNat + items.length * type.width ≤ m.size) :
    encodeEach type ptr items m = .ok () (m.overlay ptr.toNat (items.flatMap fun v => (v.cast type).toBytes)) := by
  -- along the items, in the memory and at the address that those before them left
  induction items generalizing ptr m with
  | nil =>
    rw [List.flatMap_nil, Memory.overlay_nil]
    rfl
  | cons v items ih =>
    rw [List.length_cons, Nat.succ_mul] at h
    have hlength := v.length_toBytes_cast type
    have hnext : (advance ptr (UInt32.ofNat type.width)).toNat = ptr.toNat + type.width := toNat_advance (by omega)
    have hrest := @ih (m.overlay ptr.toNat (v.cast type).toBytes) (advance ptr (UInt32.ofNat type.width)) hm
      (by rw [hnext, Memory.size_overlay]; omega)
    rw [hnext, ← hlength, Memory.overlay_append] at hrest
    rcases encodeScalar_cases v ptr type m with ⟨-, hwrite⟩ | ⟨hout, -⟩
    · simp only [encodeEach, bind, EStateM.bind, hwrite]
      rw [← hlength, hrest, List.flatMap_cons]
    · exact absurd (by omega) hout

/-- What was written of an array reads back as the casts of its items. -/
theorem decodeArray_overlay {items : List Scalar} {ptr count : UInt32} (hm : m.size < UInt32.size)
    (hcount : count.toNat = items.length) (h : ptr.toNat + items.length * type.width ≤ m.size) :
    let m' := m.overlay ptr.toNat (items.flatMap fun v => (v.cast type).toBytes)
    decodeArray ptr count type m' = .ok (items.map fun v => v.cast type) m' := by
  intro m'
  have hback : m'.bytesAt ptr.toNat (items.length * type.width) = items.flatMap fun v => (v.cast type).toBytes :=
    m.bytesAt_overlay_length (length_flatMap_cast items type)
  rcases decodeArray_cases (m := m') hm ptr count type with ⟨-, hread⟩ | ⟨hout, -⟩
  · rw [hread, hcount, hback, pieces_flatMap, List.map_map]
    exact congrArg (fun found => EStateM.Result.ok found m') (List.map_congr_left fun v _ => v.ofBytes_cast type)
  · rw [hcount] at hout
    exact absurd h hout

/-- **Arrays as their items.** In a memory of less than `2 ^ 32` octets an array is read exactly if it lies inside,
and its items are those that are read one by one. The first items of a list, as many as are asked for at most, are
written exactly if there is room for them; then the memory is as if they were written one by one, the report tells
how many they are and how many the list has, as far as 32 bits go, and they read back as they were cast. -/
theorem arrays_elementwise (hm : m.size < UInt32.size) (ptr : UInt32) (type : ScalarType) :
    (∀ count : UInt32,
      (ptr.toNat + count.toNat * type.width ≤ m.size ∧ ∃ items, decodeArray ptr count type m = .ok items m ∧
          items.length = count.toNat ∧ ∀ i (h : i < items.length),
            decodeScalar (UInt32.ofNat (ptr.toNat + i * type.width)) type m = .ok items[i] m) ∨
        (¬ ptr.toNat + count.toNat * type.width ≤ m.size ∧ ∃ e, decodeArray ptr count type m = .error e m)) ∧
      ∀ (items : List Scalar) (most : UInt32),
        (ptr.toNat + min items.length most.toNat * type.width ≤ m.size ∧ ∃ report m',
            encodeArray items ptr most.toNat type m = .ok report m' ∧
              encodeEach type ptr (items.take most.toNat) m = .ok () m' ∧
              report.written = min items.length most.toNat ∧ report.required = clampWord items.length ∧
              decodeArray ptr (UInt32.ofNat report.written) type m' =
                .ok ((items.take most.toNat).map fun v => v.cast type) m') ∨
          (¬ ptr.toNat + min items.length most.toNat * type.width ≤ m.size ∧
            ∃ e, encodeArray items ptr most.toNat type m = .error e m) := by
  constructor
  · intro count
    rcases decodeArray_cases hm ptr count type with ⟨hin, hread⟩ | hfail
    · rw [pieces_bytesAt, List.map_map] at hread
      refine .inl ⟨hin, _, hread, by simp, fun i hi => ?_⟩
      have hcount : i < count.toNat := by simpa using hi
      -- the item ends before the array does, and so inside the memory
      have hend : (i + 1) * type.width ≤ count.toNat * type.width := Nat.mul_le_mul_right _ hcount
      rw [Nat.succ_mul] at hend
      have hplace : (UInt32.ofNat (ptr.toNat + i * type.width)).toNat = ptr.toNat + i * type.width :=
        UInt32.toNat_ofNat_of_lt' (by omega)
      rw [decodeScalar_ok (by rw [hplace]; omega), hplace]
      simp
    · exact .inr hfail
  · intro items most
    have hlength : (items.take most.toNat).length = min items.length most.toNat := by
      rw [List.length_take, Nat.min_comm]
    have hword : min items.length most.toNat < UInt32.size := Nat.lt_of_le_of_lt (Nat.min_le_right _ _) most.toNat_lt
    rcases encodeArray_cases items ptr most.toNat type m with ⟨hroom, hwrite⟩ | hfail
    · have hroom' : ptr.toNat + (items.take most.toNat).length * type.width ≤ m.size := hlength.symm ▸ hroom
      refine .inl ⟨hroom, _, _, hwrite, encodeEach_ok hm hroom', clampWord_eq hword, rfl, ?_⟩
      refine decodeArray_overlay hm ?_ hroom'
      rw [clampWord_eq hword, hlength]
      exact UInt32.toNat_ofNat_of_lt' hword
    · exact .inr hfail

/-- Two of three scalars are written as words of 16 bits, and read back so. -/
theorem arrays_elementwise_pair :
    let m := Memory.filled 8 0
    let items : List Scalar := [.i32 1, .i8 (-2), .u64 3]
    m.size < UInt32.size ∧ ∃ report m', encodeArray items 2 2 .i16 m = .ok report m' ∧
      encodeEach .i16 2 [.i32 1, .i8 (-2)] m = .ok () m' ∧ report.written = 2 ∧ report.required = 3 ∧
      decodeArray 2 2 .i16 m' = .ok [.i16 1, .i16 (-2)] m' := by
  intro m items
  have hm : m.size < UInt32.size := by decide
  obtain ⟨-, hboth⟩ := arrays_elementwise hm 2 .i16
  rcases hboth items 2 with ⟨-, report, m', hwrite, heach, hwritten, hrequired, hback⟩ | ⟨hout, -⟩
  · have htwo : report.written = 2 := hwritten
    rw [htwo] at hback
    exact ⟨hm, report, m', hwrite, heach, htwo, hrequired, hback⟩
  · exact absurd (by decide) hout

end MemoryM

end FlowHost
