import FlowHost.Native
import FlowHost.Proofs.Rational

/-!
# Casts

A scalar that is cast to its own type stays as it is, unless it is not finite. So a cast settles after one step
exactly where it gives a finite scalar, and the only ones that do not are the doubles too great for single precision.

* `Scalar.cast_self`: a finite scalar is itself as its own type.
* `Scalar.cast_settled`: **what casting again leaves alone**, and what is encoded.
* `Scalar.narrowed_apart`: a double that is cast to infinity.
-/

namespace FlowHost

namespace Scalar

/-- Whether a scalar is an infinity or no number. -/
def isFinite : Scalar → Bool
  | f32 x => x.isFinite
  | f64 x => x.isFinite
  | _ => true

/-- The rational that a finite floating-point scalar denotes. -/
def rational? : Scalar → Option ℚ
  | f32 x => if x.isFinite then some x.value else none
  | f64 x => if x.isFinite then some x.value else none
  | _ => none

/-- **Too great for a type**: a number beyond the middle between the greatest single and what would come next, as a
single. -/
def TooGreat (v : Scalar) (ty : ScalarType) : Prop :=
  ty = .f32 ∧ ∃ q, v.rational? = some q ∧ 2 ^ 128 - 2 ^ 103 ≤ |q|

/-! ### Quantities -/

/-- A floating-point scalar is a real quantity of the same value. -/
theorem quantity_of_rational {v : Scalar} {q : ℚ} (h : v.rational? = some q) :
    ∃ x, v.quantity = .real x ∧ x.isFinite = true ∧ x.value = q := by
  cases v with
  | f32 x =>
    by_cases hx : x.isFinite = true
    · rw [rational?, if_pos hx, Option.some.injEq] at h
      have hdouble := Single.isFinite_toDouble hx
      exact ⟨x.toDouble, by simp [quantity, quantityOfDouble, hx, hdouble], hdouble, h ▸ Single.value_toDouble hx⟩
    · rw [rational?, if_neg hx] at h
      cases h
  | f64 x =>
    by_cases hx : x.isFinite = true
    · rw [rational?, if_pos hx, Option.some.injEq] at h
      exact ⟨x, by simp [quantity, quantityOfDouble, hx], hx, h⟩
    · rw [rational?, if_neg hx] at h
      cases h
  | _ => cases h

/-- All other scalars are integer quantities of 64 bits. -/
theorem quantity_of_not_rational {v : Scalar} (h : v.rational? = none) :
    ∃ i, v.quantity = .integer i ∧ i.natAbs ≤ 2 ^ 64 := by
  cases v with
  | bool b => exact ⟨_, rfl, by cases b <;> decide⟩
  | i8 n =>
    have := n.le_toInt
    have := n.toInt_lt
    exact ⟨_, rfl, by omega⟩
  | u8 n =>
    have := n.toNat_lt
    exact ⟨_, rfl, by omega⟩
  | i16 n =>
    have := n.le_toInt
    have := n.toInt_lt
    exact ⟨_, rfl, by omega⟩
  | u16 n =>
    have := n.toNat_lt
    exact ⟨_, rfl, by omega⟩
  | i32 n =>
    have := n.le_toInt
    have := n.toInt_lt
    exact ⟨_, rfl, by omega⟩
  | u32 n =>
    have := n.toNat_lt
    exact ⟨_, rfl, by omega⟩
  | i64 n =>
    have := n.le_toInt
    have := n.toInt_lt
    exact ⟨_, rfl, by omega⟩
  | u64 n =>
    have := n.toNat_lt
    exact ⟨_, rfl, by omega⟩
  | f32 x =>
    by_cases hx : x.isFinite = true
    · rw [rational?, if_pos hx] at h
      cases h
    · exact ⟨0, by simp [quantity, hx], by decide⟩
  | f64 x =>
    by_cases hx : x.isFinite = true
    · rw [rational?, if_pos hx] at h
      cases h
    · exact ⟨0, by simp [quantity, quantityOfDouble, hx], by decide⟩

/-! ### Casting again -/

/-- Integers of 64 bits are finite in every type. -/
theorem isFinite_ofInt {i : Int} (hi : i.natAbs ≤ 2 ^ 64) (ty : ScalarType) : (ofInt i ty).isFinite = true := by
  cases ty with
  | f32 => exact Single.isFinite_ofInt hi
  | f64 => exact Double.isFinite_ofInt hi
  | _ => rfl

/-- **A cast gives a finite scalar**, unless the number is too great for the type. -/
theorem isFinite_cast (v : Scalar) (ty : ScalarType) : (v.cast ty).isFinite = true ↔ ¬ v.TooGreat ty := by
  cases hq : v.rational? with
  | none =>
    obtain ⟨i, hv, hi⟩ := quantity_of_not_rational hq
    refine iff_of_true ?_ ?_
    · rw [cast, hv]
      exact isFinite_ofInt hi ty
    · rintro ⟨-, q, h, -⟩
      rw [hq] at h
      cases h
  | some q =>
    obtain ⟨x, hv, hx, hvalue⟩ := quantity_of_rational hq
    by_cases hty : ty = .f32
    · subst hty
      have hcast : v.cast .f32 = f32 x.toSingle := by rw [cast, hv]
      rw [hcast, isFinite, Double.isFinite_toSingle, hvalue, ← not_le, TooGreat]
      refine not_congr ⟨fun h => ⟨rfl, q, hq, h⟩, ?_⟩
      rintro ⟨-, q', h', hle⟩
      rw [Option.some.inj (hq.symm.trans h')]
      exact hle
    · refine iff_of_true ?_ fun h => hty h.1
      rw [cast, hv]
      cases ty with
      | f32 => exact absurd rfl hty
      | f64 => exact hx
      | _ => rfl

/-- **A finite scalar is itself as its own type.** -/
theorem cast_self {v : Scalar} (h : v.isFinite = true) : v.cast v.type = v := by
  cases v with
  | bool b => cases b <;> rfl
  | f32 x =>
    have hx : x.isFinite = true := h
    have hdouble := Single.isFinite_toDouble hx
    simp [cast, type, quantity, quantityOfDouble, hx, hdouble, Single.toSingle_toDouble hx]
  | f64 x =>
    have hx : x.isFinite = true := h
    simp [cast, type, quantity, quantityOfDouble, hx]
  | u8 n =>
    have hlt := n.toNat_lt
    exact congrArg u8 (by
      rw [UInt8.ofInt, Int.emod_eq_of_lt (by omega) (by omega), Int.toNat_natCast, UInt8.ofNat_toNat])
  | u16 n =>
    have hlt := n.toNat_lt
    exact congrArg u16 (by
      rw [UInt16.ofInt, Int.emod_eq_of_lt (by omega) (by omega), Int.toNat_natCast, UInt16.ofNat_toNat])
  | u32 n =>
    have hlt := n.toNat_lt
    exact congrArg u32 (by
      rw [UInt32.ofInt, Int.emod_eq_of_lt (by omega) (by omega), Int.toNat_natCast, UInt32.ofNat_toNat])
  | u64 n =>
    have hlt := n.toNat_lt
    exact congrArg u64 (by
      rw [UInt64.ofInt, Int.emod_eq_of_lt (by omega) (by omega), Int.toNat_natCast, UInt64.ofNat_toNat])
  | i8 n => exact congrArg i8 (Int8.ofInt_toInt n)
  | i16 n => exact congrArg i16 (Int16.ofInt_toInt n)
  | i32 n => exact congrArg i32 (Int32.ofInt_toInt n)
  | i64 n => exact congrArg i64 (Int64.ofInt_toInt n)

/-- What is not finite is no rational. -/
theorem rational_of_not_finite {v : Scalar} (h : v.isFinite ≠ true) : v.rational? = none := by
  cases v with
  | f32 x => exact if_neg h
  | f64 x => exact if_neg h
  | _ => rfl

/-- **A second cast leaves finite scalars alone**, and no others: an infinity counts as zero. -/
theorem cast_cast_eq (v : Scalar) (ty : ScalarType) :
    (v.cast ty).cast ty = v.cast ty ↔ (v.cast ty).isFinite = true := by
  constructor
  · intro h
    by_contra hfinite
    obtain ⟨i, hquantity, hi⟩ := quantity_of_not_rational (rational_of_not_finite hfinite)
    rw [← h, cast, hquantity] at hfinite
    exact hfinite (isFinite_ofInt hi ty)
  · intro h
    have hself := cast_self h
    rwa [type_cast] at hself

/-! ### Octets -/

theorem word_lt (v : Scalar) : v.word < Nat.pow 256 v.type.width := by
  cases v with
  | bool b => cases b <;> decide
  | i8 n => exact n.toUInt8.toNat_lt
  | u8 n => exact n.toNat_lt
  | i16 n => exact n.toUInt16.toNat_lt
  | u16 n => exact n.toNat_lt
  | i32 n => exact n.toUInt32.toNat_lt
  | u32 n => exact n.toNat_lt
  | f32 x => exact x.bits.toNat_lt
  | i64 n => exact n.toUInt64.toNat_lt
  | u64 n => exact n.toNat_lt
  | f64 x => exact x.bits.toNat_lt

/-- A scalar is given back by its word. -/
theorem ofWord_word (v : Scalar) : ofWord v.word v.type = v := by
  cases v with
  | bool b => cases b <;> rfl
  | _ => simp [word, type, ofWord]

/-- **A scalar is given back by its octets.** -/
theorem ofBytes_toBytes (v : Scalar) : ofBytes v.type v.toBytes = v := by
  rw [ofBytes, toBytes, Bytes.toNat_ofNat, Nat.mod_eq_of_lt v.word_lt, ofWord_word]

/-- What a scalar was cast to is given back by its octets. -/
theorem ofBytes_cast (v : Scalar) (type : ScalarType) : ofBytes type (v.cast type).toBytes = v.cast type := by
  have hsame := ofBytes_toBytes (v.cast type)
  rwa [type_cast] at hsame

/-- Scalars of one type with the same octets are the same. -/
theorem toBytes_injective {v v' : Scalar} (ht : v.type = v'.type) (h : v.toBytes = v'.toBytes) : v = v' := by
  rw [← ofBytes_toBytes v, ← ofBytes_toBytes v', ht, h]

end Scalar

/-- Octets that are written alike everywhere are the same. -/
theorem MemoryM.write_injective {bs bs' : Bytes} (hlength : bs.length = bs'.length)
    (h : ∀ ptr, MemoryM.write ptr bs = MemoryM.write ptr bs') : bs = bs' := by
  let m := Memory.filled bs.length 0
  have hall : m.contains (0 : UInt32).toNat bs.length = true := by
    simp [m, Memory.contains, Memory.filled]
  have hwrite := congrFun (h 0) m
  simp only [MemoryM.write, ← hlength, if_pos hall] at hwrite
  have hmemory : m.overlay 0 bs = m.overlay 0 bs' := by
    injection hwrite
  rw [← Memory.bytesAt_overlay m 0 bs, ← Memory.bytesAt_overlay m 0 bs', hmemory, hlength]

/-- A scalar of one of the types that cross the border is never replaced. -/
theorem Value.toScalar_ofScalar {v : Scalar} {ty : ValueType} (h : v.type = ty.scalarType) :
    (Value.ofScalar v).toScalar = v := by
  cases v with
  | i32 v => rfl
  | i64 v => rfl
  | f32 v => rfl
  | f64 v => rfl
  | _ => cases ty <;> cases h

/-- A value that crosses the border as a scalar's is the scalar's cast. -/
theorem ValueType.toScalar_ofScalar (ty : ValueType) (v : Scalar) :
    (ty.ofScalar v).toScalar = v.cast ty.scalarType :=
  Value.toScalar_ofScalar (Scalar.type_cast v ty.scalarType)

namespace Scalar

/-- **What casting again leaves alone.** A cast has the type that is asked for. It is finite, casting it again gives it
back bit for bit, casting a scalar before it is encoded changes nothing, and neither does giving a result back to
a native function's declared type: all of this unless a number is too great for single precision, and none of it
then. -/
theorem cast_settled (v : Scalar) (ty : ScalarType) :
    (v.cast ty).type = ty ∧
      ((v.cast ty).isFinite = true ↔ ¬ v.TooGreat ty) ∧
      ((v.cast ty).cast ty = v.cast ty ↔ ¬ v.TooGreat ty) ∧
      ((∀ ptr, MemoryM.encodeScalar (v.cast ty) ptr ty = MemoryM.encodeScalar v ptr ty) ↔ ¬ v.TooGreat ty) ∧
      ∀ border : ValueType, border.scalarType = ty →
        (border.ofScalar (border.ofScalar v).toScalar = border.ofScalar v ↔ ¬ v.TooGreat ty) := by
  have hsettles : (v.cast ty).cast ty = v.cast ty ↔ ¬ v.TooGreat ty := (cast_cast_eq v ty).trans (isFinite_cast v ty)
  refine ⟨type_cast v ty, isFinite_cast v ty, hsettles, ?_, ?_⟩
  · rw [← hsettles]
    constructor
    · intro h
      have hlength : ((v.cast ty).cast ty).toBytes.length = (v.cast ty).toBytes.length := by simp
      exact toBytes_injective (by simp) (MemoryM.write_injective hlength h)
    · intro h ptr
      rw [MemoryM.encodeScalar, h]
      rfl
  · rintro border rfl
    rw [← hsettles]
    constructor
    · intro h
      have hscalar := congrArg Value.toScalar h
      rwa [border.toScalar_ofScalar, border.toScalar_ofScalar] at hscalar
    · intro h
      rw [border.toScalar_ofScalar, ValueType.ofScalar, h]
      rfl

/-- A double of about `10 ^ 39`. -/
def Sample.vast : Double := ⟨0x48078287F49C4A1D⟩

/-- **A great double is cast to infinity** as a single, and that to zero. -/
theorem narrowed_apart :
    (f64 Sample.vast).cast .f32 = f32 ⟨0x7F800000⟩ ∧ (f32 ⟨0x7F800000⟩).isFinite = false ∧
      ((f64 Sample.vast).cast .f32).cast .f32 = f32 ⟨0⟩ := by
  decide +kernel

end Scalar

end FlowHost
