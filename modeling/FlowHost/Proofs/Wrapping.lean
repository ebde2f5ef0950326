import FlowHost.Json.Values
import FlowHost.Proofs.Casting
import Mathlib.Data.Int.ModEq

/-!
# Floating-point numbers as integers

A floating-point number is cast to an integer type by what it is without its fraction, wrapped to the width of the
type. Great negative numbers are multiples of `2 ^ 64`, so that being held to 128 bits does not show; great positive
ones are held to an odd number, and it does.

* `Scalar.ofInt_integer`: an integer is wrapped to the width of a type.
* `Scalar.clampWide_modEq`: what being held to 128 bits leaves of a number.
* `Scalar.cast_wraps`: **a number is cast to an integer by truncation and wrapping**, exactly if it is below `2 ^ 127`.
* `Scalar.held_apart`: a double that is not.
-/

namespace FlowHost

namespace ScalarType

/-- The types of integers. -/
def IsInteger (ty : ScalarType) : Prop := ty ≠ .bool ∧ ty ≠ .f32 ∧ ty ≠ .f64

/-- The number of integers of a type. -/
def modulus (ty : ScalarType) : ℤ := 2 ^ (8 * ty.width)

/-- An integer's octets in a type, wrapped to its width. -/
def wrapped (ty : ScalarType) (i : ℤ) : Bytes := Bytes.ofNat ty.width (i % ty.modulus).toNat

theorem modulus_dvd (ty : ScalarType) : ty.modulus ∣ 2 ^ 64 := by
  cases ty <;> decide

theorem not_modulus_dvd_one (ty : ScalarType) : ¬ ty.modulus ∣ 1 := by
  cases ty <;> decide

end ScalarType

namespace Scalar

open ScalarType

variable {v : Scalar} {q : ℚ} {ty : ScalarType}

/-- The integer that a scalar of an integer type is. -/
def integer? : Scalar → Option Int
  | i8 v => some v.toInt
  | u8 v => some v.toNat
  | i16 v => some v.toInt
  | u16 v => some v.toNat
  | i32 v => some v.toInt
  | u32 v => some v.toNat
  | i64 v => some v.toInt
  | u64 v => some v.toNat
  | _ => none

/-- An integer in a type is its remainder, as a word. -/
theorem word_ofInt (hty : ty.IsInteger) (i : ℤ) : (ofInt i ty).word = (i % ty.modulus).toNat := by
  cases ty with
  | bool => exact absurd rfl hty.1
  | f32 => exact absurd rfl hty.2.1
  | f64 => exact absurd rfl hty.2.2
  | i8 => exact BitVec.toNat_ofInt (n := 8) i
  | i16 => exact BitVec.toNat_ofInt (n := 16) i
  | i32 => exact BitVec.toNat_ofInt (n := 32) i
  | i64 => exact BitVec.toNat_ofInt (n := 64) i
  | u8 =>
    have hlt : (i % 256).toNat < 256 := by omega
    exact UInt8.toNat_ofNat_of_lt' hlt
  | u16 =>
    have hlt : (i % 65536).toNat < 65536 := by omega
    exact UInt16.toNat_ofNat_of_lt' hlt
  | u32 =>
    have hlt : (i % 4294967296).toNat < 4294967296 := by omega
    exact UInt32.toNat_ofNat_of_lt' hlt
  | u64 =>
    have hlt : (i % 18446744073709551616).toNat < 18446744073709551616 := by omega
    exact UInt64.toNat_ofNat_of_lt' hlt

/-- The octets of an integer in a type. -/
theorem toBytes_ofInt (hty : ty.IsInteger) (i : ℤ) : (ofInt i ty).toBytes = ty.wrapped i := by
  rw [toBytes, word_ofInt hty, type_ofInt, wrapped]

/-- **An integer is wrapped to the width of a type**: it becomes the integer of the type that leaves the same
remainder. -/
theorem ofInt_integer (hty : ty.IsInteger) (i : ℤ) :
    ∃ j, (ofInt i ty).integer? = some j ∧ (bounds ty).1 ≤ j ∧ j ≤ (bounds ty).2 ∧ j ≡ i [ZMOD ty.modulus] := by
  have signed {n : Nat} : i.bmod n ≡ i [ZMOD n] := Int.bmod_emod
  have unsigned {n : Nat} (hn : 0 < n) : (((i % n).toNat : Nat) : ℤ) ≡ i [ZMOD n] := by
    rw [Int.toNat_of_nonneg (Int.emod_nonneg _ (by omega))]
    exact Int.mod_modEq i n
  have hword := word_ofInt hty i
  cases ty with
  | bool => exact absurd rfl hty.1
  | f32 => exact absurd rfl hty.2.1
  | f64 => exact absurd rfl hty.2.2
  | i8 =>
    have hlow := (Int8.ofInt i).le_toInt
    have hhigh := (Int8.ofInt i).toInt_lt
    exact ⟨_, rfl, hlow, Int.le_sub_one_of_lt hhigh, Int8.toInt_ofInt ▸ signed⟩
  | i16 =>
    have hlow := (Int16.ofInt i).le_toInt
    have hhigh := (Int16.ofInt i).toInt_lt
    exact ⟨_, rfl, hlow, Int.le_sub_one_of_lt hhigh, Int16.toInt_ofInt ▸ signed⟩
  | i32 =>
    have hlow := (Int32.ofInt i).le_toInt
    have hhigh := (Int32.ofInt i).toInt_lt
    exact ⟨_, rfl, hlow, Int.le_sub_one_of_lt hhigh, Int32.toInt_ofInt ▸ signed⟩
  | i64 =>
    have hlow := (Int64.ofInt i).le_toInt
    have hhigh := (Int64.ofInt i).toInt_lt
    exact ⟨_, rfl, hlow, Int.le_sub_one_of_lt hhigh, Int64.toInt_ofInt ▸ signed⟩
  | u8 =>
    have hhigh := (UInt8.ofInt i).toNat_lt
    have hword : (UInt8.ofInt i).toNat = (i % (256 : Nat)).toNat := hword
    refine ⟨_, rfl, Int.natCast_nonneg _, ?_, hword ▸ unsigned (by decide)⟩
    show _ ≤ (256 : ℤ) - 1
    omega
  | u16 =>
    have hhigh := (UInt16.ofInt i).toNat_lt
    have hword : (UInt16.ofInt i).toNat = (i % (65536 : Nat)).toNat := hword
    refine ⟨_, rfl, Int.natCast_nonneg _, ?_, hword ▸ unsigned (by decide)⟩
    show _ ≤ (65536 : ℤ) - 1
    omega
  | u32 =>
    have hhigh := (UInt32.ofInt i).toNat_lt
    have hword : (UInt32.ofInt i).toNat = (i % (4294967296 : Nat)).toNat := hword
    refine ⟨_, rfl, Int.natCast_nonneg _, ?_, hword ▸ unsigned (by decide)⟩
    show _ ≤ (4294967296 : ℤ) - 1
    omega
  | u64 =>
    have hhigh := (UInt64.ofInt i).toNat_lt
    have hword : (UInt64.ofInt i).toNat = (i % (18446744073709551616 : Nat)).toNat := hword
    refine ⟨_, rfl, Int.natCast_nonneg _, ?_, hword ▸ unsigned (by decide)⟩
    show _ ≤ (18446744073709551616 : ℤ) - 1
    omega

/-! ### Held to 128 bits -/

theorem towardZero_lt {n : ℤ} (hn : 0 < n) (h : q < n) : towardZero q < n := by
  unfold towardZero
  split
  · rename_i hneg
    have hceil : ⌈q⌉ ≤ 0 := Int.ceil_le.2 (by simpa using le_of_lt hneg)
    omega
  · exact Int.floor_lt.2 h

theorem le_towardZero {n : ℤ} (hn : 0 ≤ n) (h : n ≤ q) : n ≤ towardZero q := by
  have hn' : (0 : ℚ) ≤ n := by exact_mod_cast hn
  rw [towardZero, if_neg (not_lt.2 (hn'.trans h))]
  exact Int.le_floor.2 h

/-- A number that has lost its fraction lies between zero and what it was. -/
theorem le_abs_of_towardZero {n : ℤ} (h : towardZero q ≤ -n) : (n : ℚ) ≤ |q| := by
  unfold towardZero at h
  split at h
  · have hceil : q ≤ -n := (Int.le_ceil q).trans (by exact_mod_cast h)
    exact (le_neg_of_le_neg hceil).trans (neg_le_abs q)
  · rename_i hnonneg
    have hfloor : 0 ≤ ⌊q⌋ := Int.floor_nonneg.2 (not_lt.1 hnonneg)
    have hn : (n : ℚ) ≤ 0 := by exact_mod_cast (by omega : n ≤ 0)
    exact hn.trans (abs_nonneg q)

/-- **What being held to 128 bits leaves of a number**: what an integer type keeps of it, unless it is `2 ^ 127` or
more. -/
theorem clampWide_modEq {x : Double} (ty : ScalarType) :
    clampWide x.truncate ≡ x.truncate [ZMOD ty.modulus] ↔ x.value < 2 ^ 127 := by
  have hpow : Int.pow 2 127 = 2 ^ 127 := rfl
  have hgreat (h : 2 ^ 127 ≤ |x.value|) : ty.modulus ∣ x.truncate := ty.modulus_dvd.trans (Double.dvd_truncate h)
  have hlimit : ty.modulus ∣ 2 ^ 127 := ty.modulus_dvd.trans (by decide)
  by_cases hq : x.value < 2 ^ 127
  · refine iff_of_true ?_ hq
    have hbelow : x.truncate < 2 ^ 127 := x.truncate_eq ▸ towardZero_lt (by decide) (by exact_mod_cast hq)
    by_cases hlow : -(2 ^ 127) ≤ x.truncate
    · rw [clampWide, hpow, min_eq_left (by omega), max_eq_right hlow]
    · have habs : (2 : ℚ) ^ 127 ≤ |x.value| := by
        have hle : towardZero x.value ≤ -(2 ^ 127) := x.truncate_eq ▸ (not_le.1 hlow).le
        exact_mod_cast le_abs_of_towardZero hle
      rw [clampWide, hpow, min_eq_left (by omega), max_eq_left (not_le.1 hlow).le]
      exact (Int.modEq_zero_iff_dvd.2 (hlimit.neg_right)).trans (Int.modEq_zero_iff_dvd.2 (hgreat habs)).symm
  · refine iff_of_false ?_ hq
    have hle : (2 : ℚ) ^ 127 ≤ x.value := not_lt.1 hq
    have habove : 2 ^ 127 ≤ x.truncate := x.truncate_eq ▸ le_towardZero (by decide) (by exact_mod_cast hle)
    rw [clampWide, hpow, min_eq_right (by omega), max_eq_right (by decide)]
    intro h
    have hone : ty.modulus ∣ 2 ^ 127 - 1 := (Int.modEq_zero_iff_dvd.1 (h.trans
      (Int.modEq_zero_iff_dvd.2 (hgreat (hle.trans (le_abs_self _))))))
    exact ty.not_modulus_dvd_one (by simpa using hlimit.sub hone)

/-! ### Casts -/

/-- A floating-point scalar as an integer. -/
theorem cast_integer (hv : v.rational? = some q) (hty : ty.IsInteger) :
    ∃ x : Double, v.cast ty = ofInt (clampWide x.truncate) ty ∧ x.truncate = towardZero q ∧ x.value = q := by
  obtain ⟨x, hquantity, -, rfl⟩ := quantity_of_rational hv
  refine ⟨x, ?_, x.truncate_eq, rfl⟩
  rw [cast, hquantity]
  cases ty with
  | bool => exact absurd rfl hty.1
  | f32 => exact absurd rfl hty.2.1
  | f64 => exact absurd rfl hty.2.2
  | _ => rfl

/-- **The integer that a floating-point scalar is cast to.** -/
theorem cast_modEq (hv : v.rational? = some q) (hty : ty.IsInteger) :
    ∃ i, (v.cast ty).integer? = some i ∧ (bounds ty).1 ≤ i ∧ i ≤ (bounds ty).2 ∧
      (i ≡ towardZero q [ZMOD ty.modulus] ↔ q < 2 ^ 127) := by
  obtain ⟨x, hcast, htruncate, rfl⟩ := cast_integer hv hty
  obtain ⟨i, hi, hlow, hhigh, hmod⟩ := ofInt_integer hty (clampWide x.truncate)
  refine ⟨i, hcast ▸ hi, hlow, hhigh, ?_⟩
  rw [← clampWide_modEq ty, ← htruncate]
  exact ⟨hmod.symm.trans, hmod.trans⟩

/-- The octets of an integer tell its remainder. -/
theorem wrapped_inj {i j : ℤ} : ty.wrapped i = ty.wrapped j ↔ i ≡ j [ZMOD ty.modulus] := by
  have hpos : 0 < ty.modulus := by cases ty <;> decide
  have hnat (k : ℤ) : (k % ty.modulus).toNat < Nat.pow 256 ty.width := by
    have hlt := Int.emod_lt_of_pos k hpos
    have hmodulus : ty.modulus = (Nat.pow 256 ty.width : Nat) := by cases ty <;> rfl
    have hnonneg := Int.emod_nonneg k hpos.ne'
    omega
  constructor
  · intro h
    have hword := congrArg Bytes.toNat h
    rw [wrapped, wrapped, Bytes.toNat_ofNat, Bytes.toNat_ofNat, Nat.mod_eq_of_lt (hnat i),
      Nat.mod_eq_of_lt (hnat j)] at hword
    have hi := Int.emod_nonneg i hpos.ne'
    have hj := Int.emod_nonneg j hpos.ne'
    show i % ty.modulus = j % ty.modulus
    omega
  · intro h
    rw [wrapped, wrapped, h]

theorem integer_asU64 (v : Scalar) : (v.cast .u64).integer? = some (v.asU64.toNat : ℤ) := by
  have htype := type_cast v .u64
  unfold asU64
  cases hcast : v.cast .u64 <;> simp_all [type, integer?]

theorem integer_asI64 (v : Scalar) : (v.cast .i64).integer? = some v.asI64.toInt := by
  have htype := type_cast v .i64
  unfold asI64
  cases hcast : v.cast .i64 <;> simp_all [type, integer?]

/-- The octets of a floating-point scalar as an integer. -/
theorem toBytes_cast_iff (hv : v.rational? = some q) (hty : ty.IsInteger) :
    (v.cast ty).toBytes = ty.wrapped (towardZero q) ↔ q < 2 ^ 127 := by
  obtain ⟨x, hcast, htruncate, rfl⟩ := cast_integer hv hty
  rw [hcast, toBytes_ofInt hty, wrapped_inj, ← htruncate, clampWide_modEq]

/-- **A finite floating-point number as an integer.** The cast to an integer type gives the integer of that type that
leaves the same remainder as the number without its fraction, exactly if the number is below `2 ^ 127`; and so do the
shorthands for 64 bits, and what is encoded of it alone and among others. -/
theorem cast_wraps (hv : v.rational? = some q) (hty : ty.IsInteger) :
    (∃ i, (v.cast ty).integer? = some i ∧ (bounds ty).1 ≤ i ∧ i ≤ (bounds ty).2 ∧
        (i ≡ towardZero q [ZMOD ty.modulus] ↔ q < 2 ^ 127)) ∧
      ((v.asU64.toNat : ℤ) ≡ towardZero q [ZMOD 2 ^ 64] ↔ q < 2 ^ 127) ∧
      (v.asI64.toInt ≡ towardZero q [ZMOD 2 ^ 64] ↔ q < 2 ^ 127) ∧
      ((∀ ptr, MemoryM.encodeScalar v ptr ty = MemoryM.write ptr (ty.wrapped (towardZero q))) ↔ q < 2 ^ 127) ∧
      ∀ items : List (Scalar × ℚ), (∀ m ∈ items, m.1.rational? = some m.2 ∧ m.2 < 2 ^ 127) → ∀ ptr most,
        MemoryM.encodeArray (items.map Prod.fst) ptr most ty = do
          MemoryM.write ptr ((items.take most).flatMap fun m => ty.wrapped (towardZero m.2))
          return ⟨clampWord (items.take most).length, clampWord items.length⟩ := by
  refine ⟨cast_modEq hv hty, ?_, ?_, ?_, ?_⟩
  · obtain ⟨i, hi, -, -, hiff⟩ := cast_modEq hv (show ScalarType.u64.IsInteger from ⟨by decide, by decide, by decide⟩)
    rw [Option.some.inj ((integer_asU64 v).symm.trans hi)]
    exact hiff
  · obtain ⟨i, hi, -, -, hiff⟩ := cast_modEq hv (show ScalarType.i64.IsInteger from ⟨by decide, by decide, by decide⟩)
    rw [Option.some.inj ((integer_asI64 v).symm.trans hi)]
    exact hiff
  · rw [← toBytes_cast_iff hv hty]
    constructor
    · intro h
      exact MemoryM.write_injective (by simp [wrapped]) h
    · intro h ptr
      rw [MemoryM.encodeScalar, h]
  · intro items hitems ptr most
    have hoctets : ((items.map Prod.fst).take most).flatMap (fun m => (m.cast ty).toBytes) =
        (items.take most).flatMap fun m => ty.wrapped (towardZero m.2) := by
      rw [← List.map_take, List.flatMap_map]
      refine List.flatMap_congr fun m hm => ?_
      obtain ⟨hm, hlt⟩ := hitems m (List.mem_of_mem_take hm)
      exact (toBytes_cast_iff hm hty).2 hlt
    simp only [MemoryM.encodeArray, hoctets, List.length_take, List.length_map]

/-- Minus three hundred and three quarters. -/
def Sample.below : Double := ⟨0xC072CC0000000000⟩

/-- The fraction is dropped, and the rest wrapped. -/
theorem cast_wraps_below :
    (f64 Sample.below).rational? = some (-1203 / 4) ∧ ScalarType.u8.IsInteger ∧ towardZero (-1203 / 4) = -300 ∧
      ∃ i, ((f64 Sample.below).cast .u8).integer? = some i ∧ 0 ≤ i ∧ i ≤ 255 ∧ i ≡ -300 [ZMOD 256] := by
  have hv : (f64 Sample.below).rational? = some (-1203 / 4) := by decide +kernel
  have hty : ScalarType.u8.IsInteger := ⟨by decide, by decide, by decide⟩
  have hzero : towardZero (-1203 / 4) = -300 := by decide +kernel
  obtain ⟨i, hi, hlow, hhigh, hiff⟩ := (cast_wraps hv hty).1
  exact ⟨hv, hty, hzero, i, hi, hlow, hhigh, hzero ▸ hiff.2 (by norm_num)⟩

/-- The double of `2 ^ 127`. -/
def Sample.great : Double := ⟨0x47E0000000000000⟩

/-- **A great double is held to 128 bits** before it is wrapped: what is left is the greatest number of a type. -/
theorem held_apart :
    (f64 Sample.great).rational? = some (2 ^ 127) ∧ (f64 Sample.great).cast .u8 = u8 255 ∧
      ¬ 255 ≡ towardZero (2 ^ 127) [ZMOD ScalarType.u8.modulus] := by
  decide +kernel

end Scalar

end FlowHost
