import FlowHost.Proofs.Rounding
import Mathlib.Data.Rat.Floor

/-!
# Binary words as rationals

The rational that a finite word denotes, as the standard of binary floating-point words gives it, and what
conversions make of it.

* `FloatFormat.value_eq`: a value is a number of units.
* `FloatFormat.truncate_eq`: **truncation takes the value toward zero.**
* `Single.value_toDouble`, `Single.toSingle_toDouble`: **double precision holds every single**, and gives it back.
* `Double.isFinite_toSingle`: **which doubles have a finite single.**
* `Double.dvd_truncate`: a great double is a multiple of a great power of two.
-/

namespace FlowHost

/-- A rational without its fractional part. -/
def towardZero (q : ℚ) : ℤ := if q < 0 then ⌈q⌉ else ⌊q⌋

namespace FloatFormat

variable {f : FloatFormat} {w : Nat}

/-- What is taken from an exponent field. -/
def bias (f : FloatFormat) : Nat := Nat.pow 2 (f.exponentBits - 1) - 1

/-- Minus one for a word with the sign bit, and one for others. -/
def sign (f : FloatFormat) (w : Nat) : ℚ := if f.isNegative w then -1 else 1

/-- **The rational that a finite word denotes.** The fraction follows a one, or a zero where the exponent field is
zero. -/
def value (f : FloatFormat) (w : Nat) : ℚ :=
  if f.exponentField w = 0 then
    f.sign w * (f.fraction w / (f.fractions : ℚ)) * 2 ^ (1 - (f.bias : ℤ))
  else
    f.sign w * (1 + f.fraction w / (f.fractions : ℚ)) * 2 ^ ((f.exponentField w : ℤ) - f.bias)

theorem pow_two_add (a b : Nat) : Nat.pow 2 (a + b) = Nat.pow 2 a * Nat.pow 2 b := Nat.pow_add 2 a b

theorem pow_two_mono {a b : Nat} (h : a ≤ b) : Nat.pow 2 a ≤ Nat.pow 2 b := Nat.pow_le_pow_right (by decide) h

theorem unitExponent_eq (hf : 1 < f.exponentBits) : f.unitExponent + 1 = f.bias + f.fractionBits := by
  have hpow : Nat.pow 2 1 ≤ Nat.pow 2 (f.exponentBits - 1) := Nat.pow_le_pow_right (by decide) (by omega)
  have htwo : Nat.pow 2 1 = 2 := rfl
  unfold unitExponent bias
  omega

/-- **A value is a number of units**, with a sign. -/
theorem value_eq (hf : 1 < f.exponentBits) (w : Nat) :
    f.value w = f.sign w * (f.units w / (Nat.pow 2 f.unitExponent : Nat)) := by
  have hunit := unitExponent_eq hf
  have hfractions : (f.fractions : ℚ) = 2 ^ (f.fractionBits : ℤ) := by
    rw [fractions, Nat.pow_eq]
    push_cast
    rfl
  have hunits : ((Nat.pow 2 f.unitExponent : Nat) : ℚ) = 2 ^ (f.unitExponent : ℤ) := by
    rw [Nat.pow_eq]
    push_cast
    rfl
  have hexponent : (f.unitExponent : ℤ) = f.bias + f.fractionBits - 1 := by omega
  have htwo : (2 : ℚ) ≠ 0 := by norm_num
  rw [value, hunits, hfractions, hexponent]
  by_cases hfield : f.exponentField w = 0
  · rw [if_pos hfield, units, if_pos hfield, mul_assoc]
    congr 1
    rw [div_mul_eq_mul_div, div_eq_div_iff (zpow_ne_zero _ htwo) (zpow_ne_zero _ htwo), mul_assoc, ← zpow_add₀ htwo]
    congr 2
    ring
  · obtain ⟨n, hn⟩ := Nat.exists_eq_succ_of_ne_zero hfield
    have hcast : (f.units w : ℚ) = (2 ^ (f.fractionBits : ℤ) + f.fraction w) * 2 ^ (n : ℤ) := by
      rw [units, if_neg hfield, hn, Nat.pow_eq, Nat.pow_eq]
      push_cast
      rfl
    rw [if_neg hfield, hcast, hn, mul_assoc]
    congr 1
    rw [one_add_div (zpow_ne_zero _ htwo), div_mul_eq_mul_div,
      div_eq_div_iff (zpow_ne_zero _ htwo) (zpow_ne_zero _ htwo), mul_assoc, mul_assoc, ← zpow_add₀ htwo,
      ← zpow_add₀ htwo]
    congr 2
    push_cast
    ring

theorem abs_value (hf : 1 < f.exponentBits) (w : Nat) :
    |f.value w| = f.units w / (Nat.pow 2 f.unitExponent : Nat) := by
  have hsign : |f.sign w| = 1 := by
    unfold sign
    split <;> simp
  rw [value_eq hf, abs_mul, hsign, one_mul, abs_of_nonneg]
  positivity

/-- **Truncation takes the value toward zero.** -/
theorem truncate_eq (hf : 1 < f.exponentBits) (w : Nat) : f.truncate w = towardZero (f.value w) := by
  have hfloor : ⌊(f.units w : ℚ) / (Nat.pow 2 f.unitExponent : Nat)⌋ =
      ((f.units w / Nat.pow 2 f.unitExponent : Nat) : ℤ) := by
    rw [Rat.floor_natCast_div_natCast]
    rfl
  have hpos : 0 < ((Nat.pow 2 f.unitExponent : Nat) : ℚ) := Nat.cast_pos.2 f.unit_pos
  rw [value_eq hf, towardZero, truncate]
  by_cases hsign : f.isNegative w = true
  · simp only [sign, if_pos hsign, neg_one_mul, neg_lt_zero, Int.ceil_neg, hfloor]
    split
    · rfl
    · rename_i hzero
      have hunits : f.units w = 0 := by
        by_contra hne
        exact hzero (div_pos (Nat.cast_pos.2 (Nat.pos_of_ne_zero hne)) hpos)
      simp [hunits]
  · have hle : ¬ (f.units w : ℚ) / (Nat.pow 2 f.unitExponent : Nat) < 0 := by
      rw [not_lt]
      positivity
    simp only [sign, if_neg hsign, one_mul]
    rw [if_neg hle, hfloor]

/-- **A great value is a multiple of a power of two.** -/
theorem dvd_units {n : Nat} (h : 2 * f.fractions * (Nat.pow 2 f.unitExponent * Nat.pow 2 n) ≤ f.units w) :
    Nat.pow 2 n ∣ f.units w / Nat.pow 2 f.unitExponent := by
  obtain ⟨step, significand, hsplits, hunits⟩ := f.exists_splits w
  rw [← pow_two_add] at h
  have hstep : f.unitExponent + n ≤ step := by
    by_contra hlt
    have hpow : Nat.pow 2 step ≤ Nat.pow 2 (f.unitExponent + n) := pow_two_mono (by omega)
    have hless : significand * Nat.pow 2 step < 2 * f.fractions * Nat.pow 2 step :=
      Nat.mul_lt_mul_of_pos_right hsplits.lt (Nat.pow_pos (by decide))
    have hmul := Nat.mul_le_mul_left (2 * f.fractions) hpow
    omega
  obtain ⟨more, rfl⟩ := Nat.exists_eq_add_of_le hstep
  refine ⟨significand * Nat.pow 2 more, Nat.div_eq_of_eq_mul_right f.unit_pos ?_⟩
  rw [hunits, pow_two_add, pow_two_add]
  ring

end FloatFormat

open FloatFormat

/-- The rational that a finite single denotes. -/
def Single.value (x : Single) : ℚ := single.value x.bits.toNat

/-- The rational that a finite double denotes. -/
def Double.value (x : Double) : ℚ := double.value x.bits.toNat

namespace Single

variable {x : Single}

theorem bits_lt (x : Single) : x.bits.toNat < 2 * single.signBit := x.bits.toNat_lt

/-- A single from a word of its layout. -/
theorem toNat_ofNat {w : Nat} (hw : w < 2 * single.signBit) : (UInt32.ofNat w).toNat = w :=
  UInt32.toNat_ofNat_of_lt' hw

theorem isFinite_iff (x : Single) : x.isFinite = true ↔ single.magnitude x.bits.toNat < single.infinity :=
  FloatFormat.isFinite_iff _ _

/-- **Integers of 64 bits have finite singles.** -/
theorem isFinite_ofInt {i : Int} (hi : i.natAbs ≤ 2 ^ 64) : (ofInt i).isFinite = true := by
  have hlt : single.ofInt i < 2 * single.signBit := round_lt _ _ _
  have hmagnitude : single.magnitude (single.ofInt i) = single.roundMagnitude i.natAbs 1 := magnitude_round _ _ _
  rw [isFinite_iff, ofInt, toNat_ofNat hlt, hmagnitude, roundMagnitude_lt_infinity (by decide) Nat.one_pos]
  have hunit : Nat.pow 2 single.unitExponent = 2 ^ 149 := rfl
  have hsteps : Nat.pow 2 single.stepLimit = 2 ^ 254 := rfl
  have hfractions : single.fractions = 2 ^ 23 := rfl
  rw [hunit, hsteps, hfractions]
  omega

end Single

namespace Double

variable {x : Double}

/-- A double from a word of its layout. -/
theorem toNat_ofNat {w : Nat} (hw : w < 2 * double.signBit) : (UInt64.ofNat w).toNat = w :=
  UInt64.toNat_ofNat_of_lt' hw

theorem isFinite_iff (x : Double) : x.isFinite = true ↔ double.magnitude x.bits.toNat < double.infinity :=
  FloatFormat.isFinite_iff _ _

/-- **Integers of 64 bits have finite doubles.** -/
theorem isFinite_ofInt {i : Int} (hi : i.natAbs ≤ 2 ^ 64) : (ofInt i).isFinite = true := by
  have hlt : double.ofInt i < 2 * double.signBit := round_lt _ _ _
  have hmagnitude : double.magnitude (double.ofInt i) = double.roundMagnitude i.natAbs 1 := magnitude_round _ _ _
  rw [isFinite_iff, ofInt, toNat_ofNat hlt, hmagnitude, roundMagnitude_lt_infinity (by decide) Nat.one_pos]
  obtain ⟨more, hmore, hlimit⟩ : ∃ more, 20 ≤ more ∧ double.stepLimit = double.unitExponent + more :=
    ⟨972, by decide, rfl⟩
  have hfractions : double.fractions = 2 ^ 52 := rfl
  have htwenty : Nat.pow 2 20 = 2 ^ 20 := rfl
  have hunit := double.unit_pos
  rw [hlimit, pow_two_add, hfractions]
  generalize Nat.pow 2 double.unitExponent = n at hunit ⊢
  have hleft := Nat.mul_le_mul_right n hi
  have hright := Nat.mul_le_mul_left n (htwenty ▸ pow_two_mono hmore)
  omega

theorem truncate_eq (x : Double) : x.truncate = towardZero x.value := FloatFormat.truncate_eq (by decide) _

/-- The word of the single that is made of a double. -/
theorem bits_toSingle (x : Double) : x.toSingle.bits.toNat = double.convert single x.bits.toNat :=
  Single.toNat_ofNat (round_lt _ _ _)

/-- **Which doubles have a finite single**: those below the middle between the greatest single and what would come
next. -/
theorem isFinite_toSingle (x : Double) : x.toSingle.isFinite = true ↔ |x.value| < 2 ^ 128 - 2 ^ 103 := by
  have hmagnitude : single.magnitude (double.convert single x.bits.toNat) =
      single.roundMagnitude (double.units x.bits.toNat) (Nat.pow 2 double.unitExponent) := magnitude_round _ _ _
  have hunit : Nat.pow 2 single.unitExponent = 2 ^ 149 := rfl
  have hsteps : Nat.pow 2 single.stepLimit = 2 ^ 254 := rfl
  have hfractions : single.fractions = 2 ^ 23 := rfl
  rw [Single.isFinite_iff, bits_toSingle, hmagnitude, roundMagnitude_lt_infinity (by decide) double.unit_pos,
    hunit, hsteps, hfractions, value, abs_value (by decide), div_lt_iff₀ (Nat.cast_pos.2 double.unit_pos)]
  generalize double.units x.bits.toNat = u
  generalize Nat.pow 2 double.unitExponent = n
  have hbound : ((2 : ℚ) ^ 128 - 2 ^ 103) * n = ((2 ^ 128 - 2 ^ 103) * n : Nat) := by
    push_cast
    norm_num
  rw [hbound, Nat.cast_lt]
  omega

/-- **A great double is a multiple of a power of two.** -/
theorem dvd_truncate (h : 2 ^ 127 ≤ |x.value|) : (2 ^ 64 : Int) ∣ x.truncate := by
  rw [value, abs_value (by decide), le_div_iff₀ (Nat.cast_pos.2 double.unit_pos)] at h
  have hgreat : 2 ^ 127 * Nat.pow 2 double.unitExponent ≤ double.units x.bits.toNat := by exact_mod_cast h
  have hword : Nat.pow 2 64 = 2 ^ 64 := rfl
  have hfractions : double.fractions = 2 ^ 52 := rfl
  have hlarge : 2 * double.fractions * (Nat.pow 2 double.unitExponent * Nat.pow 2 64) ≤ double.units x.bits.toNat := by
    generalize Nat.pow 2 double.unitExponent = n at hgreat ⊢
    rw [hword, hfractions]
    omega
  have hdvd := dvd_units hlarge
  have hmagnitude : (2 ^ 64 : Int) ∣ ((double.units x.bits.toNat / Nat.pow 2 double.unitExponent : Nat) : Int) := by
    generalize double.units x.bits.toNat / Nat.pow 2 double.unitExponent = q at hdvd
    rw [hword] at hdvd
    exact_mod_cast hdvd
  rw [truncate, FloatFormat.truncate]
  split
  · exact hmagnitude.neg_right
  · exact hmagnitude

end Double

namespace Single

variable {x : Single}

/-- The word of the double that is made of a single. -/
theorem bits_toDouble (x : Single) : x.toDouble.bits.toNat = single.convert double x.bits.toNat :=
  Double.toNat_ofNat (round_lt _ _ _)

theorem isFinite_toDouble (h : x.isFinite = true) : x.toDouble.isFinite = true := by
  rw [Double.isFinite_iff, bits_toDouble]
  exact (units_convert single_extends (x.isFinite_iff.1 h)).1

/-- **Double precision holds every single.** -/
theorem value_toDouble (h : x.isFinite = true) : x.toDouble.value = x.value := by
  obtain ⟨shift, hext⟩ : ∃ shift, single.Extends double shift := ⟨925, single_extends⟩
  have hsign : double.sign (single.convert double x.bits.toNat) = single.sign x.bits.toNat := by
    unfold sign
    rw [convert, isNegative_round]
  have hunit : Nat.pow 2 double.unitExponent = Nat.pow 2 single.unitExponent * Nat.pow 2 shift := by
    rw [hext.unit, pow_two_add]
  have hpos : ((Nat.pow 2 shift : Nat) : ℚ) ≠ 0 := Nat.cast_ne_zero.2 (Nat.pow_pos (by decide)).ne'
  rw [Double.value, value, bits_toDouble, value_eq (by decide), value_eq (by decide), hsign, hunit,
    (units_convert hext (x.isFinite_iff.1 h)).2, Nat.cast_mul, Nat.cast_mul, mul_div_mul_right _ _ hpos]

/-- **A single comes back** from double precision. -/
theorem toSingle_toDouble (h : x.isFinite = true) : x.toDouble.toSingle = x := by
  have hbits : x.toDouble.toSingle.bits.toNat = x.bits.toNat := by
    rw [Double.bits_toSingle, bits_toDouble]
    exact convert_convert single_extends x.bits_lt (x.isFinite_iff.1 h)
  cases x
  exact congrArg Single.mk (UInt32.toNat_inj.1 hbits)

end Single

end FlowHost
