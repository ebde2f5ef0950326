import FlowHost.Number.Binary
import Mathlib.Algebra.Order.Ring.Nat
import Mathlib.Tactic.Linarith
import Mathlib.Tactic.Ring

/-!
# Rounding to binary words

A word without its sign is a step and a significand: `magnitude = step · 2 ^ fractionBits + significand`, and what it
denotes is `significand · 2 ^ step` units. So the order of words is the order of what they denote, rounding leaves
alone what a word denotes already, and it is plain from the number itself whether it rounds to a finite word.

* `FloatFormat.units_strictMono`: **a greater magnitude denotes more.**
* `FloatFormat.units_roundMagnitude`: a number of few enough digits is rounded to a word that denotes it.
* `FloatFormat.roundMagnitude_lt_infinity`: **which numbers round to a finite word.**
* `FloatFormat.convert_convert`: a word comes back from a layout in which its value can be written.
-/

namespace FlowHost.FloatFormat

variable (f : FloatFormat) {w w' num den : Nat}

/-- A word without its sign. -/
def magnitude (w : Nat) : Nat := w % f.signBit

/-- The number of fractions. -/
def fractions : Nat := Nat.pow 2 f.fractionBits

theorem fractions_pos : 0 < f.fractions := Nat.pow_pos (by decide)

theorem signBit_eq : f.signBit = f.fractions * Nat.pow 2 f.exponentBits := Nat.pow_add 2 _ _

theorem signBit_pos : 0 < f.signBit := Nat.pow_pos (by decide)

theorem unit_pos : 0 < Nat.pow 2 f.unitExponent := Nat.pow_pos (by decide)

theorem infinity_eq : f.infinity = (Nat.pow 2 f.exponentBits - 1) * f.fractions := rfl

theorem infinity_lt_signBit : f.infinity < f.signBit := by
  have hpow : 0 < Nat.pow 2 f.exponentBits := Nat.pow_pos (by decide)
  rw [signBit_eq, infinity_eq, Nat.mul_comm f.fractions]
  exact Nat.mul_lt_mul_of_pos_right (by omega) f.fractions_pos

theorem magnitude_lt (w : Nat) : f.magnitude w < f.signBit := Nat.mod_lt _ f.signBit_pos

theorem exponentField_eq (w : Nat) : f.exponentField w = f.magnitude w / f.fractions := by
  rw [magnitude, signBit_eq, Nat.mod_mul_right_div_self]
  rfl

theorem fraction_eq (w : Nat) : f.fraction w = f.magnitude w % f.fractions := by
  rw [magnitude, signBit_eq, Nat.mod_mul_right_mod]
  rfl

/-- **The finite words** are those below infinity. -/
theorem isFinite_iff (w : Nat) : f.isFinite w = true ↔ f.magnitude w < f.infinity := by
  have hfield : f.magnitude w / f.fractions < Nat.pow 2 f.exponentBits := by
    rw [Nat.div_lt_iff_lt_mul f.fractions_pos, Nat.mul_comm, ← signBit_eq]
    exact f.magnitude_lt w
  rw [isFinite, bne_iff_ne, exponentField_eq, infinity_eq, ← Nat.div_lt_iff_lt_mul f.fractions_pos, topField]
  omega

/-! ### Steps and significands -/

/-- **A magnitude as a step and a significand**, which is below one only at the first step. -/
structure Splits (m step significand : Nat) : Prop where
  eq : m = step * f.fractions + significand
  lt : significand < 2 * f.fractions
  le : step ≠ 0 → f.fractions ≤ significand

theorem exists_splits (w : Nat) : ∃ step significand, f.Splits (f.magnitude w) step significand ∧
    f.units w = significand * Nat.pow 2 step := by
  have hpos := f.fractions_pos
  have hdiv := Nat.div_add_mod (f.magnitude w) f.fractions
  have hmod := Nat.mod_lt (f.magnitude w) hpos
  rw [← exponentField_eq, ← fraction_eq] at hdiv
  rw [← fraction_eq] at hmod
  by_cases hfield : f.exponentField w = 0
  · refine ⟨0, f.fraction w, ⟨?_, by omega, fun h => absurd rfl h⟩, ?_⟩
    · rw [hfield] at hdiv
      omega
    · simp [units, hfield]
  · refine ⟨f.exponentField w - 1, f.fractions + f.fraction w, ⟨?_, by omega, fun _ => by omega⟩, ?_⟩
    · obtain ⟨n, hn⟩ := Nat.exists_eq_succ_of_ne_zero hfield
      rw [← hdiv, hn]
      simp only [Nat.succ_sub_one, Nat.mul_succ, Nat.mul_comm n]
      omega
    · simp [units, hfield, fractions]

variable {f} {m m' step step' significand significand' : Nat}

/-- The order of magnitudes is the one of steps and significands. -/
theorem Splits.step_le (h : f.Splits m step significand) (h' : f.Splits m' step' significand') (hle : m ≤ m') :
    step ≤ step' := by
  by_contra hlt
  have hstep : (step' + 1) * f.fractions ≤ step * f.fractions := Nat.mul_le_mul_right _ (by omega)
  have hbig := h.le (by omega)
  have heq := h.eq
  have heq' := h'.eq
  have hlt' := h'.lt
  rw [Nat.add_mul, Nat.one_mul] at hstep
  omega

theorem Splits.unique (h : f.Splits m step significand) (h' : f.Splits m step' significand') :
    step = step' ∧ significand = significand' := by
  have hstep : step = step' := Nat.le_antisymm (h.step_le h' (Nat.le_refl m)) (h'.step_le h (Nat.le_refl m))
  subst hstep
  have heq := h.eq
  have heq' := h'.eq
  omega

/-- What a word of a step and a significand denotes. -/
theorem Splits.units_eq (h : f.Splits (f.magnitude w) step significand) : f.units w = significand * Nat.pow 2 step := by
  obtain ⟨s, c, hs, hunits⟩ := f.exists_splits w
  obtain ⟨rfl, rfl⟩ := hs.unique h
  exact hunits

/-- **A greater magnitude denotes more.** -/
theorem units_strictMono (h : f.magnitude w < f.magnitude w') : f.units w < f.units w' := by
  obtain ⟨s, c, hs, hunits⟩ := f.exists_splits w
  obtain ⟨s', c', hs', hunits'⟩ := f.exists_splits w'
  have hpos : 0 < Nat.pow 2 s := Nat.pow_pos (by decide)
  rw [hunits, hunits']
  obtain heq | hlt := Nat.eq_or_lt_of_le (hs.step_le hs' (Nat.le_of_lt h))
  · subst heq
    have hc : c < c' := by
      have heq := hs.eq
      have heq' := hs'.eq
      omega
    exact Nat.mul_lt_mul_of_pos_right hc hpos
  · have hpow : Nat.pow 2 (s + 1) ≤ Nat.pow 2 s' := Nat.pow_le_pow_right (by decide) hlt
    calc c * Nat.pow 2 s < 2 * f.fractions * Nat.pow 2 s := Nat.mul_lt_mul_of_pos_right hs.lt hpos
      _ = f.fractions * Nat.pow 2 (s + 1) := by
        simp only [Nat.pow_eq, Nat.pow_succ]
        ring
      _ ≤ c' * Nat.pow 2 s' := Nat.mul_le_mul (hs'.le (by omega)) hpow

/-- Words that denote the same differ at most in their signs. -/
theorem magnitude_eq_of_units (h : f.units w = f.units w') : f.magnitude w = f.magnitude w' := by
  obtain hlt | heq | hlt := Nat.lt_trichotomy (f.magnitude w) (f.magnitude w')
  · exact absurd h (Nat.ne_of_lt (units_strictMono hlt))
  · exact heq
  · exact absurd h.symm (Nat.ne_of_lt (units_strictMono hlt))

/-! ### The nearest whole number -/

theorem nearest_mul (q : Nat) (hden : 0 < den) : nearest (q * den) den = q := by
  simp [nearest, Nat.mul_div_cancel q hden, hden]

theorem le_nearest {q : Nat} (hden : 0 < den) (h : q * den ≤ num) : q ≤ nearest num den := by
  have hq : q ≤ num / den := (Nat.le_div_iff_mul_le hden).2 h
  simp only [nearest]
  split
  · exact hq
  · split <;> omega

theorem nearest_le {q : Nat} (hden : 0 < den) (h : num < q * den) : nearest num den ≤ q := by
  have hq : num / den < q := (Nat.div_lt_iff_lt_mul hden).2 h
  simp only [nearest]
  split
  · omega
  · split
    · omega
    · have := Nat.mod_lt (num / den) (by decide : 2 > 0)
      omega

/-- An odd number is nearest up to half way to the next. -/
theorem nearest_le_odd {q : Nat} (hden : 0 < den) (hq : q % 2 = 1) :
    nearest num den ≤ q ↔ 2 * num < (2 * q + 1) * den := by
  have hdiv := Nat.div_add_mod num den
  have hmod := Nat.mod_lt num hden
  obtain hlt | heq | hgt := Nat.lt_trichotomy (num / den) q
  · have hle : (num / den + 1) * den ≤ q * den := Nat.mul_le_mul_right den hlt
    have hnum : num < q * den := by
      rw [Nat.add_mul, Nat.one_mul, Nat.mul_comm _ den] at hle
      omega
    refine iff_of_true (nearest_le hden hnum) ?_
    rw [Nat.add_mul, Nat.mul_assoc, Nat.one_mul]
    omega
  · rw [heq] at hdiv
    have hodd : (2 * q + 1) * den = 2 * (den * q) + den := by ring
    rw [hodd]
    simp only [nearest, heq]
    split
    · exact iff_of_true (Nat.le_refl q) (by omega)
    · split
      · exact iff_of_false (by omega) (by omega)
      · exact iff_of_false (by omega) (by omega)
  · have hle : (q + 1) * den ≤ num := (Nat.le_div_iff_mul_le hden).1 hgt
    refine iff_of_false (Nat.not_le.2 (le_nearest hden hle)) ?_
    rw [Nat.add_mul, Nat.one_mul] at hle
    rw [Nat.add_mul, Nat.mul_assoc, Nat.one_mul]
    omega

/-! ### Rounding -/

variable (f)

/-- The step of the word that a number is rounded to, or the one before. -/
def roundingStep (num den : Nat) : Nat :=
  let whole := num * Nat.pow 2 f.unitExponent / den
  if whole < Nat.pow 2 (f.fractionBits + 1) then 0 else whole.log2 - f.fractionBits

theorem roundMagnitude_eq (num den : Nat) :
    f.roundMagnitude num den =
      min (f.roundingStep num den * f.fractions +
        nearest (num * Nat.pow 2 f.unitExponent) (den * Nat.pow 2 (f.roundingStep num den))) f.infinity := rfl

/-- **At its step a number has a significand**, if it is not too small for that. -/
theorem roundingStep_bounds (num : Nat) (hden : 0 < den) :
    num * Nat.pow 2 f.unitExponent < 2 * f.fractions * (den * Nat.pow 2 (f.roundingStep num den)) ∧
      (f.roundingStep num den ≠ 0 →
        f.fractions * (den * Nat.pow 2 (f.roundingStep num den)) ≤ num * Nat.pow 2 f.unitExponent) := by
  have htwice : Nat.pow 2 (f.fractionBits + 1) = 2 * f.fractions := by
    rw [fractions, Nat.pow_eq, Nat.pow_eq, Nat.pow_succ, Nat.mul_comm]
  unfold roundingStep
  simp only
  set scaled := num * Nat.pow 2 f.unitExponent
  split
  · rename_i hsmall
    rw [htwice, Nat.div_lt_iff_lt_mul hden] at hsmall
    exact ⟨by simpa using hsmall, fun h => absurd rfl h⟩
  · rename_i hbig
    set whole := scaled / den
    have hwhole : whole ≠ 0 := by
      have := f.fractions_pos
      omega
    have hlog : f.fractionBits + 1 ≤ whole.log2 := (Nat.le_log2 hwhole).2 (Nat.le_of_not_lt hbig)
    have hself := Nat.log2_self_le hwhole
    have hnext : whole < 2 ^ (whole.log2 + 1) := Nat.lt_log2_self
    have hsplit : 2 ^ whole.log2 = f.fractions * 2 ^ (whole.log2 - f.fractionBits) := by
      rw [fractions, Nat.pow_eq, ← Nat.pow_add]
      congr 1
      omega
    rw [Nat.pow_succ, hsplit] at hnext
    rw [hsplit] at hself
    have hnext := (Nat.div_lt_iff_lt_mul hden).1 hnext
    have hself := (Nat.le_div_iff_mul_le hden).1 hself
    simp only [Nat.pow_eq]
    refine ⟨hnext.trans_eq ?_, fun _ => (Nat.le_of_eq ?_).trans hself⟩ <;> ring

/-- The magnitudes of the finite words end below this step. -/
def stepLimit : Nat := Nat.pow 2 f.exponentBits - 2

variable {f}

theorem infinity_eq_steps (hf : 1 < f.exponentBits) : f.infinity = (f.stepLimit + 1) * f.fractions := by
  have hpow : Nat.pow 2 2 ≤ Nat.pow 2 f.exponentBits := Nat.pow_le_pow_right (by decide) hf
  have hfour : Nat.pow 2 2 = 4 := rfl
  rw [infinity_eq, stepLimit]
  congr 1
  omega

/-- **Which numbers round to a finite word**: those below the middle between the greatest and what would come
next. -/
theorem roundMagnitude_lt_infinity (hf : 1 < f.exponentBits) (hden : 0 < den) :
    f.roundMagnitude num den < f.infinity ↔
      4 * (num * Nat.pow 2 f.unitExponent) < (4 * f.fractions - 1) * (den * Nat.pow 2 f.stepLimit) := by
  have hpos := f.fractions_pos
  have hpow : Nat.pow 2 2 ≤ Nat.pow 2 f.exponentBits := Nat.pow_le_pow_right (by decide) hf
  have hfour : Nat.pow 2 2 = 4 := rfl
  obtain ⟨top, htop⟩ : ∃ top, f.stepLimit = top + 1 := ⟨f.stepLimit - 1, by unfold stepLimit; omega⟩
  obtain ⟨hlt, hle⟩ := f.roundingStep_bounds num hden
  rw [roundMagnitude_eq, infinity_eq_steps hf, htop]
  set step := f.roundingStep num den
  set scaled := num * Nat.pow 2 f.unitExponent
  have hd : 0 < den * Nat.pow 2 step := Nat.mul_pos hden (Nat.pow_pos (by decide))
  have hnearest := nearest_le hd hlt
  have hdouble : den * Nat.pow 2 (top + 1) = 2 * (den * Nat.pow 2 top) := by
    simp only [Nat.pow_eq, Nat.pow_succ]
    ring
  have hminus (x : Nat) : (4 * f.fractions - 1) * x = 4 * (f.fractions * x) - x := by
    rw [Nat.sub_mul, Nat.mul_assoc, Nat.one_mul]
  have hone (x : Nat) : x ≤ f.fractions * x := Nat.le_mul_of_pos_left x hpos
  rw [hdouble, hminus]
  set d := den * Nat.pow 2 top
  have hdpos : 0 < d := Nat.mul_pos hden (Nat.pow_pos (by decide))
  have hself := hone (2 * d)
  obtain hbelow | hat | habove := Nat.lt_trichotomy step top
  · -- one step less, and the number is too small by half
    have hsmall : den * Nat.pow 2 (step + 1) ≤ d :=
      Nat.mul_le_mul_left den (Nat.pow_le_pow_right (by decide) hbelow)
    have hscaled : scaled < f.fractions * d := by
      refine Nat.lt_of_lt_of_le hlt ?_
      calc 2 * f.fractions * (den * Nat.pow 2 step) = f.fractions * (den * Nat.pow 2 (step + 1)) := by
            simp only [Nat.pow_eq, Nat.pow_succ]
            ring
        _ ≤ f.fractions * d := Nat.mul_le_mul_left _ hsmall
    have hsteps : (step + 1) * f.fractions ≤ top * f.fractions := Nat.mul_le_mul_right _ hbelow
    have htwo : f.fractions * (2 * d) = 2 * (f.fractions * d) := by ring
    refine iff_of_true (Nat.lt_of_le_of_lt (Nat.min_le_left _ _) ?_) (by omega)
    rw [Nat.add_mul, Nat.one_mul] at hsteps
    have hexpand : (top + 1 + 1) * f.fractions = top * f.fractions + 2 * f.fractions := by ring
    omega
  · -- at the last step the greatest significand is odd
    have hodd : (2 * f.fractions - 1) % 2 = 1 := by omega
    have hiff : nearest scaled (den * Nat.pow 2 step) ≤ _ ↔ _ := nearest_le_odd hd hodd
    have hexpand : (top + 1 + 1) * f.fractions = top * f.fractions + 2 * f.fractions := by ring
    have hhalf : (2 * (2 * f.fractions - 1) + 1) * d = 4 * (f.fractions * d) - d := by
      rw [← hminus]
      congr 1
      omega
    rw [hat] at hiff ⊢
    rw [hexpand, min_lt_iff]
    rw [hhalf] at hiff
    have htwo : f.fractions * (2 * d) = 2 * (f.fractions * d) := by ring
    omega
  · -- one step more, and it is too great
    have hle := hle (by omega)
    have hbig : 2 * d ≤ den * Nat.pow 2 step := by
      rw [← hdouble]
      exact Nat.mul_le_mul_left den (Nat.pow_le_pow_right (by decide) habove)
    have hscaled := (Nat.mul_le_mul_left f.fractions hbig).trans hle
    have hsteps : (top + 1) * f.fractions ≤ step * f.fractions := Nat.mul_le_mul_right _ habove
    have hnear := le_nearest hd hle
    have hexpand : (top + 1 + 1) * f.fractions = (top + 1) * f.fractions + f.fractions := by ring
    exact iff_of_false (by omega) (by omega)

theorem Splits.step_lt (hf : 1 < f.exponentBits) (h : f.Splits m step significand) (hm : m < f.infinity) :
    step < f.stepLimit := by
  rw [infinity_eq_steps hf, h.eq] at hm
  by_contra hle
  have hpow : Nat.pow 2 2 ≤ Nat.pow 2 f.exponentBits := Nat.pow_le_pow_right (by decide) hf
  have hfour : Nat.pow 2 2 = 4 := rfl
  have hsignificand := h.le (by unfold stepLimit at hle; omega)
  have hsteps : f.stepLimit * f.fractions ≤ step * f.fractions := Nat.mul_le_mul_right _ (by omega)
  rw [Nat.add_mul, Nat.one_mul] at hm
  omega

/-- What a step and a significand make is a finite magnitude. -/
theorem Splits.lt_infinity (hf : 1 < f.exponentBits) (h : f.Splits m step significand) (hstep : step < f.stepLimit) :
    m < f.infinity := by
  have hsteps : (step + 1) * f.fractions ≤ f.stepLimit * f.fractions := Nat.mul_le_mul_right _ hstep
  have hlt := h.lt
  rw [infinity_eq_steps hf, h.eq]
  rw [Nat.add_mul, Nat.one_mul] at hsteps ⊢
  omega

/-- **Rounding leaves alone what a word can denote**: a number of units of few enough digits. -/
theorem units_roundMagnitude (hf : 1 < f.exponentBits) {c k : Nat} (hden : 0 < den)
    (h : num * Nat.pow 2 f.unitExponent = c * Nat.pow 2 k * den) (hc : c < 2 * f.fractions)
    (hk : k < f.stepLimit) :
    f.roundMagnitude num den < f.infinity ∧ f.units (f.roundMagnitude num den) = c * Nat.pow 2 k := by
  obtain ⟨hlt, hle⟩ := f.roundingStep_bounds num hden
  rw [roundMagnitude_eq]
  rw [h] at hlt hle ⊢
  set step := f.roundingStep num den
  have hd : 0 < den * Nat.pow 2 step := Nat.mul_pos hden (Nat.pow_pos (by decide))
  have hstep : step ≤ k := by
    by_contra hgt
    have hpow : Nat.pow 2 (k + 1) ≤ Nat.pow 2 step := Nat.pow_le_pow_right (by decide) (by omega)
    have hbig := (Nat.mul_le_mul_left f.fractions (Nat.mul_le_mul_left den hpow)).trans (hle (by omega))
    have hless : c * Nat.pow 2 k * den < 2 * f.fractions * (Nat.pow 2 k * den) := by
      rw [Nat.mul_assoc]
      exact Nat.mul_lt_mul_of_pos_right hc (Nat.mul_pos (Nat.pow_pos (by decide)) hden)
    have hsame : f.fractions * (den * Nat.pow 2 (k + 1)) = 2 * f.fractions * (Nat.pow 2 k * den) := by
      simp only [Nat.pow_eq, Nat.pow_succ]
      ring
    omega
  obtain ⟨j, rfl⟩ := Nat.exists_eq_add_of_le hstep
  have hfactor : c * Nat.pow 2 (step + j) * den = c * Nat.pow 2 j * (den * Nat.pow 2 step) := by
    simp only [Nat.pow_eq, Nat.pow_add]
    ring
  rw [hfactor] at hlt hle ⊢
  rw [nearest_mul _ hd]
  have hsplits : f.Splits (step * f.fractions + c * Nat.pow 2 j) step (c * Nat.pow 2 j) :=
    ⟨rfl, Nat.lt_of_mul_lt_mul_right hlt, fun h => Nat.le_of_mul_le_mul_right (hle h) hd⟩
  have hfinite := hsplits.lt_infinity hf (Nat.lt_of_le_of_lt hstep hk)
  rw [Nat.min_eq_left (Nat.le_of_lt hfinite)]
  have hmagnitude : f.magnitude (step * f.fractions + c * Nat.pow 2 j) = step * f.fractions + c * Nat.pow 2 j :=
    Nat.mod_eq_of_lt (hfinite.trans f.infinity_lt_signBit)
  refine ⟨hfinite, ?_⟩
  rw [Splits.units_eq (hmagnitude.symm ▸ hsplits)]
  simp only [Nat.pow_eq, Nat.pow_add]
  ring

/-! ### Signs -/

theorem roundMagnitude_lt (num den : Nat) : f.roundMagnitude num den < f.signBit :=
  Nat.lt_of_le_of_lt (Nat.min_le_right _ _) f.infinity_lt_signBit

theorem round_lt (negative : Bool) (num den : Nat) : f.round negative num den < 2 * f.signBit := by
  have hlt := roundMagnitude_lt (f := f) num den
  unfold round
  split <;> omega

theorem magnitude_round (negative : Bool) (num den : Nat) :
    f.magnitude (f.round negative num den) = f.roundMagnitude num den := by
  have hlt := roundMagnitude_lt (f := f) num den
  unfold round magnitude
  split
  · rw [Nat.add_mod_left, Nat.mod_eq_of_lt hlt]
  · rw [Nat.zero_add, Nat.mod_eq_of_lt hlt]

theorem isNegative_round (negative : Bool) (num den : Nat) :
    f.isNegative (f.round negative num den) = negative := by
  have hlt := roundMagnitude_lt (f := f) num den
  unfold round isNegative
  cases negative with
  | true => simp [Nat.add_div_left _ f.signBit_pos, Nat.div_eq_of_lt hlt]
  | false => simp [Nat.div_eq_of_lt hlt]

/-- What a word denotes does not hang on its sign. -/
theorem units_congr (h : f.magnitude w = f.magnitude w') : f.units w = f.units w' := by
  obtain ⟨s, c, hs, hunits⟩ := f.exists_splits w
  rw [hunits, Splits.units_eq (h ▸ hs)]

/-- A word is its sign and its magnitude. -/
theorem eq_of_magnitude (hw : w < 2 * f.signBit) (hw' : w' < 2 * f.signBit)
    (hsign : f.isNegative w = f.isNegative w') (h : f.magnitude w = f.magnitude w') : w = w' := by
  have hdiv : w / f.signBit < 2 := (Nat.div_lt_iff_lt_mul f.signBit_pos).2 hw
  have hdiv' : w' / f.signBit < 2 := (Nat.div_lt_iff_lt_mul f.signBit_pos).2 hw'
  unfold isNegative at hsign
  rw [Bool.eq_iff_iff, beq_iff_eq, beq_iff_eq] at hsign
  rw [Nat.mod_eq_of_lt hdiv, Nat.mod_eq_of_lt hdiv'] at hsign
  have hquot : w / f.signBit = w' / f.signBit := by
    generalize w / f.signBit = q at hdiv hsign ⊢
    generalize w' / f.signBit = q' at hdiv' hsign ⊢
    omega
  unfold magnitude at h
  rw [← Nat.div_add_mod w f.signBit, ← Nat.div_add_mod w' f.signBit, hquot, h]

/-! ### Other layouts -/

/-- **A layout that another extends**: its unit is `2 ^ shift` of the other's. -/
structure Extends (f g : FloatFormat) (shift : Nat) : Prop where
  bits : 1 < f.exponentBits
  bits' : 1 < g.exponentBits
  unit : g.unitExponent = f.unitExponent + shift
  fractions : f.fractions ≤ g.fractions
  steps : f.stepLimit + shift ≤ g.stepLimit

variable {g : FloatFormat} {shift : Nat}

/-- **A finite word can be written in a layout that extends its own.** -/
theorem units_convert (h : f.Extends g shift) (hw : f.magnitude w < f.infinity) :
    g.magnitude (f.convert g w) < g.infinity ∧ g.units (f.convert g w) = f.units w * Nat.pow 2 shift := by
  obtain ⟨step, significand, hsplits, hunits⟩ := f.exists_splits w
  have hstep := hsplits.step_lt h.bits hw
  have hscaled : f.units w * Nat.pow 2 g.unitExponent =
      significand * Nat.pow 2 (step + shift) * Nat.pow 2 f.unitExponent := by
    rw [hunits, h.unit]
    simp only [Nat.pow_eq, Nat.pow_add]
    ring
  have hsignificand : significand < 2 * g.fractions :=
    Nat.lt_of_lt_of_le hsplits.lt (Nat.mul_le_mul_left 2 h.fractions)
  have hsteps := h.steps
  obtain ⟨hfinite, hround⟩ := units_roundMagnitude h.bits' f.unit_pos hscaled hsignificand (by omega)
  have hmagnitude : g.magnitude (f.convert g w) = g.roundMagnitude (f.units w) (Nat.pow 2 f.unitExponent) :=
    magnitude_round _ _ _
  have hself : g.magnitude (g.magnitude (f.convert g w)) = g.magnitude (f.convert g w) := Nat.mod_mod _ _
  rw [← units_congr hself, hmagnitude, hround]
  refine ⟨hfinite, ?_⟩
  rw [hunits]
  simp only [Nat.pow_eq, Nat.pow_add]
  ring

/-- **A finite word comes back** from a layout that extends its own. -/
theorem convert_convert (h : f.Extends g shift) (hlt : w < 2 * f.signBit) (hw : f.magnitude w < f.infinity) :
    g.convert f (f.convert g w) = w := by
  obtain ⟨step, significand, hsplits, hunits⟩ := f.exists_splits w
  obtain ⟨-, hwide⟩ := units_convert h hw
  have hscaled : g.units (f.convert g w) * Nat.pow 2 f.unitExponent =
      significand * Nat.pow 2 step * Nat.pow 2 g.unitExponent := by
    rw [hwide, hunits, h.unit]
    simp only [Nat.pow_eq, Nat.pow_add]
    ring
  obtain ⟨-, hround⟩ := units_roundMagnitude h.bits g.unit_pos hscaled hsplits.lt
    (hsplits.step_lt h.bits hw)
  have hmagnitude : f.magnitude (g.convert f (f.convert g w)) =
      f.roundMagnitude (g.units (f.convert g w)) (Nat.pow 2 g.unitExponent) := magnitude_round _ _ _
  have hself : f.magnitude (f.magnitude (g.convert f (f.convert g w))) =
      f.magnitude (g.convert f (f.convert g w)) := Nat.mod_mod _ _
  refine eq_of_magnitude (round_lt _ _ _) hlt ?_ (magnitude_eq_of_units ?_)
  · exact (isNegative_round _ _ _).trans (isNegative_round _ _ _)
  · rw [← units_congr hself, hmagnitude, hround, hunits]

/-- Double precision extends single precision. -/
theorem single_extends : single.Extends double 925 := by
  refine ⟨?_, ?_, ?_, ?_, ?_⟩ <;> decide

end FlowHost.FloatFormat
