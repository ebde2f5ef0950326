import FlowHost.Proofs.Passing
import FlowHost.Proofs.Spelling
import Mathlib.Order.Bounds.Basic

/-!
# Where a text may be cut

The octets of a text may be cut at its ends and before every octet that does not continue a character
(`Utf8.isBoundary`). These are exactly the places after leading characters, so the last of them within a capacity
is where the longest run of leading characters that fits ends.

* `Utf8.isBoundary_iff`: **a boundary is the end of some leading characters.**
* `Utf8.fitting_greatest`: the octets that fit are those before the greatest boundary within the capacity.
* `Utf8.capacity_lt_fitting`: a cut loses at most three octets of the capacity.
-/

namespace FlowHost.Utf8

/-- **Whether octets may be cut after the first `n`**: at the ends, and before an octet that does not continue a
character. -/
def isBoundary (bs : Bytes) (n : Nat) : Bool :=
  n == 0 || match bs[n]? with
    | some b => !within tailRange b
    | none => n == bs.length

/-- A boundary of a text: the octets before it are those of leading characters. -/
def EndsAt (cs : List Char) (n : Nat) : Prop := ∃ chars, chars <+: cs ∧ (encodeChars chars).length = n

variable {cs : List Char} {c : Char} {n : Nat}

/-- **The first octet of a character does not continue one, and all others do.** -/
theorem encodeChar_lead (c : Char) : ∃ lead tail, encodeChar c = lead :: tail ∧
    within tailRange lead = false ∧ ∀ b ∈ tail, within tailRange b = true := by
  have hv := toNat_valid c
  have hoctet : ∀ n, n < 256 → (UInt8.ofNat n).toNat = n := fun n h => UInt8.toNat_ofNat_of_lt' h
  have hlead : ∀ n, n < 256 → n < 0x80 ∨ 0xBF < n → within tailRange (UInt8.ofNat n) = false := by
    intro n hn h
    rw [Bool.eq_false_iff, ne_eq, within_tailRange, hoctet n hn]
    omega
  have htail : ∀ k, within tailRange (UInt8.ofNat (0x80 + k % 64)) = true := by
    intro k
    rw [within_tailRange, hoctet _ (by omega)]
    omega
  unfold encodeChar
  set v := c.toNat
  by_cases h1 : v < 0x80
  · exact ⟨_, [], if_pos h1, hlead v (by omega) (.inl h1), by simp⟩
  · by_cases h2 : v < 0x800
    · refine ⟨_, _, by rw [if_neg h1, if_pos h2], hlead _ (by omega) (by omega), ?_⟩
      exact List.forall_mem_singleton.2 (htail _)
    · by_cases h3 : v < 0x10000
      · refine ⟨_, _, by rw [if_neg h1, if_neg h2, if_pos h3], hlead _ (by omega) (by omega), ?_⟩
        simp only [List.mem_cons, List.not_mem_nil, or_false, forall_eq_or_imp, forall_eq, htail, and_self]
      · refine ⟨_, _, by rw [if_neg h1, if_neg h2, if_neg h3], hlead _ (by omega) (by omega), ?_⟩
        simp only [List.mem_cons, List.not_mem_nil, or_false, forall_eq_or_imp, forall_eq, htail, and_self]

/-! ### Boundaries of a text -/

/-- A text starts at a boundary. -/
theorem head_encodeChars {b : UInt8} (h : (encodeChars cs)[0]? = some b) : within tailRange b = false := by
  cases cs with
  | nil => cases h
  | cons c cs =>
    obtain ⟨lead, tail, hchar, hlead, -⟩ := encodeChar_lead c
    have hcons : encodeChars (c :: cs) = lead :: (tail ++ encodeChars cs) := by
      rw [encodeChars, List.flatMap_cons, hchar, List.cons_append]
      rfl
    rw [hcons, List.getElem?_cons_zero] at h
    exact Option.some.inj h ▸ hlead

/-- Inside a character there is no boundary. -/
theorem not_isBoundary_inside (h0 : 0 < n) (hn : n < width c) : isBoundary (encodeChars (c :: cs)) n = false := by
  obtain ⟨lead, tail, hchar, -, htail⟩ := encodeChar_lead c
  have hwidth : tail.length + 1 = width c := by rw [← length_encodeChar, hchar, List.length_cons]
  obtain ⟨k, rfl⟩ : ∃ k, n = k + 1 := ⟨n - 1, by omega⟩
  have hk : k < tail.length := by omega
  have hget : (encodeChars (c :: cs))[k + 1]? = some tail[k] := by
    have hcons : encodeChars (c :: cs) = lead :: (tail ++ encodeChars cs) := by
      rw [encodeChars, List.flatMap_cons, hchar, List.cons_append]
      rfl
    rw [hcons, List.getElem?_cons_succ, List.getElem?_append_left hk, List.getElem?_eq_getElem hk]
  simp [isBoundary, hget, htail tail[k] (List.getElem_mem hk)]

/-- After a character the boundaries are those of what follows. -/
theorem isBoundary_after (k : Nat) :
    isBoundary (encodeChars (c :: cs)) (width c + k) = isBoundary (encodeChars cs) k := by
  have hpos := width_pos c
  have happend : encodeChars (c :: cs) = encodeChar c ++ encodeChars cs := List.flatMap_cons
  have hget : (encodeChars (c :: cs))[width c + k]? = (encodeChars cs)[k]? := by
    rw [happend, List.getElem?_append_right (by rw [length_encodeChar]; omega), length_encodeChar,
      Nat.add_sub_cancel_left]
  have hlength := length_encodeChars_cons c cs
  unfold isBoundary
  rw [hget]
  cases hk : (encodeChars cs)[k]? with
  | some b =>
    by_cases h0 : k = 0
    · subst h0
      simp [head_encodeChars hk]
    · have hne : ¬ width c + k = 0 := by omega
      simp only [beq_eq_false_iff_ne.2 hne, beq_eq_false_iff_ne.2 h0]
  | none =>
    have hle := List.getElem?_eq_none_iff.1 hk
    rw [Bool.eq_iff_iff]
    simp only [Bool.or_eq_true, beq_iff_eq]
    omega

theorem endsAt_zero (cs : List Char) : EndsAt cs 0 := ⟨[], List.nil_prefix, rfl⟩

theorem endsAt_cons (h0 : 0 < n) :
    EndsAt (c :: cs) n ↔ width c ≤ n ∧ EndsAt cs (n - width c) := by
  constructor
  · rintro ⟨chars, hchars, hlength⟩
    cases chars with
    | nil => exact absurd hlength (by simp only [encodeChars, List.flatMap_nil, List.length_nil]; omega)
    | cons d chars =>
      obtain ⟨rfl, hrest⟩ := List.cons_prefix_cons.1 hchars
      rw [length_encodeChars_cons] at hlength
      exact ⟨by omega, chars, hrest, by omega⟩
  · rintro ⟨hle, chars, hchars, hlength⟩
    refine ⟨c :: chars, (List.prefix_cons_inj c).2 hchars, ?_⟩
    rw [length_encodeChars_cons]
    omega

/-- **A boundary is the end of some leading characters.** -/
theorem isBoundary_iff : isBoundary (encodeChars cs) n = true ↔ EndsAt cs n := by
  -- along the characters, for any place in what is left of them
  induction cs generalizing n with
  | nil =>
    constructor
    · intro h
      have h0 : n = 0 := by simpa [isBoundary, encodeChars] using h
      exact h0 ▸ endsAt_zero []
    · rintro ⟨chars, hchars, rfl⟩
      rw [List.prefix_nil.1 hchars]
      rfl
  | cons c cs ih =>
    rcases Nat.eq_zero_or_pos n with rfl | h0
    · exact iff_of_true rfl (endsAt_zero _)
    · rw [endsAt_cons h0]
      rcases Nat.lt_or_ge n (width c) with hlt | hle
      · rw [not_isBoundary_inside h0 hlt]
        exact iff_of_false Bool.false_ne_true fun h => absurd h.1 (by omega)
      · obtain ⟨k, rfl⟩ := Nat.exists_eq_add_of_le hle
        rw [isBoundary_after, ih, Nat.add_sub_cancel_left]
        exact (and_iff_right hle).symm

/-! ### The last boundary within a capacity -/

variable {capacity : Nat}

/-- **What fits ends at the greatest boundary** that the text has within the capacity. -/
theorem fitting_greatest (text : String) (capacity : Nat) :
    IsGreatest {n | isBoundary (encode text) n = true ∧ n ≤ min (encode text).length capacity}
      (fitting text.toList capacity) := by
  constructor
  · refine ⟨isBoundary_iff.2 ⟨_, fitted_leading _ _, length_encodeChars_fitted _ _⟩, ?_⟩
    exact Nat.le_min.2 ⟨fitting_le_length _ _, fitting_le _ _⟩
  · rintro n ⟨hboundary, hle⟩
    obtain ⟨chars, hchars, rfl⟩ := isBoundary_iff.1 hboundary
    rw [← length_encodeChars_fitted]
    exact length_encodeChars_le (fitted_longest hchars (hle.trans (Nat.min_le_right _ _)))

theorem width_le (c : Char) : width c ≤ 4 := by
  unfold width
  split_ifs <;> omega

/-- **A cut loses at most three octets** of the capacity. -/
theorem capacity_lt_fitting (h : fitting cs capacity < (encodeChars cs).length) :
    capacity < fitting cs capacity + 4 := by
  induction cs generalizing capacity with
  | nil => exact absurd h (Nat.not_lt_zero _)
  | cons c cs ih =>
    have hwidth := width_le c
    rw [length_encodeChars_cons] at h
    unfold fitting at h ⊢
    by_cases hfits : width c ≤ capacity
    · rw [if_pos hfits] at h ⊢
      have := @ih (capacity - width c) (by omega)
      omega
    · rw [if_neg hfits]
      omega

/-- A text that fits is not cut. -/
theorem fitting_of_length_le (h : (encodeChars cs).length ≤ capacity) :
    fitting cs capacity = (encodeChars cs).length := by
  have hall := length_encodeChars_le (fitted_longest (List.prefix_refl cs) h)
  rw [length_encodeChars_fitted] at hall
  exact Nat.le_antisymm (fitting_le_length cs capacity) hall

-- the last octet but one begins a character of two octets, which a capacity of two cuts away
example : isBoundary (encode "aé") 1 = true ∧ isBoundary (encode "aé") 2 = false ∧
    fitting "aé".toList 2 = 1 := by decide

end FlowHost.Utf8
