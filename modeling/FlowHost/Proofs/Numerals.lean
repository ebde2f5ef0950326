import FlowHost.Json.Writer
import FlowHost.Json.Reader
import Mathlib.Data.List.TakeWhile

/-!
# Numbers in documents

A number ends where no character of it can follow, so all that its reader takes are characters of numbers, and it looks
at no more than the next one (`Json.Took`). An integer is written in digits without a leading zero, and read as itself.

* `Json.took_numeral`: **what is read as a number.**
* `Json.readNumeral_ofInt`: **an integer that is written is read**, unless more of a number follows.
* `Numeral.toNumber?_ofInt`: the number that an integer's digits denote.
-/

namespace FlowHost.Json

variable {cs rest rest' : List Char} {c : Char}

/-! ### What a reader takes -/

/-- A character of a number. -/
def IsNumeralChar (c : Char) : Prop :=
  isDigit c = true ∨ c = '-' ∨ c = '+' ∨ c = '.' ∨ c = 'e' ∨ c = 'E'

/-- **What a reader took**: characters of numbers, and it looked at no more than the next one. -/
def Took {α : Type} (read : List Char → Option (α × List Char)) (cs : List Char) (a : α) (rest : List Char) : Prop :=
  ∃ u, cs = u ++ rest ∧ (∀ c ∈ u, IsNumeralChar c) ∧
    ∀ rest', rest'.head? = rest.head? → read (u ++ rest') = some (a, rest')

theorem head?_append_congr (u : List Char) (h : rest'.head? = rest.head?) :
    (u ++ rest').head? = (u ++ rest).head? := by
  rw [List.head?_append, List.head?_append, h]

namespace Took

variable {α β γ : Type} {read : List Char → Option (α × List Char)} {read₂ : List Char → Option (β × List Char)}
  {read' : List Char → Option (γ × List Char)} {a : α} {b : β} {x : γ} {mid : List Char}

/-- Nothing is taken. -/
theorem nil (h : ∀ cs', cs'.head? = cs.head? → read cs' = some (a, cs')) : Took read cs a cs :=
  ⟨[], rfl, by simp, h⟩

/-- One more character in front. -/
theorem cons (h : Took read cs a rest) (hc : IsNumeralChar c)
    (heq : ∀ cs' rest', cs'.head? = cs.head? → read cs' = some (a, rest') → read' (c :: cs') = some (x, rest')) :
    Took read' (c :: cs) x rest := by
  obtain ⟨u, rfl, hu, hread⟩ := h
  refine ⟨c :: u, rfl, List.forall_mem_cons.2 ⟨hc, hu⟩, fun rest' hr => ?_⟩
  exact heq _ _ (head?_append_congr u hr) (hread rest' hr)

/-- One reader after another. -/
theorem seq (h : Took read cs a mid) (h₂ : Took read₂ mid b rest)
    (heq : ∀ cs' mid' rest', cs'.head? = cs.head? → read cs' = some (a, mid') → read₂ mid' = some (b, rest') →
      read' cs' = some (x, rest')) : Took read' cs x rest := by
  obtain ⟨u, rfl, hu, hread⟩ := h
  obtain ⟨w, rfl, hw, hread₂⟩ := h₂
  refine ⟨u ++ w, (List.append_assoc _ _ _).symm, List.forall_mem_append.2 ⟨hu, hw⟩, fun rest' hr => ?_⟩
  have hmid := head?_append_congr w hr
  rw [List.append_assoc]
  exact heq _ _ _ (head?_append_congr u hmid) (hread _ hmid) (hread₂ rest' hr)

theorem length_le (h : Took read cs a rest) : rest.length ≤ cs.length := by
  obtain ⟨u, rfl, -⟩ := h
  rw [List.length_append]
  omega

end Took

theorem spanDigits_append {ds : List Char} (hds : ∀ c ∈ ds, isDigit c = true)
    (hrest : ∀ c ∈ rest.head?, isDigit c = false) : spanDigits (ds ++ rest) = (ds, rest) := by
  have hstop : rest.takeWhile isDigit = [] ∧ rest.dropWhile isDigit = rest := by
    cases rest with
    | nil => exact ⟨rfl, rfl⟩
    | cons c cs =>
      have hc := hrest c rfl
      exact ⟨by simp [hc], by simp [hc]⟩
  unfold spanDigits
  rw [List.takeWhile_append_of_pos hds, List.dropWhile_append_of_pos hds, hstop.1, hstop.2, List.append_nil]

/-- One digit or more. -/
def someDigits (cs : List Char) : Option (List Char × List Char) :=
  if (spanDigits cs).1.isEmpty then none else some (spanDigits cs)

theorem took_digits {ds : List Char} (h : someDigits cs = some (ds, rest)) : Took someDigits cs ds rest := by
  unfold someDigits at h
  split at h
  · cases h
  · rename_i hne
    have hspan : spanDigits cs = (ds, rest) := Option.some.inj h
    have hparts : cs.takeWhile isDigit = ds ∧ cs.dropWhile isDigit = rest := Prod.mk.inj hspan
    have hds : ∀ c ∈ ds, isDigit c = true := fun c hc => List.mem_takeWhile_imp (hparts.1 ▸ hc)
    have hstop : ∀ c ∈ rest.head?, isDigit c = false := by
      intro c hc
      have hhead := List.head?_dropWhile_not isDigit cs
      rw [hparts.2, Option.mem_def.1 hc] at hhead
      simpa using hhead
    refine ⟨ds, ?_, fun c hc => .inl (hds c hc), fun rest' hr => ?_⟩
    · rw [← hparts.1, ← hparts.2, List.takeWhile_append_dropWhile]
    · rw [someDigits, spanDigits_append hds (by rwa [hr]), if_neg (by rwa [hspan] at hne)]

theorem readFraction_absent (h : ∀ c ∈ cs.head?, c ≠ '.') : readFraction cs = some ([], cs) := by
  unfold readFraction
  split
  · exact absurd rfl (h '.' rfl)
  · rfl

theorem took_fraction {ds : List Char} (h : readFraction cs = some (ds, rest)) : Took readFraction cs ds rest := by
  by_cases hdot : ∀ c ∈ cs.head?, c ≠ '.'
  · rw [readFraction_absent hdot] at h
    simp only [Option.some.injEq, Prod.mk.injEq] at h
    obtain ⟨rfl, rfl⟩ := h
    exact .nil fun cs' hc => readFraction_absent (by rwa [hc])
  · obtain ⟨r, rfl⟩ : ∃ r, cs = '.' :: r := by
      cases cs with
      | nil => simp at hdot
      | cons c r => exact ⟨r, by simpa using hdot⟩
    have heq : ∀ r, readFraction ('.' :: r) = someDigits r := fun _ => rfl
    rw [heq] at h
    exact (took_digits h).cons (by simp [IsNumeralChar]) fun cs' rest' _ hread => (heq cs').trans hread

theorem readExponent_absent (h : ∀ c ∈ cs.head?, c ≠ 'e' ∧ c ≠ 'E') : readExponent cs = some (none, cs) := by
  unfold readExponent
  split
  · exact absurd rfl (h 'e' rfl).1
  · exact absurd rfl (h 'E' rfl).2
  · rfl

/-- The exponent after its mark and sign. -/
def signedDigits (negative : Bool) (cs : List Char) : Option (Option (Bool × List Char) × List Char) :=
  (someDigits cs).map fun r => (some (negative, r.1), r.2)

/-- A mark of an exponent is followed by a sign or not, and then by digits. -/
theorem readExponent_mark {m : Char} (hm : m = 'e' ∨ m = 'E') (r : List Char) :
    readExponent (m :: '-' :: r) = signedDigits true r ∧ readExponent (m :: '+' :: r) = signedDigits false r ∧
      (r.head? ≠ some '-' → r.head? ≠ some '+' → readExponent (m :: r) = signedDigits false r) := by
  have hdigits (negative : Bool) (r : List Char) : signedDigits negative r =
      if (spanDigits r).1.isEmpty then none else some (some (negative, (spanDigits r).1), (spanDigits r).2) := by
    unfold signedDigits someDigits
    split <;> rfl
  simp only [hdigits]
  refine ⟨by obtain rfl | rfl := hm <;> rfl, by obtain rfl | rfl := hm <;> rfl, fun hminus hplus => ?_⟩
  cases r with
  | nil => obtain rfl | rfl := hm <;> rfl
  | cons c r =>
    have hc : c ≠ '-' ∧ c ≠ '+' := ⟨fun h => hminus (by rw [h]; rfl), fun h => hplus (by rw [h]; rfl)⟩
    obtain rfl | rfl := hm <;> simp [readExponent, hc.1, hc.2]

theorem took_signedDigits {negative : Bool} {e : Option (Bool × List Char)}
    (h : signedDigits negative cs = some (e, rest)) : Took (signedDigits negative) cs e rest := by
  obtain ⟨p, hp, h⟩ := Option.map_eq_some_iff.1 h
  simp only [Prod.mk.injEq] at h
  obtain ⟨rfl, rfl⟩ := h
  obtain ⟨u, hcs, hu, hread⟩ := took_digits hp
  exact ⟨u, hcs, hu, fun rest' hr => by rw [signedDigits, hread rest' hr, Option.map_some]⟩

theorem took_exponent {e : Option (Bool × List Char)} (h : readExponent cs = some (e, rest)) :
    Took readExponent cs e rest := by
  by_cases hmark : ∀ c ∈ cs.head?, c ≠ 'e' ∧ c ≠ 'E'
  · rw [readExponent_absent hmark] at h
    simp only [Option.some.injEq, Prod.mk.injEq] at h
    obtain ⟨rfl, rfl⟩ := h
    exact .nil fun cs' hc => readExponent_absent (by rwa [hc])
  · obtain ⟨m, r, rfl, hm⟩ : ∃ m r, cs = m :: r ∧ (m = 'e' ∨ m = 'E') := by
      cases cs with
      | nil => simp at hmark
      | cons m r => exact ⟨m, r, rfl, by simpa [Classical.or_iff_not_imp_left] using hmark⟩
    have hchar : IsNumeralChar m := by obtain rfl | rfl := hm <;> simp [IsNumeralChar]
    by_cases hminus : r.head? = some '-'
    · obtain ⟨r, rfl⟩ := List.head?_eq_some_iff.1 hminus
      rw [(readExponent_mark hm r).1] at h
      have hsigned : Took (fun cs => readExponent (m :: cs)) ('-' :: r) e rest :=
        (took_signedDigits h).cons (by simp [IsNumeralChar]) fun cs' _ _ hread =>
          (readExponent_mark hm cs').1.trans hread
      exact hsigned.cons hchar fun _ _ _ hread => hread
    · by_cases hplus : r.head? = some '+'
      · obtain ⟨r, rfl⟩ := List.head?_eq_some_iff.1 hplus
        rw [(readExponent_mark hm r).2.1] at h
        have hsigned : Took (fun cs => readExponent (m :: cs)) ('+' :: r) e rest :=
          (took_signedDigits h).cons (by simp [IsNumeralChar]) fun cs' _ _ hread =>
            (readExponent_mark hm cs').2.1.trans hread
        exact hsigned.cons hchar fun _ _ _ hread => hread
      · rw [(readExponent_mark hm r).2.2 hminus hplus] at h
        refine (took_signedDigits h).cons hchar fun cs' rest' hr hread => ?_
        rw [(readExponent_mark hm cs').2.2 (by rwa [hr]) (by rwa [hr]), hread]

/-- A number after its sign. -/
def readUnsigned (negative : Bool) (cs : List Char) : Option (Numeral × List Char) :=
  (someDigits cs).bind fun whole =>
    if whole.1.head? = some '0' ∧ whole.1.length ≠ 1 then none
    else
      (readFraction whole.2).bind fun fraction =>
        (readExponent fraction.2).map fun exponent => (⟨negative, whole.1, fraction.1, exponent.1⟩, exponent.2)

theorem readNumeral_sign (cs : List Char) : readNumeral ('-' :: cs) = readUnsigned true cs ∧
    (cs.head? ≠ some '-' → readNumeral cs = readUnsigned false cs) := by
  have hbody (negative : Bool) : readUnsigned negative cs =
      if (spanDigits cs).1.isEmpty then none
      else if (spanDigits cs).1.head? = some '0' ∧ (spanDigits cs).1.length ≠ 1 then none
      else
        (readFraction (spanDigits cs).2).bind fun fraction =>
          (readExponent fraction.2).bind fun exponent =>
            some (⟨negative, (spanDigits cs).1, fraction.1, exponent.1⟩, exponent.2) := by
    unfold readUnsigned someDigits
    split
    · rfl
    · rw [Option.bind_some]
      simp only [Option.map_eq_bind, Function.comp_def]
  rw [hbody, hbody]
  refine ⟨rfl, fun hminus => ?_⟩
  unfold readNumeral
  cases cs with
  | nil => rfl
  | cons c cs =>
    have hc : c ≠ '-' := fun h => hminus (by rw [h]; rfl)
    simp [hc]

theorem took_unsigned {negative : Bool} {num : Numeral} (h : readUnsigned negative cs = some (num, rest)) :
    Took (readUnsigned negative) cs num rest := by
  unfold readUnsigned at h
  obtain ⟨⟨whole, r⟩, hw, h⟩ := Option.bind_eq_some_iff.1 h
  split at h
  · cases h
  · rename_i hzero
    obtain ⟨⟨f, r'⟩, hf, h⟩ := Option.bind_eq_some_iff.1 h
    obtain ⟨⟨e, r''⟩, he, h⟩ := Option.map_eq_some_iff.1 h
    simp only [Prod.mk.injEq] at h
    obtain ⟨rfl, rfl⟩ := h
    have htail : Took (fun cs => (readFraction cs).bind fun f => (readExponent f.2).map fun e => ((f.1, e.1), e.2))
        r (f, e) r'' :=
      (took_fraction hf).seq (took_exponent he) fun _ _ _ _ hread hread' => by
        rw [hread, Option.bind_some, hread', Option.map_some]
    refine (took_digits hw).seq htail fun cs' mid' rest' _ hread hread' => ?_
    obtain ⟨g, hg, hread'⟩ := Option.bind_eq_some_iff.1 hread'
    obtain ⟨k, hk, hread'⟩ := Option.map_eq_some_iff.1 hread'
    simp only [Prod.mk.injEq] at hread'
    obtain ⟨⟨rfl, rfl⟩, rfl⟩ := hread'
    rw [readUnsigned, hread, Option.bind_some, if_neg hzero, hg, Option.bind_some, hk, Option.map_some]

theorem took_numeral {num : Numeral} (h : readNumeral cs = some (num, rest)) : Took readNumeral cs num rest := by
  by_cases hminus : cs.head? = some '-'
  · obtain ⟨r, rfl⟩ := List.head?_eq_some_iff.1 hminus
    rw [(readNumeral_sign r).1] at h
    exact (took_unsigned h).cons (by simp [IsNumeralChar]) fun cs' _ _ hread =>
      (readNumeral_sign cs').1.trans hread
  · rw [(readNumeral_sign cs).2 hminus] at h
    obtain ⟨u, hcs, hu, hread⟩ := took_unsigned h
    refine ⟨u, hcs, hu, fun rest' hr => ?_⟩
    rw [(readNumeral_sign _).2 ?_, hread rest' hr]
    rwa [head?_append_congr u hr, ← hcs]

/-- One digit or more begin with a digit, and take it. -/
theorem head_of_digits {ds : List Char} (h : someDigits cs = some (ds, rest)) :
    rest.length < cs.length ∧ ∃ c r, cs = c :: r ∧ isDigit c = true := by
  unfold someDigits at h
  split at h
  · cases h
  · rename_i hne
    have hspan : spanDigits cs = (ds, rest) := Option.some.inj h
    cases cs with
    | nil => exact absurd rfl hne
    | cons c cs =>
      by_cases hc : isDigit c = true
      · have hrest : rest = cs.dropWhile isDigit := by
          rw [← (Prod.mk.inj hspan).2, List.dropWhile_cons_of_pos hc]
        have hle := (List.dropWhile_suffix isDigit (l := cs)).length_le
        refine ⟨?_, c, cs, rfl, hc⟩
        rw [hrest, List.length_cons]
        omega
      · exact absurd (by simp [spanDigits, hc]) hne

/-- A number begins with a sign or a digit, and takes a character at least. -/
theorem head_of_numeral {num : Numeral} (h : readNumeral cs = some (num, rest)) :
    rest.length < cs.length ∧ ∃ c r, cs = c :: r ∧ (c = '-' ∨ isDigit c = true) := by
  have hunsigned {negative : Bool} {cs : List Char} (h : readUnsigned negative cs = some (num, rest)) :
      rest.length < cs.length ∧ ∃ c r, cs = c :: r ∧ isDigit c = true := by
    obtain ⟨⟨whole, r⟩, hw, h⟩ := Option.bind_eq_some_iff.1 h
    obtain ⟨hlt, hhead⟩ := head_of_digits hw
    split at h
    · cases h
    · obtain ⟨⟨f, r'⟩, hf, h⟩ := Option.bind_eq_some_iff.1 h
      obtain ⟨⟨e, r''⟩, he, h⟩ := Option.map_eq_some_iff.1 h
      obtain ⟨-, rfl⟩ := Prod.mk.inj h
      have hle : r'.length ≤ r.length := (took_fraction hf).length_le
      have hle' : r''.length ≤ r'.length := (took_exponent he).length_le
      exact ⟨lt_of_le_of_lt hle' (lt_of_le_of_lt hle hlt), hhead⟩
  by_cases hminus : cs.head? = some '-'
  · obtain ⟨r, rfl⟩ := List.head?_eq_some_iff.1 hminus
    rw [(readNumeral_sign r).1] at h
    exact ⟨Nat.lt_succ_of_lt (hunsigned h).1, '-', r, rfl, .inl rfl⟩
  · rw [(readNumeral_sign cs).2 hminus] at h
    obtain ⟨hlt, c, r, hcs, hc⟩ := hunsigned h
    exact ⟨hlt, c, r, hcs, .inr hc⟩

/-! ### Integers -/

theorem isDigit_of_mem_toDigits {n : Nat} (h : c ∈ Nat.toDigits 10 n) : isDigit c = true := by
  have hdigit := Nat.isDigit_of_mem_toDigits (by decide) (by decide) h
  simp only [isDigit, Char.isDigit, Bool.and_eq_true, decide_eq_true_eq] at hdigit ⊢
  exact hdigit

/-- Digits of a positive number do not begin with zero. -/
theorem head?_toDigits {n : Nat} (hn : 0 < n) : (Nat.toDigits 10 n).head? ≠ some '0' := by
  induction n using Nat.strongRecOn with
  | ind n ih =>
    by_cases hlt : n < 10
    · rw [Nat.toDigits_of_lt_base hlt]
      simp only [List.head?_cons, ne_eq, Option.some.injEq, Nat.digitChar_eq_zero]
      omega
    · have hpos : 0 < n / 10 := by omega
      rw [Nat.toDigits_of_base_le (by decide) (by omega), List.head?_append]
      obtain ⟨d, ds, hds⟩ := List.exists_cons_of_ne_nil (Nat.toDigits_ne_nil (n := n / 10) (b := 10))
      have hhead := ih (n / 10) (by omega) hpos
      rw [hds] at hhead ⊢
      exact hhead

/-- What no number goes on with. -/
def Ends (rest : List Char) : Prop := ∀ c ∈ rest.head?, isDigit c = false ∧ c ≠ '.' ∧ c ≠ 'e' ∧ c ≠ 'E'

theorem readUnsigned_digits (negative : Bool) (n : Nat) (hrest : Ends rest) :
    readUnsigned negative (Nat.toDigits 10 n ++ rest) = some (⟨negative, Nat.toDigits 10 n, [], none⟩, rest) := by
  have hspan : spanDigits (Nat.toDigits 10 n ++ rest) = (Nat.toDigits 10 n, rest) :=
    spanDigits_append (fun c hc => isDigit_of_mem_toDigits hc) fun c hc => (hrest c hc).1
  have hdigits : someDigits (Nat.toDigits 10 n ++ rest) = some (Nat.toDigits 10 n, rest) := by
    rw [someDigits, hspan, if_neg (by simp [Nat.toDigits_ne_nil])]
  have hzero : ¬ ((Nat.toDigits 10 n).head? = some '0' ∧ (Nat.toDigits 10 n).length ≠ 1) := by
    rintro ⟨hhead, hlength⟩
    obtain rfl | hpos := Nat.eq_zero_or_pos n
    · exact hlength (by rw [Nat.toDigits_zero]; rfl)
    · exact head?_toDigits hpos hhead
  have hfraction : readFraction rest = some ([], rest) := readFraction_absent fun c hc => (hrest c hc).2.1
  have hexponent : readExponent rest = some (none, rest) := readExponent_absent fun c hc => (hrest c hc).2.2
  rw [readUnsigned, hdigits, Option.bind_some, if_neg hzero, hfraction, Option.bind_some, hexponent, Option.map_some]

/-- **An integer that is written is read**, unless more of a number follows. -/
theorem readNumeral_ofInt (i : Int) (hrest : Ends rest) :
    readNumeral (writeNumeral (Numeral.ofInt i) ++ rest) = some (Numeral.ofInt i, rest) := by
  have hdigits := readUnsigned_digits (decide (i < 0)) i.natAbs hrest
  unfold writeNumeral Numeral.ofInt
  by_cases hneg : i < 0
  · simp only [hneg, decide_true] at hdigits ⊢
    simpa using (readNumeral_sign _).1.trans hdigits
  · simp only [hneg, decide_false] at hdigits ⊢
    have hminus : (Nat.toDigits 10 i.natAbs ++ rest).head? ≠ some '-' := by
      obtain ⟨d, ds, hds⟩ := List.exists_cons_of_ne_nil (Nat.toDigits_ne_nil (n := i.natAbs) (b := 10))
      have hd : isDigit d = true := isDigit_of_mem_toDigits (hds ▸ List.mem_cons_self)
      rw [hds]
      rintro hhead
      obtain rfl := Option.some.inj hhead
      cases hd
    simpa using ((readNumeral_sign _).2 hminus).trans hdigits

end FlowHost.Json

namespace FlowHost

/-- Digits spell the number that they were taken from. -/
theorem digitsValue_toDigits (n : Nat) : digitsValue (Nat.toDigits 10 n) = n :=
  Nat.ofDigitChars_ten_toDigits

/-- **The number that an integer's digits denote**, within 64 bits. -/
theorem Numeral.toNumber?_ofInt {i : Int} (hlow : -(Int.pow 2 63) ≤ i) (hhigh : i ≤ Int.pow 2 64 - 1) :
    (Numeral.ofInt i).toNumber? = some (if i < 0 then .negative i else .natural i.toNat) := by
  have hlow' : Int.pow 2 63 = 9223372036854775808 := rfl
  have hhigh' : Int.pow 2 64 = 18446744073709551616 := rfl
  have hlow'' : Nat.pow 2 63 = 9223372036854775808 := rfl
  have hmax : wordMax = 18446744073709551615 := rfl
  unfold Numeral.toNumber? Numeral.ofInt
  simp only [List.isEmpty_nil, Option.isNone_none, Bool.and_self, if_true, digitsValue_toDigits, decide_eq_true_eq]
  by_cases hneg : i < 0
  · rw [if_pos hneg, if_pos hneg, if_pos ⟨by omega, by omega⟩]
    have habs : -(i.natAbs : Int) = i := by omega
    rw [habs]
  · rw [if_neg hneg, if_neg hneg, if_pos (by omega)]
    have habs : i.natAbs = i.toNat := by omega
    rw [habs]

end FlowHost
