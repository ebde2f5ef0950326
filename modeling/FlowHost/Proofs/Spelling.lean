import FlowHost.Text.Utf8
import Mathlib.Data.List.Basic

/-!
# Which octets are a text

Every character has one spelling, and a byte string starts with a character exactly if it starts with that
spelling. So the octets that strict reading accepts are those of a text, and it gives this text back.

* `Utf8.next_encodeChar`, `Utf8.eq_of_next`: the first character of a byte string.
* `Utf8.decode_eq_ok_iff`: **strict reading is the inverse of encoding.**
-/

namespace FlowHost.Utf8

variable {bs rest : Bytes} {c : Char}

/-- What the second octet of a character may be. -/
theorem within_secondRange {lead : Nat} {b : UInt8} : within (secondRange lead) b = true ↔
    (0x80 ≤ b.toNat ∧ b.toNat ≤ 0xBF) ∧ (lead = 0xE0 → 0xA0 ≤ b.toNat) ∧
      (lead = 0xED → b.toNat ≤ 0x9F) ∧ (lead = 0xF0 → 0x90 ≤ b.toNat) ∧
      (lead = 0xF4 → b.toNat ≤ 0x8F) := by
  unfold within secondRange
  rw [Bool.and_eq_true, decide_eq_true_eq, decide_eq_true_eq]
  split_ifs <;> simp only <;> omega

theorem within_tailRange {b : UInt8} :
    within tailRange b = true ↔ 0x80 ≤ b.toNat ∧ b.toNat ≤ 0xBF := by
  unfold within tailRange
  rw [Bool.and_eq_true, decide_eq_true_eq, decide_eq_true_eq]

/-- The number of a character is not that of a surrogate, and not too great. -/
theorem toNat_valid (c : Char) :
    c.toNat < 0xD800 ∨ (0xDFFF < c.toNat ∧ c.toNat < 0x110000) := c.valid

/-- **A byte string that starts with the spelling of a character starts with the character.** -/
theorem next_encodeChar (c : Char) (rest : Bytes) : next (encodeChar c ++ rest) = .char c rest := by
  have hv := toNat_valid c
  have hoctet : ∀ n, n < 256 → (UInt8.ofNat n).toNat = n := fun n h => UInt8.toNat_ofNat_of_lt' h
  unfold encodeChar
  set v := c.toNat with hdef
  by_cases h1 : v < 0x80
  · have ha := hoctet v (by omega)
    simp only [h1, if_true, List.cons_append, List.nil_append, next, ha]
    rw [hdef, Char.ofNat_toNat]
  · by_cases h2 : v < 0x800
    · have ha := hoctet (0xC0 + v / 64) (by omega)
      have hb := hoctet (0x80 + v % 64) (by omega)
      have hsecond : within (secondRange (0xC0 + v / 64)) (UInt8.ofNat (0x80 + v % 64)) = true := by
        rw [within_secondRange, hb]
        omega
      have hvalue : (0xC0 + v / 64 - 0xC0) * 64 + (0x80 + v % 64 - 0x80) = v := by omega
      simp only [h1, h2, if_true, if_false, List.cons_append, List.nil_append, next, ha, hb, hsecond,
        Bool.not_true, Bool.false_eq_true, hvalue]
      rw [if_neg (by omega), if_neg (by omega), if_pos (by omega), hdef, Char.ofNat_toNat]
    · by_cases h3 : v < 0x10000
      · have ha := hoctet (0xE0 + v / 4096) (by omega)
        have hb := hoctet (0x80 + v / 64 % 64) (by omega)
        have hc := hoctet (0x80 + v % 64) (by omega)
        have hsecond : within (secondRange (0xE0 + v / 4096)) (UInt8.ofNat (0x80 + v / 64 % 64)) =
            true := by
          rw [within_secondRange, hb]
          omega
        have htail : within tailRange (UInt8.ofNat (0x80 + v % 64)) = true := by
          rw [within_tailRange, hc]
          omega
        have hvalue : (0xE0 + v / 4096 - 0xE0) * 4096 + (0x80 + v / 64 % 64 - 0x80) * 64 +
            (0x80 + v % 64 - 0x80) = v := by omega
        simp only [h1, h2, h3, if_true, if_false, List.cons_append, List.nil_append, next, ha, hb, hc,
          hsecond, htail, Bool.not_true, Bool.false_eq_true, hvalue]
        rw [if_neg (by omega), if_neg (by omega), if_neg (by omega), if_pos (by omega), hdef,
          Char.ofNat_toNat]
      · have ha := hoctet (0xF0 + v / 262144) (by omega)
        have hb := hoctet (0x80 + v / 4096 % 64) (by omega)
        have hc := hoctet (0x80 + v / 64 % 64) (by omega)
        have hd := hoctet (0x80 + v % 64) (by omega)
        have hsecond : within (secondRange (0xF0 + v / 262144))
            (UInt8.ofNat (0x80 + v / 4096 % 64)) = true := by
          rw [within_secondRange, hb]
          omega
        have htail : within tailRange (UInt8.ofNat (0x80 + v / 64 % 64)) = true := by
          rw [within_tailRange, hc]
          omega
        have hlast : within tailRange (UInt8.ofNat (0x80 + v % 64)) = true := by
          rw [within_tailRange, hd]
          omega
        have hvalue : (0xF0 + v / 262144 - 0xF0) * 262144 + (0x80 + v / 4096 % 64 - 0x80) * 4096 +
            (0x80 + v / 64 % 64 - 0x80) * 64 + (0x80 + v % 64 - 0x80) = v := by omega
        simp only [h1, h2, h3, if_false, List.cons_append, List.nil_append, next, ha, hb, hc, hd,
          hsecond, htail, hlast, Bool.not_true, Bool.false_eq_true, hvalue]
        rw [if_neg (by omega), if_neg (by omega), if_neg (by omega), if_neg (by omega), hdef,
          Char.ofNat_toNat]

/-! ### From octets to characters -/

theorem toNat_ofNat {n : Nat} (hn : n < 0xD800 ∨ (0xDFFF < n ∧ n < 0x110000)) :
    (Char.ofNat n).toNat = n := by
  unfold Char.ofNat
  rw [dif_pos hn]
  rfl

theorem octet_eq {n : Nat} {b : UInt8} (h : n = b.toNat) : UInt8.ofNat n = b := by
  rw [h, UInt8.ofNat_toNat]

variable {a b d e : UInt8}

theorem encodeChar_one (ha : a.toNat < 0x80) : encodeChar (Char.ofNat a.toNat) = [a] := by
  unfold encodeChar
  rw [toNat_ofNat (by omega)]
  simp only [ha, if_true]
  rw [UInt8.ofNat_toNat]

theorem encodeChar_two (ha : 0xC2 ≤ a.toNat ∧ a.toNat < 0xE0)
    (hb : within (secondRange a.toNat) b = true) :
    encodeChar (Char.ofNat ((a.toNat - 0xC0) * 64 + (b.toNat - 0x80))) = [a, b] := by
  rw [within_secondRange] at hb
  unfold encodeChar
  rw [toNat_ofNat (by omega)]
  set n := (a.toNat - 0xC0) * 64 + (b.toNat - 0x80) with hn
  have h1 : UInt8.ofNat (0xC0 + n / 64) = a := octet_eq (by omega)
  have h2 : UInt8.ofNat (0x80 + n % 64) = b := octet_eq (by omega)
  simp only [h1, h2]
  rw [if_neg (by omega), if_pos (by omega)]

theorem encodeChar_three (ha : 0xE0 ≤ a.toNat ∧ a.toNat < 0xF0)
    (hb : within (secondRange a.toNat) b = true) (hd : within tailRange d = true) :
    encodeChar (Char.ofNat
      ((a.toNat - 0xE0) * 4096 + (b.toNat - 0x80) * 64 + (d.toNat - 0x80))) = [a, b, d] := by
  rw [within_secondRange] at hb
  rw [within_tailRange] at hd
  unfold encodeChar
  rw [toNat_ofNat (by omega)]
  set n := (a.toNat - 0xE0) * 4096 + (b.toNat - 0x80) * 64 + (d.toNat - 0x80) with hn
  have h1 : UInt8.ofNat (0xE0 + n / 4096) = a := octet_eq (by omega)
  have h2 : UInt8.ofNat (0x80 + n / 64 % 64) = b := octet_eq (by omega)
  have h3 : UInt8.ofNat (0x80 + n % 64) = d := octet_eq (by omega)
  simp only [h1, h2, h3]
  rw [if_neg (by omega), if_neg (by omega), if_pos (by omega)]

theorem encodeChar_four (ha : 0xF0 ≤ a.toNat ∧ a.toNat ≤ 0xF4)
    (hb : within (secondRange a.toNat) b = true) (hd : within tailRange d = true)
    (he : within tailRange e = true) :
    encodeChar (Char.ofNat
      ((a.toNat - 0xF0) * 262144 + (b.toNat - 0x80) * 4096 + (d.toNat - 0x80) * 64 +
        (e.toNat - 0x80))) = [a, b, d, e] := by
  rw [within_secondRange] at hb
  rw [within_tailRange] at hd he
  unfold encodeChar
  rw [toNat_ofNat (by omega)]
  set n := (a.toNat - 0xF0) * 262144 + (b.toNat - 0x80) * 4096 + (d.toNat - 0x80) * 64 +
    (e.toNat - 0x80) with hn
  have h1 : UInt8.ofNat (0xF0 + n / 262144) = a := octet_eq (by omega)
  have h2 : UInt8.ofNat (0x80 + n / 4096 % 64) = b := octet_eq (by omega)
  have h3 : UInt8.ofNat (0x80 + n / 64 % 64) = d := octet_eq (by omega)
  have h4 : UInt8.ofNat (0x80 + n % 64) = e := octet_eq (by omega)
  simp only [h1, h2, h3, h4]
  rw [if_neg (by omega), if_neg (by omega), if_neg (by omega)]

/-- **A byte string that starts with a character starts with its spelling.** -/
theorem eq_of_next (h : next bs = .char c rest) : bs = encodeChar c ++ rest := by
  unfold next at h
  split at h
  · cases h
  rename_i a _
  simp only at h
  split at h
  · rename_i ha
    obtain ⟨rfl, rfl⟩ := (Head.char.injEq ..).mp h
    rw [encodeChar_one ha]
    rfl
  split at h
  · cases h
  split at h
  · cases h
  split at h
  · cases h
  rename_i ha hlead _ b _ hb
  have hsecond : within (secondRange a.toNat) b = true := by simpa using hb
  split at h
  · rename_i hshort
    obtain ⟨rfl, rfl⟩ := (Head.char.injEq ..).mp h
    rw [encodeChar_two (by omega) hsecond]
    rfl
  rename_i hlong
  split at h
  · cases h
  split at h
  · cases h
  rename_i d _ hd
  have htail : within tailRange d = true := by simpa using hd
  split at h
  · rename_i hshort
    obtain ⟨rfl, rfl⟩ := (Head.char.injEq ..).mp h
    rw [encodeChar_three (by omega) hsecond htail]
    rfl
  rename_i hlonger
  split at h
  · cases h
  split at h
  · cases h
  rename_i e _ he
  have hlast : within tailRange e = true := by simpa using he
  obtain ⟨rfl, rfl⟩ := (Head.char.injEq ..).mp h
  rw [encodeChar_four (by omega) hsecond htail hlast]
  rfl

/-! ### Whole texts -/

theorem eq_nil_of_next (h : next bs = .done) : bs = [] := by
  cases bs with
  | nil => rfl
  | cons b rest =>
    unfold next at h
    simp only at h
    repeat' split at h
    all_goals cases h

/-- Strict reading of the octets of characters, after others. -/
theorem decodeFrom_encodeChars (cs : List Char) (offset : Nat) (acc : List Char) :
    decodeFrom offset acc (encodeChars cs) = .ok (acc.reverse ++ cs) := by
  induction cs generalizing offset acc with
  | nil =>
    unfold decodeFrom
    have hdone : next (encodeChars []) = .done := rfl
    split <;> simp_all
  | cons c cs ih =>
    have hnext : next (encodeChars (c :: cs)) = .char c (encodeChars cs) := next_encodeChar c _
    unfold decodeFrom
    split <;> simp_all

/-- Where strict reading succeeds, the octets are those of the characters that it adds. -/
theorem eq_of_decodeFrom {offset : Nat} {acc all : List Char}
    (h : decodeFrom offset acc bs = .ok all) : ∃ cs, all = acc.reverse ++ cs ∧ bs = encodeChars cs := by
  fun_induction decodeFrom offset acc bs with
  | case1 offset acc bs hn =>
    cases h
    exact ⟨[], (List.append_nil _).symm, eq_nil_of_next hn⟩
  | case2 offset acc bs c rest hn _ ih =>
    obtain ⟨cs, rfl, hrest⟩ := ih h
    refine ⟨c :: cs, by simp, ?_⟩
    rw [eq_of_next hn, hrest]
    rfl
  | case3 => cases h
  | case4 => cases h

/-- **Strict reading is the inverse of encoding**: it accepts the octets of texts and nothing else. -/
theorem decode_eq_ok_iff {text : String} : decode bs = .ok text ↔ bs = encode text := by
  unfold decode
  constructor
  · intro h
    cases hd : decodeFrom 0 [] bs with
    | error fault => rw [hd] at h; cases h
    | ok all =>
      obtain ⟨cs, rfl, rfl⟩ := eq_of_decodeFrom hd
      rw [hd] at h
      cases h
      simp [encode]
  · rintro rfl
    rw [encode, decodeFrom_encodeChars]
    simp [Except.map]

/-- Texts with the same octets are the same. -/
theorem encode_injective {s t : String} (h : encode s = encode t) : s = t := by
  have hs := decode_eq_ok_iff.2 (Eq.refl (encode s))
  have ht := decode_eq_ok_iff.2 h
  exact Except.ok.inj (hs.symm.trans ht)

end FlowHost.Utf8
