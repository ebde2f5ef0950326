import FlowHost.Proofs.Spelling
import FlowHost.Text.Base64
import Mathlib.Tactic.Set

/-!
# Base 64

The text of a byte string in base 64 names its bits, six at a time, by the letters of the alphabet. Missing bits are
zero, and every four characters stand for three octets, with padding where there are fewer.

* `Base64.Spells`: **the padded text of a byte string**, by its bits.
* `Base64.encode_spells`: octets are written as that text.
* `Base64.decode_eq_some_iff`: **only that text is read**, and as these octets.
-/

namespace FlowHost.Base64

/-- The letters, in the order of their numbers. -/
def alphabet : List Char := "ABCDEFGHIJKLMNOPQRSTUVWXYZabcdefghijklmnopqrstuvwxyz0123456789+/".toList

/-- The number of an octet; beyond the end it is zero. -/
def octet (bs : Bytes) (i : Nat) : Nat := ((bs[i]?).getD 0).toNat

/-- A bit of a byte string, the most significant one of each octet first. -/
def bit (bs : Bytes) (i : Nat) : Nat := octet bs (i / 8) / Nat.pow 2 (7 - i % 8) % 2

/-- The number that six bits in a row spell, the most significant one first. -/
def sextet (bs : Bytes) (k : Nat) : Nat := (List.range 6).foldl (fun n j => 2 * n + bit bs (6 * k + j)) 0

/-- **The padded text of a byte string**: four characters for every three octets begun, the letters of its bits, and
padding where there are no bits left. -/
structure Spells (bs : Bytes) (text : List Char) : Prop where
  length : text.length = 4 * ((bs.length + 2) / 3)
  letter : ∀ k, 6 * k < 8 * bs.length → text[k]? = alphabet[sextet bs k]?
  padding : ∀ k, 8 * bs.length ≤ 6 * k → k < text.length → text[k]? = some '='

variable {bs : Bytes} {text : List Char} {n : Nat}

/-- A byte string has one text. -/
theorem Spells.unique {text' : List Char} (h : Spells bs text) (h' : Spells bs text') : text = text' := by
  have hlength : text.length = text'.length := h.length.trans h'.length.symm
  refine List.ext_getElem? fun k => ?_
  by_cases hbits : 6 * k < 8 * bs.length
  · rw [h.letter k hbits, h'.letter k hbits]
  · by_cases hk : k < text.length
    · rw [h.padding k (by omega) hk, h'.padding k (by omega) (hlength ▸ hk)]
    · rw [List.getElem?_eq_none (by omega), List.getElem?_eq_none (by omega)]

/-! ### Letters -/

/-- A letter is found by its number. -/
theorem alphabet_digit : ∀ n < 64, alphabet[n]? = some (digit n) := by decide +kernel

/-- And its number by the letter. -/
theorem value?_digit : ∀ n < 64, value? (digit n) = some n := by decide +kernel

/-- Padding is no letter. -/
theorem value?_padding : value? '=' = none := by decide +kernel

/-- Only letters have numbers. -/
theorem digit_of_value? {c : Char} (h : value? c = some n) : n < 64 ∧ digit n = c :=
  ⟨List.mem_range.1 (List.mem_of_find?_eq_some h), by simpa using List.find?_some h⟩

theorem digit_ne_padding (hn : n < 64) : digit n ≠ '=' := by
  intro h
  have hvalue := value?_digit n hn
  rw [h, value?_padding] at hvalue
  cases hvalue

/-- Letters and padding take one octet each. -/
theorem toNat_digit_lt (n : Nat) : (digit n).toNat < 128 := by
  unfold digit
  split
  · rw [Utf8.toNat_ofNat (by omega)]
    omega
  · split
    · rw [Utf8.toNat_ofNat (by omega)]
      omega
    · split
      · rw [Utf8.toNat_ofNat (by omega)]
        omega
      · split <;> decide

theorem toNat_lt_of_mem_encode {c : Char} (h : c ∈ encode bs) : c.toNat < 128 := by
  fun_induction encode bs with
  | case1 => cases h
  | case2 a =>
    simp only [List.mem_cons, List.not_mem_nil, or_false] at h
    rcases h with rfl | rfl | rfl | rfl <;> first | exact toNat_digit_lt _ | decide
  | case3 a b =>
    simp only [List.mem_cons, List.not_mem_nil, or_false] at h
    rcases h with rfl | rfl | rfl | rfl <;> first | exact toNat_digit_lt _ | decide
  | case4 a b c rest ih =>
    simp only [List.mem_cons] at h
    rcases h with rfl | rfl | rfl | rfl | h <;> first | exact toNat_digit_lt _ | exact ih h

/-! ### Octets as text -/

/-- A sextet in its bits. -/
theorem sextet_bits (bs : Bytes) (k : Nat) : sextet bs k = 32 * bit bs (6 * k) + 16 * bit bs (6 * k + 1) +
    8 * bit bs (6 * k + 2) + 4 * bit bs (6 * k + 3) + 2 * bit bs (6 * k + 4) + bit bs (6 * k + 5) := by
  simp only [sextet, List.range_succ, List.range_zero, List.nil_append, List.cons_append, List.foldl_cons,
    List.foldl_nil, Nat.add_zero]
  omega

theorem bit_lt (bs : Bytes) (i : Nat) : bit bs i < 2 := Nat.mod_lt _ (by decide)

/-- Six bits are a number below 64. -/
theorem sextet_lt (bs : Bytes) (k : Nat) : sextet bs k < 64 := by
  have h0 := bit_lt bs (6 * k)
  have h1 := bit_lt bs (6 * k + 1)
  have h2 := bit_lt bs (6 * k + 2)
  have h3 := bit_lt bs (6 * k + 3)
  have h4 := bit_lt bs (6 * k + 4)
  have h5 := bit_lt bs (6 * k + 5)
  rw [sextet_bits]
  omega

/-- **The first four sextets are the first three octets.** -/
theorem sextets (bs : Bytes) : sextet bs 0 = octet bs 0 / 4 ∧ sextet bs 1 = octet bs 0 % 4 * 16 + octet bs 1 / 16 ∧
    sextet bs 2 = octet bs 1 % 16 * 4 + octet bs 2 / 64 ∧ sextet bs 3 = octet bs 2 % 64 := by
  have hlt (i : Nat) : octet bs i < 256 := UInt8.toNat_lt _
  have h0 := hlt 0
  have h1 := hlt 1
  have h2 := hlt 2
  simp only [sextet_bits, bit, Nat.reduceMul, Nat.reduceAdd, Nat.reduceDiv, Nat.reduceMod, Nat.reduceSub, Nat.pow_eq,
    Nat.reducePow, Nat.div_one]
  omega

/-- Three octets further on, the sextets are those of the rest. -/
theorem sextet_add_four (a b c : UInt8) (rest : Bytes) (k : Nat) :
    sextet (a :: b :: c :: rest) (k + 4) = sextet rest k := by
  have hbit (i : Nat) : bit (a :: b :: c :: rest) (24 + i) = bit rest i := by
    have hdiv : (24 + i) / 8 = i / 8 + 3 := by omega
    have hmod : (24 + i) % 8 = i % 8 := by omega
    rw [bit, bit, hdiv, hmod]
    rfl
  have hplace (j : Nat) : 6 * (k + 4) + j = 24 + (6 * k + j) := by omega
  simp only [sextet, hplace, hbit]

/-- A sextet in a text. -/
theorem letter_of_sextet {k d : Nat} (h : sextet bs k = d) : some (digit d) = alphabet[sextet bs k]? := by
  rw [alphabet_digit _ (sextet_lt bs k), h]

/-- **Octets are written as their text.** -/
theorem encode_spells (bs : Bytes) : Spells bs (encode bs) := by
  -- by groups of three octets, as they are written; only the last group can be short
  refine ⟨length_encode bs, ?_, ?_⟩
  · fun_induction encode bs with
    | case1 => exact fun k hk => absurd hk (by simp)
    | case2 a =>
      intro k hk
      obtain ⟨h0, h1, -⟩ := sextets [a]
      have h1' : sextet [a] 1 = a.toNat % 4 * 16 := by simpa [octet] using h1
      rcases k with _ | _ | k
      · exact letter_of_sextet h0
      · exact letter_of_sextet h1'
      · simp only [List.length_singleton] at hk
        omega
    | case3 a b =>
      intro k hk
      obtain ⟨h0, h1, h2, -⟩ := sextets [a, b]
      have h2' : sextet [a, b] 2 = b.toNat % 16 * 4 := by simpa [octet] using h2
      rcases k with _ | _ | _ | k
      · exact letter_of_sextet h0
      · exact letter_of_sextet h1
      · exact letter_of_sextet h2'
      · simp only [List.length_cons, List.length_nil] at hk
        omega
    | case4 a b c rest ih =>
      intro k hk
      obtain ⟨h0, h1, h2, h3⟩ := sextets (a :: b :: c :: rest)
      rcases k with _ | _ | _ | _ | k
      · exact letter_of_sextet h0
      · exact letter_of_sextet h1
      · exact letter_of_sextet h2
      · exact letter_of_sextet h3
      · rw [sextet_add_four]
        simp only [List.length_cons] at hk
        exact ih k (by omega)
  · fun_induction encode bs with
    | case1 => exact fun k _ hk => absurd hk (by simp)
    | case2 a =>
      intro k hbits hk
      simp only [List.length_cons, List.length_nil] at hbits hk
      obtain rfl | rfl : k = 2 ∨ k = 3 := by omega
      · rfl
      · rfl
    | case3 a b =>
      intro k hbits hk
      simp only [List.length_cons, List.length_nil] at hbits hk
      obtain rfl : k = 3 := by omega
      rfl
    | case4 a b c rest ih =>
      intro k hbits hk
      simp only [List.length_cons] at hbits hk
      obtain ⟨k, rfl⟩ := Nat.exists_eq_add_of_le' (show 4 ≤ k by omega)
      exact ih k (by omega) (by omega)

/-! ### Texts as octets -/

/-- **A last group of characters is read as the octets that are written so**, three of them unless it is padded. -/
theorem encode_of_decodeLast {a b c d : Char} (h : decodeLast a b c d = some bs) :
    encode bs = [a, b, c, d] ∧ (d ≠ '=' → bs.length = 3) := by
  have hoctet (n : Nat) (hn : n < 256) : (UInt8.ofNat n).toNat = n := UInt8.toNat_ofNat_of_lt' hn
  obtain ⟨i, hvi, hone⟩ := Option.bind_eq_some_iff.1 h
  obtain ⟨j, hvj, htwo⟩ := Option.bind_eq_some_iff.1 hone
  obtain ⟨hi, rfl⟩ := digit_of_value? hvi
  obtain ⟨hj, rfl⟩ := digit_of_value? hvj
  have hfirst := hoctet (i * 4 + j / 16) (by omega)
  have hi' : (i * 4 + j / 16) / 4 = i := by omega
  -- bits that no octet has must be zero, or the characters are refused
  by_cases hboth : c = '=' ∧ d = '='
  · rw [if_pos hboth] at htwo
    obtain ⟨rfl, rfl⟩ := hboth
    by_cases hspare : j % 16 = 0
    · rw [if_pos hspare] at htwo
      obtain rfl := Option.some.inj htwo
      have hj' : (i * 4 + j / 16) % 4 * 16 = j := by omega
      exact ⟨by rw [encode, hfirst, hi', hj'], fun hd => absurd rfl hd⟩
    · rw [if_neg hspare] at htwo
      cases htwo
  · rw [if_neg hboth] at htwo
    obtain ⟨k, hvk, hthree⟩ := Option.bind_eq_some_iff.1 htwo
    obtain ⟨hk, rfl⟩ := digit_of_value? hvk
    have hsecond := hoctet (j % 16 * 16 + k / 4) (by omega)
    have hj' : (i * 4 + j / 16) % 4 * 16 + (j % 16 * 16 + k / 4) / 16 = j := by omega
    by_cases hd : d = '='
    · rw [if_pos hd] at hthree
      by_cases hspare : k % 4 = 0
      · rw [if_pos hspare] at hthree
        obtain rfl := Option.some.inj hthree
        have hk' : (j % 16 * 16 + k / 4) % 16 * 4 = k := by omega
        exact ⟨by rw [encode, hfirst, hsecond, hi', hj', hk', hd], fun hne => absurd hd hne⟩
      · rw [if_neg hspare] at hthree
        cases hthree
    · rw [if_neg hd] at hthree
      obtain ⟨l, hvl, hfour⟩ := Option.bind_eq_some_iff.1 hthree
      obtain ⟨hl, rfl⟩ := digit_of_value? hvl
      obtain rfl := Option.some.inj hfour
      have hthird := hoctet (k % 4 * 64 + l) (by omega)
      have hk' : (j % 16 * 16 + k / 4) % 16 * 4 + (k % 4 * 64 + l) / 64 = k := by omega
      have hl' : (k % 4 * 64 + l) % 64 = l := by omega
      exact ⟨by rw [encode, hfirst, hsecond, hthird, hi', hj', hk', hl', encode], fun _ => rfl⟩

/-- Three octets are written before all others. -/
theorem encode_append {front : Bytes} (h : front.length = 3) (rest : Bytes) :
    encode (front ++ rest) = encode front ++ encode rest := by
  obtain ⟨a, b, c, rfl⟩ := List.length_eq_three.1 h
  simp only [List.cons_append, List.nil_append, encode]

/-- What is read is written so. -/
theorem encode_of_decode (h : decode text = some bs) : encode bs = text := by
  fun_induction decode text generalizing bs with
  | case1 =>
    obtain rfl := Option.some.inj h
    rfl
  | case2 a b c d => exact (encode_of_decodeLast h).1
  | case3 => cases h
  | case4 a b c d rest hrest hd ih =>
    obtain ⟨front, hfront, hrest⟩ := Option.bind_eq_some_iff.1 h
    obtain ⟨tail, htail, hboth⟩ := Option.bind_eq_some_iff.1 hrest
    obtain rfl := Option.some.inj hboth
    obtain ⟨hencode, hlength⟩ := encode_of_decodeLast hfront
    rw [encode_append (hlength hd), hencode, ih htail]
    rfl
  | case5 => cases h

/-- A group without padding is read before all others. -/
theorem decode_cons {a b c d : Char} (hd : d ≠ '=') (rest : List Char) :
    decode (a :: b :: c :: d :: rest) = (decodeLast a b c d).bind fun front => (decode rest).map (front ++ ·) := by
  cases rest with
  | nil => cases h : decodeLast a b c d <;> simp [decode, h]
  | cons e rest =>
    rw [decode, if_neg hd]
    · cases decodeLast a b c d with
      | none => rfl
      | some front => cases decode (e :: rest) <;> rfl
    · exact List.cons_ne_nil e rest

/-- **What is written is read back.** -/
theorem decode_encode (bs : Bytes) : decode (encode bs) = some bs := by
  have hback {n : Nat} {o : UInt8} (h : n = o.toNat) : UInt8.ofNat n = o := Utf8.octet_eq h
  fun_induction encode bs with
  | case1 => rfl
  | case2 a =>
    have ha := a.toNat_lt
    have hi := value?_digit (a.toNat / 4) (by omega)
    have hj := value?_digit (a.toNat % 4 * 16) (by omega)
    have hspare : a.toNat % 4 * 16 % 16 = 0 := by omega
    have hone : UInt8.ofNat (a.toNat / 4 * 4 + a.toNat % 4 * 16 / 16) = a := hback (by omega)
    simp only [decode, decodeLast, hi, hj, Option.bind_eq_bind, Option.bind_some, and_self, if_true, hspare, hone]
  | case3 a b =>
    have ha := a.toNat_lt
    have hb := b.toNat_lt
    have hi := value?_digit (a.toNat / 4) (by omega)
    have hj := value?_digit (a.toNat % 4 * 16 + b.toNat / 16) (by omega)
    have hk := value?_digit (b.toNat % 16 * 4) (by omega)
    have hletter := digit_ne_padding (show b.toNat % 16 * 4 < 64 by omega)
    have hspare : b.toNat % 16 * 4 % 4 = 0 := by omega
    have hone : UInt8.ofNat (a.toNat / 4 * 4 + (a.toNat % 4 * 16 + b.toNat / 16) / 16) = a := hback (by omega)
    have htwo : UInt8.ofNat ((a.toNat % 4 * 16 + b.toNat / 16) % 16 * 16 + b.toNat % 16 * 4 / 4) = b :=
      hback (by omega)
    simp only [decode, decodeLast, hi, hj, hk, Option.bind_eq_bind, Option.bind_some, hletter, false_and, if_false,
      if_true, hspare, hone, htwo]
  | case4 a b c rest ih =>
    have ha := a.toNat_lt
    have hb := b.toNat_lt
    have hc := c.toNat_lt
    have hi := value?_digit (a.toNat / 4) (by omega)
    have hj := value?_digit (a.toNat % 4 * 16 + b.toNat / 16) (by omega)
    have hk := value?_digit (b.toNat % 16 * 4 + c.toNat / 64) (by omega)
    have hl := value?_digit (c.toNat % 64) (by omega)
    have hletter := digit_ne_padding (show c.toNat % 64 < 64 by omega)
    have hone : UInt8.ofNat (a.toNat / 4 * 4 + (a.toNat % 4 * 16 + b.toNat / 16) / 16) = a := hback (by omega)
    have htwo : UInt8.ofNat ((a.toNat % 4 * 16 + b.toNat / 16) % 16 * 16 +
        (b.toNat % 16 * 4 + c.toNat / 64) / 4) = b := hback (by omega)
    have hthree : UInt8.ofNat ((b.toNat % 16 * 4 + c.toNat / 64) % 4 * 64 + c.toNat % 64) = c := hback (by omega)
    have hgroup : decodeLast (digit (a.toNat / 4)) (digit (a.toNat % 4 * 16 + b.toNat / 16))
        (digit (b.toNat % 16 * 4 + c.toNat / 64)) (digit (c.toNat % 64)) = some [a, b, c] := by
      simp only [decodeLast, hi, hj, hk, hl, Option.bind_eq_bind, Option.bind_some, hletter, and_false, if_false, hone,
        htwo, hthree]
    rw [decode_cons hletter, ih, hgroup]
    rfl

/-- **The text of a byte string is read as these octets, and no other text is.** -/
theorem decode_eq_some_iff : decode text = some bs ↔ Spells bs text := by
  constructor
  · intro h
    rw [← encode_of_decode h]
    exact encode_spells bs
  · intro h
    rw [h.unique (encode_spells bs)]
    exact decode_encode bs

end FlowHost.Base64
