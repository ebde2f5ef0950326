import FlowHost.Proofs.Spelling

/-!
# Lenient reading

Lenient reading gives back every text, and octets that it reads without a replacement are those of a text.

* `Utf8.decodeLossy_encode`: a text is read as itself.
* `Utf8.eq_encode_of_decodeLossy`: **what is read without a replacement was spelled so.**
-/

namespace FlowHost.Utf8

variable {bs rest : Bytes} {c : Char} {text : String}

theorem decodeLossyFrom_char (acc : List Char) (h : next bs = .char c rest) :
    decodeLossyFrom acc bs = decodeLossyFrom (c :: acc) rest := by
  rw [decodeLossyFrom]
  split <;> simp_all

theorem decodeLossyFrom_nil (acc : List Char) : decodeLossyFrom acc [] = acc.reverse := by
  rw [decodeLossyFrom]
  have hdone : next [] = .done := rfl
  split <;> simp_all

theorem decodeLossyFrom_encodeChars (cs acc : List Char) :
    decodeLossyFrom acc (encodeChars cs) = acc.reverse ++ cs := by
  induction cs generalizing acc with
  | nil => rw [List.append_nil]; exact decodeLossyFrom_nil acc
  | cons c cs ih =>
    have hnext : next (encodeChars (c :: cs)) = .char c (encodeChars cs) := next_encodeChar c _
    rw [decodeLossyFrom_char acc hnext, ih, List.reverse_cons, List.append_assoc]
    rfl

/-- **A text is read as itself.** -/
theorem decodeLossy_encode (text : String) : decodeLossy (encode text) = text := by
  rw [decodeLossy, encode, decodeLossyFrom_encodeChars]
  simp

/-- The characters that are read, and what they tell of the octets if no replacement is among them. -/
theorem decodeLossyFrom_spells (acc : List Char) (bs : Bytes) :
    ∃ cs, decodeLossyFrom acc bs = acc.reverse ++ cs ∧ (replacement ∉ cs → bs = encodeChars cs) := by
  fun_induction decodeLossyFrom acc bs with
  | case1 acc bs h => exact ⟨[], (List.append_nil _).symm, fun _ => eq_nil_of_next h⟩
  | case2 acc bs c rest h ih =>
    obtain ⟨cs, heq, hspells⟩ := ih
    refine ⟨c :: cs, by rw [heq]; simp, fun hnot => ?_⟩
    rw [eq_of_next h, hspells fun hmem => hnot (List.mem_cons_of_mem _ hmem)]
    rfl
  | case3 acc n h => exact ⟨[], (List.append_nil _).symm, fun _ => rfl⟩
  | case4 acc n b rest h ih =>
    obtain ⟨cs, heq, -⟩ := ih
    exact ⟨replacement :: cs, by rw [heq]; simp, fun hnot => absurd List.mem_cons_self hnot⟩
  | case5 acc bs h => exact ⟨[replacement], by simp, fun hnot => absurd List.mem_cons_self hnot⟩

/-- **What is read without a replacement was spelled so.** -/
theorem eq_encode_of_decodeLossy (h : decodeLossy bs = text) (hnot : replacement ∉ text.toList) :
    bs = encode text := by
  obtain ⟨cs, heq, hspells⟩ := decodeLossyFrom_spells [] bs
  have htext : text.toList = cs := by
    rw [← h, decodeLossy, heq]
    simp
  rw [encode, htext]
  exact hspells (htext ▸ hnot)

/-- Nothing is read where there is nothing. -/
theorem decodeLossy_eq_empty : decodeLossy bs = "" ↔ bs = [] := by
  constructor
  · intro h
    exact eq_encode_of_decodeLossy h (by simp)
  · rintro rfl
    exact decodeLossy_encode ""

end FlowHost.Utf8
