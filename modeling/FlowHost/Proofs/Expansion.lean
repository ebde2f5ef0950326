import FlowHost.Setting.Environment
import Mathlib.Data.List.TakeWhile

/-!
# Texts with references

A reference begins with a dollar, and there is no other dollar in it. So references never overlap (`reference_apart`),
and a text is literal pieces with references between them in one way only (`Pieces.IsSplit.eq_split`).

* `Environment.expandChars_eq`: expanding keeps the literal pieces and replaces the references between them.
* `Environment.expandChars_append`: it distributes over a seam that no reference straddles.
* `Environment.expand_pieces`: **what becomes of a text.**
-/

namespace FlowHost.Environment

/-- The name of a variable: a letter or an underscore, then letters, digits and underscores. -/
def IsName : List Char → Prop
  | [] => False
  | c :: rest => isNameStart c = true ∧ ∀ d ∈ rest, isNamePart d = true

/-- A reference, as it is written. -/
def reference (name : List Char) : List Char := '$' :: '\x7b' :: name ++ ['\x7d']

/-- **What stands for a reference**: the value of its variable, or the reference itself. -/
def standing (env : Environment) (name : List Char) : List Char :=
  ((env.lookup (String.ofList name)).map String.toList).getD (reference name)

/-- Literal pieces of a text with references between them: the first piece, then each reference with the piece
after it. -/
structure Pieces where
  first : List Char
  more : List (List Char × List Char)
  deriving DecidableEq

/-- Pieces put together, with something for each reference. -/
def Pieces.join (f : List Char → List Char) (p : Pieces) : List Char :=
  p.first ++ p.more.flatMap fun r => f r.1 ++ r.2

/-- **Pieces of a text between all the references in it.** -/
structure Pieces.IsSplit (p : Pieces) (cs : List Char) : Prop where
  joined : p.join reference = cs
  named : ∀ r ∈ p.more, IsName r.1
  /-- Wherever a reference stands in the text, it stands between two pieces. -/
  all : ∀ before name after, IsName name → cs = before ++ (reference name ++ after) →
    ∃ earlier piece later, p.more = earlier ++ (name, piece) :: later ∧
      before = Pieces.join reference ⟨p.first, earlier⟩

/-- A reference begins before a seam and ends after it. -/
def Straddled (s t : List Char) : Prop :=
  ∃ before name after, IsName name ∧ s ++ t = before ++ (reference name ++ after) ∧
    before.length < s.length ∧ s.length < before.length + (reference name).length

variable {env : Environment} {c : Char} {cs s t rest name name' before after : List Char} {p : Pieces}

/-! ### References -/

theorem isNamePart_of_isNameStart (h : isNameStart c = true) : isNamePart c = true := by
  simp only [isNameStart, isNamePart, Char.isAlphanum, Bool.or_eq_true] at h ⊢
  exact h.imp_left .inl

theorem IsName.part (h : IsName name) : ∀ d ∈ name, isNamePart d = true := by
  cases name with
  | nil => exact h.elim
  | cons c rest => exact List.forall_mem_cons.2 ⟨isNamePart_of_isNameStart h.1, h.2⟩

/-- **A reference is read exactly where one is written.** -/
theorem reference?_iff :
    reference? cs = some (name, after) ↔ IsName name ∧ cs = reference name ++ after := by
  constructor
  · intro h
    unfold reference? at h
    split at h
    · rename_i c more
      split at h
      · rename_i hc
        split at h
        · rename_i rest hrest
          obtain ⟨rfl, rfl⟩ := Prod.mk.inj (Option.some.inj h)
          have hmore : more = more.takeWhile isNamePart ++ '\x7d' :: rest := by
            rw [← hrest, List.takeWhile_append_dropWhile]
          refine ⟨⟨hc, fun d hd => List.mem_takeWhile_imp hd⟩, ?_⟩
          simpa [reference] using hmore
        · cases h
      · cases h
    · cases h
  · rintro ⟨hname, rfl⟩
    cases name with
    | nil => exact hname.elim
    | cons c rest =>
      obtain ⟨hstart, hpart⟩ := hname
      have hend : isNamePart '\x7d' = false := rfl
      simp [reference, reference?, hstart, List.dropWhile_append_of_pos hpart,
        List.takeWhile_append_of_pos hpart, hend]

theorem not_reference (h : reference? cs = none) (hname : IsName name) : cs ≠ reference name ++ after := by
  intro hcs
  rw [reference?_iff.2 ⟨hname, hcs⟩] at h
  cases h

/-- Every dollar of a reference is at its start. -/
theorem dollar_not_mem (h : IsName name) : '$' ∉ '\x7b' :: name ++ ['\x7d'] := by
  intro hmem
  have hname : '$' ∈ name := by simpa using hmem
  have hpart : isNamePart '$' = true := h.part _ hname
  exact absurd hpart (by decide)

/-- **References do not overlap**: what stands before a second one has all of the first. -/
theorem reference_apart (hname : IsName name) (hname' : IsName name')
    (h : reference name ++ rest = before ++ (reference name' ++ after)) :
    (before = [] ∧ name' = name ∧ after = rest) ∨
      ∃ between, before = reference name ++ between ∧ rest = between ++ (reference name' ++ after) := by
  obtain ⟨between, hb, hr⟩ | ⟨w, hw, hr⟩ := List.append_eq_append_iff.1 h
  · exact .inr ⟨between, hb, hr⟩
  · cases before with
    | nil =>
      have hread : reference? (reference name ++ rest) = some (name, rest) := reference?_iff.2 ⟨hname, rfl⟩
      have hread' := reference?_iff.2 ⟨hname', h⟩
      rw [hread] at hread'
      obtain ⟨rfl, rfl⟩ := Prod.mk.inj (Option.some.inj hread')
      exact .inl ⟨rfl, rfl, rfl⟩
    | cons b before =>
      cases w with
      | nil =>
        have hall : reference name = b :: before := by simpa using hw
        exact .inr ⟨[], by rw [hall, List.append_nil], hr.symm⟩
      | cons d w =>
        -- the dollar of the second reference would stand inside the first
        have hd : d = '$' := (List.cons.inj hr).1.symm
        have htail : '\x7b' :: name ++ ['\x7d'] = before ++ d :: w := (List.cons.inj hw).2
        have hmem : '$' ∈ before ++ d :: w := by rw [hd]; simp
        exact absurd (htail ▸ hmem) (dollar_not_mem hname)

/-! ### Expanding, piece by piece -/

theorem resolve_eq (env : Environment) (name : List Char) : resolve env name = env.standing name := by
  unfold resolve standing reference
  cases env.lookup (String.ofList name) <;> rfl

theorem expandChars_reference (h : IsName name) :
    env.expandChars (reference name ++ after) = env.standing name ++ env.expandChars after := by
  have hread : reference? (reference name ++ after) = some (name, after) := reference?_iff.2 ⟨h, rfl⟩
  rw [reference, List.cons_append, List.cons_append] at hread ⊢
  rw [expandChars]
  split
  · rename_i heq
    rw [hread] at heq
    obtain ⟨rfl, rfl⟩ := Prod.mk.inj (Option.some.inj heq)
    rw [resolve_eq]
  · rename_i heq
    rw [hread] at heq
    cases heq

theorem expandChars_cons (h : reference? (c :: rest) = none) :
    env.expandChars (c :: rest) = c :: env.expandChars rest := by
  rw [expandChars]
  split
  · rename_i heq
    rw [h] at heq
    cases heq
  · rfl

/-- **Expanding distributes over a seam that no reference straddles.** -/
theorem expandChars_append (h : ¬ Straddled s t) :
    env.expandChars (s ++ t) = env.expandChars s ++ env.expandChars t := by
  induction hn : s.length using Nat.strong_induction_on generalizing s with
  | _ n ih =>
  cases s with
  | nil => simp [expandChars]
  | cons c rest =>
    cases href : reference? (c :: (rest ++ t)) with
    | none =>
      have hhead : reference? (c :: rest) = none := by
        by_contra hne
        obtain ⟨⟨name, after⟩, hread⟩ := Option.ne_none_iff_exists'.1 hne
        obtain ⟨hname, hcs⟩ := reference?_iff.1 hread
        exact not_reference href hname (by rw [← List.cons_append, hcs, List.append_assoc])
      have htail : ¬ Straddled rest t := by
        rintro ⟨before, name, after, hname, heq, hlt, hgt⟩
        exact h ⟨c :: before, name, after, hname, by rw [List.cons_append, heq, List.cons_append],
          by simpa using hlt, by simp only [List.length_cons]; omega⟩
      rw [List.cons_append, expandChars_cons href, expandChars_cons hhead,
        ih rest.length (by simp [← hn]) htail rfl, List.cons_append]
    | some found =>
      obtain ⟨name, after⟩ := found
      obtain ⟨hname, hcs⟩ := reference?_iff.1 href
      -- the reference ends before the seam, so the rest of the first text follows it
      have hends : (reference name).length ≤ (c :: rest).length := by
        by_contra hlt
        exact h ⟨[], name, after, hname, hcs, by simp, by simpa using hlt⟩
      obtain ⟨s', hs, hafter⟩ : ∃ s', c :: rest = reference name ++ s' ∧ after = s' ++ t := by
        rw [← List.cons_append] at hcs
        obtain ⟨w, hw, ht⟩ | ⟨w, hw, ht⟩ := List.append_eq_append_iff.1 hcs
        · have hw0 : w = [] := by
            have hlen := congrArg List.length hw
            rw [List.length_append] at hlen
            exact List.length_eq_zero_iff.1 (by omega)
          exact ⟨[], by rw [hw, hw0, List.append_nil, List.append_nil], by rw [ht, hw0]; rfl⟩
        · exact ⟨w, hw, ht⟩
      have htail : ¬ Straddled s' t := by
        rintro ⟨before, name', after', hname', heq, hlt, hgt⟩
        refine h ⟨reference name ++ before, name', after', hname', ?_, ?_, ?_⟩
        · rw [hs, List.append_assoc, heq, List.append_assoc]
        · rw [hs, List.length_append, List.length_append]; omega
        · rw [hs, List.length_append, List.length_append]; omega
      have hshort : s'.length < n := by
        rw [← hn, hs, List.length_append]
        simp [reference]
      rw [hs, List.append_assoc, expandChars_reference hname, expandChars_reference hname,
        ih s'.length hshort htail rfl, List.append_assoc]

/-! ### The pieces of a text -/

/-- The pieces of a text, from left to right. -/
def split : List Char → Pieces
  | [] => ⟨[], []⟩
  | c :: rest =>
    match h : reference? (c :: rest) with
    | some (name, after) =>
      have := length_of_reference? h
      ⟨[], (name, (split after).first) :: (split after).more⟩
    | none => ⟨c :: (split rest).first, (split rest).more⟩
termination_by cs => cs.length
decreasing_by
  · exact this
  · exact Nat.lt_succ_self rest.length

theorem join_cons (f : List Char → List Char) (first : List Char) (r : List Char × List Char)
    (more : List (List Char × List Char)) :
    Pieces.join f ⟨first, r :: more⟩ = first ++ (f r.1 ++ Pieces.join f ⟨r.2, more⟩) := by
  simp [Pieces.join]

theorem join_concat (f : List Char → List Char) (c : Char) (first : List Char)
    (more : List (List Char × List Char)) :
    Pieces.join f ⟨c :: first, more⟩ = c :: Pieces.join f ⟨first, more⟩ := rfl

theorem isSplit_nil : Pieces.IsSplit ⟨[], []⟩ [] := by
  refine ⟨rfl, by simp, fun before name after _ h => ?_⟩
  have hlen := congrArg List.length h
  simp [reference] at hlen

theorem isSplit_cons (hc : reference? (c :: rest) = none) (hp : p.IsSplit rest) :
    Pieces.IsSplit ⟨c :: p.first, p.more⟩ (c :: rest) := by
  refine ⟨by rw [join_concat, hp.joined], hp.named, fun before name after hname h => ?_⟩
  cases before with
  | nil => exact absurd h (not_reference hc hname)
  | cons b before =>
    obtain ⟨rfl, hrest⟩ := List.cons.inj h
    obtain ⟨earlier, piece, later, hmore, rfl⟩ := hp.all before name after hname hrest
    exact ⟨earlier, piece, later, hmore, rfl⟩

theorem isSplit_reference (hname : IsName name) (hp : p.IsSplit after) :
    Pieces.IsSplit ⟨[], (name, p.first) :: p.more⟩ (reference name ++ after) := by
  refine ⟨by rw [join_cons, hp.joined]; rfl, List.forall_mem_cons.2 ⟨hname, hp.named⟩,
    fun before name' after' hname' h => ?_⟩
  obtain ⟨rfl, rfl, -⟩ | ⟨between, rfl, hafter⟩ := reference_apart hname hname' h
  · exact ⟨[], p.first, p.more, rfl, rfl⟩
  · obtain ⟨earlier, piece, later, hmore, rfl⟩ := hp.all between name' after' hname' hafter
    exact ⟨(name, p.first) :: earlier, piece, later, by rw [hmore]; rfl, by rw [join_cons]; rfl⟩

/-- **Every text has its pieces.** -/
theorem isSplit_split (cs : List Char) : (split cs).IsSplit cs := by
  fun_induction split cs with
  | case1 => exact isSplit_nil
  | case2 c rest name after h _ ih =>
    obtain ⟨hname, hcs⟩ := reference?_iff.1 h
    rw [hcs]
    exact isSplit_reference hname ih
  | case3 c rest h ih => exact isSplit_cons h ih

/-- What follows the first reference has the pieces that follow it. -/
theorem Pieces.IsSplit.tail {piece : List Char} {later : List (List Char × List Char)}
    (hp : Pieces.IsSplit ⟨[], (name, piece) :: later⟩ (reference name ++ after)) :
    Pieces.IsSplit ⟨piece, later⟩ after := by
  have hjoined := hp.joined
  rw [join_cons, List.nil_append, List.append_cancel_left_eq] at hjoined
  refine ⟨hjoined, fun r hr => hp.named r (List.mem_cons_of_mem _ hr), fun before name' after' hname' h => ?_⟩
  obtain ⟨earlier, piece', later', hmore, hbefore⟩ :=
    hp.all (reference name ++ before) name' after' hname' (by rw [h, List.append_assoc])
  cases earlier with
  | nil =>
    -- nothing stands before the first reference
    have hlen := congrArg List.length hbefore
    simp [Pieces.join, reference] at hlen
  | cons r earlier =>
    obtain ⟨rfl, rfl⟩ := List.cons.inj hmore
    rw [join_cons, List.nil_append, List.append_cancel_left_eq] at hbefore
    exact ⟨earlier, piece', later', rfl, hbefore⟩

/-- **A text has no other pieces.** -/
theorem Pieces.IsSplit.eq_split (hp : p.IsSplit cs) : p = split cs := by
  obtain ⟨first, more⟩ := p
  fun_induction split cs generalizing first more with
  | case1 =>
    obtain ⟨rfl, hmore⟩ := List.append_eq_nil_iff.1 hp.joined
    cases more with
    | nil => rfl
    | cons r more => simp [reference] at hmore
  | case2 c rest name after h _ ih =>
    obtain ⟨hname, hcs⟩ := reference?_iff.1 h
    rw [hcs] at hp
    obtain ⟨earlier, piece, later, rfl, hbefore⟩ := hp.all [] name after hname rfl
    obtain ⟨rfl, hearlier⟩ := List.append_eq_nil_iff.1 hbefore.symm
    cases earlier with
    | nil => rw [← ih piece later hp.tail]; rfl
    | cons r earlier => simp [reference] at hearlier
  | case3 c rest h ih =>
    cases first with
    | nil =>
      cases more with
      | nil => exact absurd hp.joined (by simp [Pieces.join])
      | cons r more =>
        have hjoined := hp.joined
        rw [join_cons, List.nil_append] at hjoined
        exact absurd hjoined.symm (not_reference h (hp.named r List.mem_cons_self))
    | cons c' first =>
      obtain ⟨rfl, hrest⟩ := List.cons.inj hp.joined
      have htail : Pieces.IsSplit ⟨first, more⟩ rest := by
        refine ⟨hrest, hp.named, fun before name after hname heq => ?_⟩
        obtain ⟨earlier, piece, later, hmore, hbefore⟩ :=
          hp.all (c' :: before) name after hname (by rw [heq, List.cons_append])
        exact ⟨earlier, piece, later, hmore, (List.cons.inj hbefore).2⟩
      rw [← ih first more htail]

/-- **Expanding keeps the literal pieces and replaces the references.** -/
theorem expandChars_eq (env : Environment) (cs : List Char) :
    env.expandChars cs = (split cs).join env.standing := by
  fun_induction split cs with
  | case1 => simp [expandChars, Pieces.join]
  | case2 c rest name after h _ ih =>
    obtain ⟨hname, hcs⟩ := reference?_iff.1 h
    rw [hcs, expandChars_reference hname, ih, join_cons]
    rfl
  | case3 c rest h ih => rw [expandChars_cons h, ih, join_concat]

/-! ### Texts -/

/-- A text without references is one piece. -/
theorem isSplit_plain (h : ∀ name, IsName name → ¬ reference name <:+: cs) : Pieces.IsSplit ⟨cs, []⟩ cs := by
  refine ⟨by simp [Pieces.join], by simp, fun before name after hname hcs => ?_⟩
  exact absurd ⟨before, after, by rw [hcs, List.append_assoc]⟩ (h name hname)

/-- No reference straddles the place before a dollar. -/
theorem not_straddled_dollar (s t : List Char) : ¬ Straddled s ('$' :: t) := by
  rintro ⟨before, name, after, hname, heq, hlt, hgt⟩
  obtain ⟨w, hbefore, -⟩ | ⟨w, hs, hw⟩ := List.append_eq_append_iff.1 heq
  · rw [hbefore, List.length_append] at hlt
    omega
  · cases w with
    | nil => rw [hs, List.append_nil] at hlt; omega
    | cons d w =>
      -- the seam falls inside the reference, where there is no dollar
      have htail : ('\x7b' :: name ++ ['\x7d']) ++ after = w ++ '$' :: t := (List.cons.inj hw).2
      have hshort : w.length < ('\x7b' :: name ++ ['\x7d']).length := by
        rw [hs, List.length_append, List.length_cons] at hgt
        simp only [reference, List.length_cons, List.length_append] at hgt ⊢
        omega
      obtain ⟨u, hu, -⟩ | ⟨u, hu, hr⟩ := List.append_eq_append_iff.1 htail
      · rw [hu, List.length_append] at hshort
        omega
      · cases u with
        | nil => rw [hu, List.append_nil] at hshort; omega
        | cons e u =>
          have hmem : '$' ∈ '\x7b' :: name ++ ['\x7d'] := by rw [hu, (List.cons.inj hr).1]; simp
          exact dollar_not_mem hname hmem

/-- **What becomes of a text.** It has pieces in one way; expanding keeps the literal ones as they are and puts the value
of its variable for each reference, or leaves it where there is no such variable. -/
theorem expand_pieces (env : Environment) (text : String) :
    (∃! p : Pieces, p.IsSplit text.toList) ∧
      (∀ p : Pieces, p.IsSplit text.toList → env.expand text = String.ofList (p.join env.standing)) ∧
      ((∀ name, IsName name → ¬ reference name <:+: text.toList) → env.expand text = text) ∧
      (∀ s t : String, text = s ++ t → ¬ Straddled s.toList t.toList →
        env.expand text = env.expand s ++ env.expand t) ∧
      ∀ s t : String, text = s ++ "$" ++ t → (∀ name, IsName name → ¬ reference name <+: '$' :: t.toList) →
        env.expand text = env.expand s ++ "$" ++ env.expand t := by
  have hpieces : ∀ p : Pieces, p.IsSplit text.toList → env.expand text = String.ofList (p.join env.standing) := by
    intro p hp
    rw [expand, expandChars_eq, ← hp.eq_split]
  refine ⟨⟨split text.toList, isSplit_split _, fun p hp => hp.eq_split⟩, hpieces, fun hplain => ?_, ?_, ?_⟩
  · rw [hpieces _ (isSplit_plain hplain)]
    simp [Pieces.join]
  · rintro s t rfl hseam
    rw [expand, String.toList_append, expandChars_append hseam, String.ofList_append]
    rfl
  · rintro s t rfl hopening
    have hdollar : reference? ('$' :: t.toList) = none := by
      by_contra hne
      obtain ⟨⟨name, after⟩, hread⟩ := Option.ne_none_iff_exists'.1 hne
      obtain ⟨hname, hcs⟩ := reference?_iff.1 hread
      exact hopening name hname ⟨after, hcs.symm⟩
    have htext : (s ++ "$" ++ t).toList = s.toList ++ '$' :: t.toList := by simp
    rw [expand, htext, expandChars_append (not_straddled_dollar _ _), expandChars_cons hdollar]
    simp [expand, String.ofList_append, String.append_assoc, String.ofList_cons]

/-- A variable whose value is written like a reference to another one. -/
def echo : Environment := [("A", "$\x7bB\x7d"), ("B", "x")]

/-- The value of a variable is not looked at again, a reference to no variable stays, and so do the dollars and
braces that make no reference. -/
theorem expand_pieces_echo :
    (Pieces.IsSplit ⟨['$'], [(['A'], ['-']), (['C'], [])]⟩ "$$\x7bA\x7d-$\x7bC\x7d".toList ∧
        echo.expand "$$\x7bA\x7d-$\x7bC\x7d" = "$$\x7bB\x7d-$\x7bC\x7d") ∧
      ((∀ name, IsName name → ¬ reference name <:+: "$\x7b1A\x7d".toList) ∧
        echo.expand "$\x7b1A\x7d" = "$\x7b1A\x7d") ∧
      (¬ Straddled "$\x7b".toList "$\x7bB\x7d".toList ∧
        echo.expand ("$\x7b" ++ "$\x7bB\x7d") = echo.expand "$\x7b" ++ echo.expand "$\x7bB\x7d") ∧
      ((∀ name, IsName name → ¬ reference name <+: '$' :: "\x7bA".toList) ∧
        echo.expand ("" ++ "$" ++ "\x7bA") = echo.expand "" ++ "$" ++ echo.expand "\x7bA") := by
  have hsplit : split "$$\x7bA\x7d-$\x7bC\x7d".toList = ⟨['$'], [(['A'], ['-']), (['C'], [])]⟩ := by
    decide +kernel
  have hp : Pieces.IsSplit ⟨['$'], [(['A'], ['-']), (['C'], [])]⟩ "$$\x7bA\x7d-$\x7bC\x7d".toList :=
    hsplit ▸ isSplit_split _
  have hnone : split "$\x7b1A\x7d".toList = ⟨"$\x7b1A\x7d".toList, []⟩ := by decide +kernel
  have hplain : ∀ name, IsName name → ¬ reference name <:+: "$\x7b1A\x7d".toList := by
    rintro name hname ⟨before, after, hcs⟩
    obtain ⟨earlier, piece, later, hmore, -⟩ :=
      (isSplit_split "$\x7b1A\x7d".toList).all before name after hname (by rw [← hcs, List.append_assoc])
    rw [hnone] at hmore
    simp at hmore
  have hopening : ∀ name, IsName name → ¬ reference name <+: '$' :: "\x7bA".toList := by
    rintro name hname ⟨after, hcs⟩
    have hnone : reference? ('$' :: "\x7bA".toList) = none := by decide
    exact not_reference hnone hname hcs.symm
  refine ⟨⟨hp, ((expand_pieces echo _).2.1 _ hp).trans (by decide +kernel)⟩,
    ⟨hplain, (expand_pieces echo _).2.2.1 hplain⟩, ?_, hopening, (expand_pieces echo _).2.2.2.2 _ _ rfl hopening⟩
  have hseam : ¬ Straddled "$\x7b".toList "$\x7bB\x7d".toList := not_straddled_dollar _ _
  exact ⟨hseam, (expand_pieces echo _).2.2.2.1 _ _ rfl hseam⟩

end FlowHost.Environment
