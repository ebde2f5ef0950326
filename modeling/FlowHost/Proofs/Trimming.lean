import FlowHost.Agent.Console
import Mathlib.Data.List.DropRight

/-!
# Blanks in a line

A line is taken apart at its blanks: those at its ends are dropped, and what is left is cut at the first one.

* `trimBlank_parts`, `trimBlank_append`: **what is left of a line** without the blanks around it.
* `Console.splitBlank?_append`, `Console.splitBlank?_cases`: where characters are cut.
* `Console.head_cut`: the first word of a line.
-/

namespace FlowHost

/-- Characters that are all blank. -/
def AreBlank (cs : List Char) : Prop := ∀ c ∈ cs, isBlank c = true

/-- Characters of which none is blank. -/
def AreSolid (cs : List Char) : Prop := ∀ c ∈ cs, isBlank c = false

/-- Characters with no blank at either end. -/
structure IsTrimmed (cs : List Char) : Prop where
  first : ∀ c ∈ cs.head?, isBlank c = false
  last : ∀ c ∈ cs.getLast?, isBlank c = false

variable {before core after bs rest : List Char}

/-! ### The ends of a line -/

/-- Blanks are dropped up to what is none. -/
theorem dropWhile_blank (h : AreBlank bs) (hrest : ∀ c ∈ rest.head?, isBlank c = false) :
    (bs ++ rest).dropWhile isBlank = rest := by
  rw [List.dropWhile_append_of_pos h]
  cases rest with
  | nil => rfl
  | cons c rest => exact List.dropWhile_cons_of_neg (by simpa using hrest c rfl)

/-- What is left begins with no blank. -/
theorem head_dropWhile_blank (cs : List Char) : ∀ c ∈ (cs.dropWhile isBlank).head?, isBlank c = false := by
  intro c hc
  have hhead := List.head?_dropWhile_not isBlank cs
  rw [Option.mem_def.1 hc] at hhead
  simpa using hhead

/-- **A line is what is left of it**, with blanks around that. -/
theorem trimBlank_parts (cs : List Char) : ∃ before after, AreBlank before ∧ AreBlank after ∧
    cs = before ++ trimBlank cs ++ after ∧ IsTrimmed (trimBlank cs) := by
  set core := cs.dropWhile isBlank with hcore
  -- the blanks at the end are the first of the characters in reverse
  have hend : core = trimBlankEnd core ++ (core.reverse.takeWhile isBlank).reverse := by
    rw [trimBlankEnd, ← List.reverse_append, List.takeWhile_append_dropWhile, List.reverse_reverse]
  have hparts : cs = cs.takeWhile isBlank ++ trimBlank cs ++ (core.reverse.takeWhile isBlank).reverse := by
    rw [List.append_assoc, trimBlank, ← hcore, ← hend, hcore, List.takeWhile_append_dropWhile]
  refine ⟨_, _, fun c => List.mem_takeWhile_imp, fun c hc => ?_, hparts, fun c hc => ?_, fun c hc => ?_⟩
  · exact List.mem_takeWhile_imp (List.mem_reverse.1 hc)
  · have hfirst := head_dropWhile_blank cs c
    rw [← hcore, hend, List.head?_append_of_ne_nil] at hfirst
    · exact hfirst hc
    · rintro hnil
      rw [trimBlank, ← hcore, hnil] at hc
      cases hc
  · rw [trimBlank, trimBlankEnd, List.getLast?_reverse] at hc
    exact head_dropWhile_blank _ c hc

/-- **And nothing else is**: where a line is blanks around characters without blanks at their ends, these are left. -/
theorem trimBlank_append (hbefore : AreBlank before) (hafter : AreBlank after) (h : IsTrimmed core) :
    trimBlank (before ++ core ++ after) = core := by
  by_cases hnil : core = []
  · subst hnil
    have hall : (before ++ [] ++ after).dropWhile isBlank = [] :=
      List.dropWhile_eq_nil_iff.2 fun c hc => by
        obtain hc | hc := List.mem_append.1 (by simpa using hc)
        · exact hbefore c hc
        · exact hafter c hc
    rw [trimBlank, hall]
    rfl
  · have hfront : (before ++ core ++ after).dropWhile isBlank = core ++ after := by
      rw [List.append_assoc]
      refine dropWhile_blank hbefore fun c hc => h.first c ?_
      rwa [List.head?_append_of_ne_nil _ hnil] at hc
    have hback : (after.reverse ++ core.reverse).dropWhile isBlank = core.reverse := by
      refine dropWhile_blank (fun c hc => hafter c (List.mem_reverse.1 hc)) fun c hc => h.last c ?_
      rwa [List.head?_reverse] at hc
    rw [trimBlank, hfront, trimBlankEnd, List.reverse_append, hback, List.reverse_reverse]

/-- Blanks before what is left are dropped. -/
theorem trimBlank_lead (hbs : AreBlank bs) (h : IsTrimmed core) : trimBlank (bs ++ core) = core := by
  have hleft := trimBlank_append hbs (List.forall_mem_nil _) h
  rwa [List.append_nil] at hleft

/-- Characters between two that have no blank on the outer side. -/
theorem isTrimmed_append {front middle back : List Char} (hfront : ∀ c ∈ front.head?, isBlank c = false)
    (hback : ∀ c ∈ back.getLast?, isBlank c = false) (hf : front ≠ []) (hb : back ≠ []) :
    IsTrimmed (front ++ (middle ++ back)) := by
  refine ⟨fun c hc => hfront c ?_, fun c hc => hback c ?_⟩
  · rwa [List.head?_append_of_ne_nil _ hf] at hc
  · rwa [← List.append_assoc, List.getLast?_append_of_ne_nil _ hb] at hc

namespace Console

variable {word : List Char} {b : Char}

/-! ### The first blank -/

/-- Characters are cut at the first blank. -/
theorem splitBlank?_append (h : AreSolid word) (hb : isBlank b = true) (rest : List Char) :
    splitBlank? (word ++ b :: rest) = some (word, rest) := by
  induction word with
  | nil => rw [List.nil_append, splitBlank?, if_pos hb]
  | cons c word ih =>
    have hc : ¬ isBlank c = true := by simpa using h c List.mem_cons_self
    rw [List.cons_append, splitBlank?, if_neg hc, ih fun d hd => h d (List.mem_cons_of_mem c hd)]
    rfl

/-- Without a blank they are not cut. -/
theorem splitBlank?_solid (h : AreSolid word) : splitBlank? word = none := by
  induction word with
  | nil => rfl
  | cons c word ih =>
    have hc : ¬ isBlank c = true := by simpa using h c List.mem_cons_self
    rw [splitBlank?, if_neg hc, ih fun d hd => h d (List.mem_cons_of_mem c hd)]
    rfl

/-- **Either there is no blank, or they are cut there.** -/
theorem splitBlank?_cases (cs : List Char) : AreSolid cs ∨
    ∃ word b rest, AreSolid word ∧ isBlank b = true ∧ cs = word ++ b :: rest := by
  induction cs with
  | nil => exact .inl (List.forall_mem_nil _)
  | cons c cs ih =>
    cases hc : isBlank c with
    | true => exact .inr ⟨[], c, cs, List.forall_mem_nil _, hc, rfl⟩
    | false =>
      rcases ih with hsolid | ⟨word, b, rest, hword, hb, rfl⟩
      · exact .inl (List.forall_mem_cons.2 ⟨hc, hsolid⟩)
      · exact .inr ⟨c :: word, b, rest, List.forall_mem_cons.2 ⟨hc, hword⟩, hb, rfl⟩

/-! ### The first word -/

/-- The first word of a line. -/
def firstWord (line : List Char) : List Char := (line.dropWhile isBlank).takeWhile fun c => !isBlank c

/-- A line without a word is blank. -/
theorem firstWord_eq_nil {line : List Char} : firstWord line = [] ↔ AreBlank line := by
  have hhead := head_dropWhile_blank line
  rw [AreBlank, ← List.dropWhile_eq_nil_iff, firstWord]
  cases hrest : line.dropWhile isBlank with
  | nil => exact iff_of_true rfl rfl
  | cons c rest =>
    have hc : isBlank c = false := hhead c (by rw [hrest]; rfl)
    rw [List.takeWhile_cons_of_pos (by simpa using hc)]
    exact iff_of_false (List.cons_ne_nil _ _) (List.cons_ne_nil _ _)

/-- Blanks at the end of a line are no part of its words. -/
theorem takeWhile_solid (h : AreBlank after) (core : List Char) :
    (core ++ after).takeWhile (fun c => !isBlank c) = core.takeWhile fun c => !isBlank c := by
  induction core with
  | nil =>
    cases after with
    | nil => rfl
    | cons c after => exact List.takeWhile_cons_of_neg (by simpa using h c List.mem_cons_self)
  | cons c core ih => rw [List.cons_append, List.takeWhile_cons, List.takeWhile_cons, ih]

/-- **What a line is cut off to is its first word.** -/
theorem head_cut (line : List Char) :
    ((splitBlank? (trimBlank line)).getD (trimBlank line, [])).1 = firstWord line := by
  obtain ⟨before, after, hbefore, hafter, hline, htrimmed⟩ := trimBlank_parts line
  have hfirst : firstWord line = (trimBlank line).takeWhile fun c => !isBlank c := by
    cases hcore : trimBlank line with
    | nil =>
      refine firstWord_eq_nil.2 ?_
      rw [hline, hcore, List.append_nil]
      exact List.forall_mem_append.2 ⟨hbefore, hafter⟩
    | cons c core =>
      have hsolid := htrimmed.first
      rw [hcore] at hline hsolid
      have hdrop : (before ++ (c :: core ++ after)).dropWhile isBlank = c :: core ++ after :=
        dropWhile_blank hbefore hsolid
      rw [firstWord, hline, List.append_assoc, hdrop, takeWhile_solid hafter]
  rw [hfirst]
  rcases splitBlank?_cases (trimBlank line) with hsolid | ⟨word, b, rest, hword, hb, hcut⟩
  · rw [splitBlank?_solid hsolid]
    exact (List.takeWhile_eq_self_iff.2 fun c hc => by simpa using hsolid c hc).symm
  · rw [hcut, splitBlank?_append hword hb, List.takeWhile_append_of_pos fun c hc => by simpa using hword c hc,
      List.takeWhile_cons_of_neg (by simpa using hb), List.append_nil]
    rfl

end Console

end FlowHost
