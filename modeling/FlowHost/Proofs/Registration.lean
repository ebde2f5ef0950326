import FlowHost.Native
import Mathlib.Data.List.Induction
import Mathlib.Data.List.Nodup

/-!
# Registering native functions

A table takes a function whose name is neither a core import's nor taken, and refuses every other one without a change.
After any offers it holds, of all functions that were offered under a name, the first.

* `NativeTable.offer_cases`: what becomes of an offer.
* `NativeTable.Sound`: the names of a table are all different, and none is a core import's.
* `NativeTable.sound_ofOffers`: **so they are after any offers.**
* `NativeTable.find?_ofOffers`: **the first offer of a name is the one that counts.**
-/

namespace FlowHost.NativeTable

variable {t : NativeTable} {f g : NativeFunction} {fs : List NativeFunction} {name : String}

/-! ### A place in the order of names -/

/-- A function is put somewhere among the others. -/
theorem insert_perm (f : NativeFunction) (fs : List NativeFunction) : (insert f fs).Perm (f :: fs) := by
  induction fs with
  | nil => exact .refl _
  | cons g rest ih =>
    by_cases hlt : f.name < g.name
    · rw [insert, if_pos hlt]
    · rw [insert, if_neg hlt]
      exact (ih.cons g).trans (.swap f g rest)

/-- Wherever a new name is put, every name leads to what it led to before. -/
theorem find?_insert (h : f.name ∉ fs.map (·.name)) :
    (insert f fs).find? (fun g => g.name == name) =
      if f.name = name then some f else fs.find? fun g => g.name == name := by
  -- what stands before the new name has another name, so it is not found instead
  induction fs with
  | nil => by_cases hname : f.name = name <;> simp [insert, hname]
  | cons g rest ih =>
    rw [List.map_cons, List.mem_cons, not_or] at h
    by_cases hlt : f.name < g.name
    · rw [insert, if_pos hlt]
      by_cases hname : f.name = name <;> simp [hname]
    · rw [insert, if_neg hlt]
      by_cases hg : g.name = name
      · have hf : f.name ≠ name := fun hf => h.1 (hf.trans hg.symm)
        simp [hg, hf]
      · rw [List.find?_cons_of_neg (by simpa using hg), List.find?_cons_of_neg (by simpa using hg), ih h.2]

/-! ### One offer -/

/-- No function has a name that is not among the names. -/
theorem find?_eq_none_iff : t.find? name = none ↔ name ∉ t.names := by
  simp [find?, names]

theorem name_of_find? (h : t.find? name = some f) : f.name = name := by
  simpa using List.find?_some h

/-- **What becomes of an offer**: the names of core imports and those that are taken are refused. -/
inductive Offered (t : NativeTable) (f : NativeFunction) : Except Error Unit × NativeTable → Prop
  | coreName (h : f.name ∈ coreNames) : Offered t f (.error (.registration (.coreName f.name)), t)
  | duplicate (h : f.name ∉ coreNames) (htaken : f.name ∈ t.names) :
      Offered t f (.error (.registration (.duplicate f.name)), t)
  | taken (h : f.name ∉ coreNames) (hnew : f.name ∉ t.names) : Offered t f (.ok (), ⟨insert f t.functions⟩)

/-- **Every offer comes to one of these.** -/
theorem offer_cases (t : NativeTable) (f : NativeFunction) : Offered t f (t.offer f) := by
  unfold offer register
  by_cases hcore : f.name ∈ coreNames
  · rw [if_pos (List.contains_iff_mem.2 hcore)]
    exact .coreName hcore
  · rw [if_neg (mt List.contains_iff_mem.1 hcore)]
    cases hfind : t.find? f.name with
    | none => exact .taken hcore (find?_eq_none_iff.1 hfind)
    | some g =>
      refine .duplicate hcore (Classical.not_not.1 fun hnew => ?_)
      rw [find?_eq_none_iff.2 hnew] at hfind
      cases hfind

/-- **An offer adds at most its own name**, and changes no other. -/
theorem find?_offer (t : NativeTable) (f : NativeFunction) (name : String) : (t.offer f).2.find? name =
    (t.find? name).or (if f.name = name ∧ name ∉ coreNames then some f else none) := by
  have hcases := offer_cases t f
  generalize t.offer f = outcome at hcases ⊢
  cases hcases with
  | coreName h =>
    have hno : ¬ (f.name = name ∧ name ∉ coreNames) := fun hname => hname.2 (hname.1 ▸ h)
    rw [if_neg hno, Option.or_none]
  | duplicate h htaken =>
    by_cases hname : f.name = name
    · obtain ⟨g, hg⟩ := Option.ne_none_iff_exists'.1 (mt find?_eq_none_iff.1 (not_not_intro htaken))
      rw [← hname, hg]
      rfl
    · rw [if_neg fun hboth => hname hboth.1, Option.or_none]
  | taken h hnew =>
    have hinsert : find? ⟨insert f t.functions⟩ name = if f.name = name then some f else t.find? name :=
      find?_insert hnew
    by_cases hname : f.name = name
    · subst hname
      rw [hinsert, if_pos rfl, find?_eq_none_iff.2 hnew, if_pos ⟨rfl, h⟩]
      rfl
    · rw [hinsert, if_neg hname, if_neg fun hboth => hname hboth.1, Option.or_none]

/-! ### Any offers -/

/-- **A table whose names are all different**, and none a core import's. -/
structure Sound (t : NativeTable) : Prop where
  distinct : t.names.Nodup
  apart : ∀ name ∈ t.names, name ∉ coreNames

/-- An offer leaves a sound table sound. -/
theorem Sound.offer (h : t.Sound) (f : NativeFunction) : (t.offer f).2.Sound := by
  have hcases := offer_cases t f
  generalize t.offer f = outcome at hcases ⊢
  cases hcases with
  | coreName => exact h
  | duplicate => exact h
  | taken hcore hnew =>
    have hperm : (names ⟨insert f t.functions⟩).Perm (f.name :: t.names) := (insert_perm f t.functions).map _
    refine ⟨hperm.nodup_iff.2 (List.nodup_cons.2 ⟨hnew, h.distinct⟩), fun name hname => ?_⟩
    obtain rfl | hname := List.mem_cons.1 (hperm.mem_iff.1 hname)
    · exact hcore
    · exact h.apart name hname

theorem ofOffers_concat (fs : List NativeFunction) (f : NativeFunction) :
    ofOffers (fs ++ [f]) = ((ofOffers fs).offer f).2 := by
  rw [ofOffers, List.foldl_append]
  rfl

/-- **Whatever is offered, a table is sound.** -/
theorem sound_ofOffers (fs : List NativeFunction) : (ofOffers fs).Sound := by
  -- along the offers, the last one last
  induction fs using List.reverseRecOn with
  | nil => exact ⟨List.nodup_nil, fun name hname => absurd hname List.not_mem_nil⟩
  | append_singleton fs f ih =>
    rw [ofOffers_concat]
    exact ih.offer f

/-- **The first offer of a name is the one that counts**, and offers under the names of core imports do not. -/
theorem find?_ofOffers (fs : List NativeFunction) (name : String) :
    (ofOffers fs).find? name = if name ∈ coreNames then none else fs.find? fun f => f.name == name := by
  induction fs using List.reverseRecOn with
  | nil => by_cases hcore : name ∈ coreNames <;> simp [hcore, ofOffers, empty, find?]
  | append_singleton fs f ih =>
    rw [ofOffers_concat, find?_offer, ih]
    by_cases hcore : name ∈ coreNames
    · simp [hcore]
    · by_cases hname : f.name = name <;> simp [hcore, hname, List.find?_append]

/-- The names of a table are those that were offered, but for the names of core imports. -/
theorem mem_names_ofOffers : name ∈ (ofOffers fs).names ↔ name ∉ coreNames ∧ name ∈ fs.map (·.name) := by
  rw [← not_iff_not, ← find?_eq_none_iff, find?_ofOffers]
  by_cases hcore : name ∈ coreNames <;> simp [hcore]

/-- A function of a sound table is the one that its name leads to. -/
theorem Sound.find?_eq_some (h : t.Sound) : t.find? name = some f ↔ f ∈ t.functions ∧ f.name = name := by
  constructor
  · exact fun hfind => ⟨List.mem_of_find?_eq_some hfind, name_of_find? hfind⟩
  · rintro ⟨hmem, rfl⟩
    cases hfind : t.find? f.name with
    | none => exact absurd (List.mem_map_of_mem hmem) (find?_eq_none_iff.1 hfind)
    | some g =>
      have hg : g ∈ t.functions := List.mem_of_find?_eq_some hfind
      exact congrArg some (List.inj_on_of_nodup_map h.distinct hg hmem (name_of_find? hfind))

/-- **A table holds the functions that were offered first under their names**, and no others. -/
theorem mem_ofOffers : f ∈ (ofOffers fs).functions ↔
    f.name ∉ coreNames ∧ fs.find? (fun g => g.name == f.name) = some f := by
  have hfind : (ofOffers fs).find? f.name = some f ↔ f ∈ (ofOffers fs).functions :=
    (sound_ofOffers fs).find?_eq_some.trans (and_iff_left rfl)
  rw [← hfind, find?_ofOffers]
  by_cases hcore : f.name ∈ coreNames <;> simp [hcore]

end FlowHost.NativeTable
