import FlowHost.Guest.Binary
import FlowHost.Instance.Launch
import Mathlib.Data.List.Basic

/-!
# Declarations of memories

A module declares the sizes of every memory that it has or imports. Whatever compiles declares only sizes
that the memory's form admits: those of a plain memory are within reach of words.

* `MemoryType.IsValid`: a declaration of a plain memory that makes sense.
* `Module.declarations`: all declarations of a module.
* `Source.compile?_isValid`, `Module.ofBinary?_isValid`: **what compiles makes sense.**
-/

namespace FlowHost

/-- **A declaration of a plain memory that makes sense**: it asks for no more pages than words reach, and no more
than its own maximum. -/
structure MemoryType.IsValid (type : MemoryType) : Prop where
  minimum : type.minimum ≤ maxPages
  maximum : ∀ most ∈ type.maximum, type.minimum ≤ most ∧ most ≤ maxPages

namespace MemoryForm

/-- **Sizes that a memory of a form may declare.** -/
structure Admits (form : MemoryForm) (type : MemoryType) : Prop where
  minimum : type.minimum ≤ form.reach
  maximum : ∀ most ∈ type.maximum, type.minimum ≤ most ∧ most ≤ form.reach
  shared : form.isShared = true → type.maximum ≠ none

/-- A memory that declares its maximum does not exceed it. -/
theorem most?_of_mem {form : MemoryForm} {declared : Option Nat} {most : Nat} (h : most ∈ declared) :
    form.most? declared = some most := by
  unfold most?
  rw [Option.mem_def.1 h]
  exact ite_self _

end MemoryForm

namespace Source

/-- A declaration is checked for what its form admits. -/
theorem validSizes_eq_true {form : MemoryForm} {type : MemoryType} :
    validSizes form type = true ↔ form.Admits type := by
  obtain ⟨minimum, maximum⟩ := type
  unfold validSizes
  rw [Bool.and_eq_true, decide_eq_true_eq]
  constructor
  · rintro ⟨hmin, hmax⟩
    refine ⟨hmin, ?_, ?_⟩
    · rintro most ⟨⟩
      exact of_decide_eq_true hmax
    · rintro hshared rfl
      simp [hshared] at hmax
  · rintro ⟨hmin, hmax, hshared⟩
    refine ⟨hmin, ?_⟩
    cases maximum with
    | none => simpa using hshared
    | some most => exact decide_eq_true (hmax most rfl)

end Source

namespace Module

/-- **All that a module declares of memories**: of the one that it shares with the host, of those that it
imports besides, and of its own besides. -/
def declarations (M : Module) : List (MemoryType × MemoryForm) :=
  M.memory.declaration?.toList ++ M.further.map (fun i => (i.type, i.form)) ++ M.spares.map fun x => (x.type, x.form)

/-- A module whose declarations all make sense. -/
def IsValid (M : Module) : Prop := ∀ d ∈ M.declarations, d.2.Admits d.1

theorem mem_declarations {M : Module} {d : MemoryType × MemoryForm} :
    d ∈ M.declarations ↔ d ∈ M.memory.declaration? ∨ (∃ i ∈ M.further, (i.type, i.form) = d) ∨
      ∃ x ∈ M.spares, (x.type, x.form) = d := by
  unfold declarations
  rw [List.mem_append, List.mem_append, List.mem_map, List.mem_map, Option.mem_toList, Option.mem_def,
    or_assoc]

end Module

/-- **A guest that is given by its programs** declares what makes sense. -/
theorem Source.compile?_isValid {source : Source} {M : Module} (h : source.compile? = some M) :
    M.IsValid := by
  unfold compile? at h
  split at h
  · rename_i hvalid
    cases h
    simp only [isValid, Bool.and_eq_true] at hvalid
    have hmemory : source.validMemory = true := hvalid.1.1.1.1
    intro d hd
    rcases Module.mem_declarations.1 hd with hd | ⟨i, hi, -⟩ | ⟨x, hx, -⟩
    · unfold validMemory at hmemory
      rw [Option.mem_def.1 hd] at hmemory
      exact validSizes_eq_true.1 hmemory
    · cases hi
    · cases hx
  · cases h

namespace Binary.Layout

/-- What a binary declares of its main memory is among what it imports or among its own. -/
theorem mem_memory {l : Layout} {d : MemoryType × MemoryForm} (h : d ∈ l.memory.declaration?) :
    (∃ i ∈ l.importedMemories, (i.type, i.form) = d) ∨ d ∈ l.memories := by
  unfold memory at h
  split at h
  · rename_i i hi
    cases h
    exact .inl ⟨i, List.mem_of_getElem? hi, rfl⟩
  · split at h
    · rename_i type form hfound
      cases h
      exact .inr (List.mem_of_getElem? hfound)
    · cases h

theorem mem_spareMemories {l : Layout} {x : SpareSource} (h : x ∈ l.spareMemories) :
    (x.type, x.form) ∈ l.memories := by
  obtain ⟨⟨d, index⟩, hmem, hx⟩ := List.mem_filterMap.1 h
  split at hx
  · cases hx
  · cases hx
    exact List.mem_of_getElem? (List.mk_mem_zipIdx_iff_le_and_getElem?_sub.1 hmem).2

end Binary.Layout

/-- **A guest that is given by its binary** declares what makes sense. -/
theorem Module.ofBinary?_isValid {binary : Bytes} {M : Module} (h : Module.ofBinary? binary = some M) :
    M.IsValid := by
  unfold ofBinary? at h
  simp only [Option.bind_eq_bind, Option.bind_eq_some_iff] at h
  obtain ⟨l, -, imports, -, own, -, h⟩ := h
  split at h
  · rename_i hvalid
    cases h
    simp only [Binary.Layout.isValid, Bool.and_eq_true, List.all_eq_true] at hvalid
    obtain ⟨⟨⟨⟨⟨⟨⟨⟨⟨⟨-, -⟩, hown⟩, himported⟩, -⟩, -⟩, -⟩, -⟩, -⟩, -⟩, -⟩ := hvalid
    have hmemories : ∀ d ∈ l.memories, d.2.Admits d.1 := fun d hd => Source.validSizes_eq_true.1 (hown d hd)
    have himports : ∀ i ∈ l.importedMemories, i.form.Admits i.type :=
      fun i hi => Source.validSizes_eq_true.1 (himported i hi)
    intro d hd
    rcases mem_declarations.1 hd with hd | ⟨i, hi, rfl⟩ | ⟨x, hx, rfl⟩
    · rcases Binary.Layout.mem_memory hd with ⟨i, hi, rfl⟩ | hd
      · exact himports i hi
      · exact hmemories d hd
    · exact himports i (List.mem_of_mem_eraseIdx hi)
    · exact hmemories _ (Binary.Layout.mem_spareMemories hx)
  · cases h

end FlowHost
