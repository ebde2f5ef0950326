import FlowHost.Proofs.Crash
import FlowHost.Proofs.Stages

/-!
# The stages before anything runs

The memory of the host's, the imports, the limits and the segments, as checks of a module and as what they are for.
What the limits allow is told in pages and in elements, and what fits in octets and in places.

* `Attempt.links_iff`, `allowed_iff`, `tables_iff`, `elements_iff`, `holds_iff`: what the checks are for.
* `Attempt.prepare_yields`: **a guest is prepared exactly if its first four stages are passed**.
* `Attempt.sharing_iff`: whether the host knows the memory of a prepared guest.
-/

namespace FlowHost

namespace Module

variable {M : Module} {pages : Nat}

/-- What the limits let start, if it is within reach of words. -/
theorem allows_iff {type : MemoryType} {form : MemoryForm} (hreach : pages ≤ maxPages) :
    allows (Limits.ofPages pages) type form = true ↔ form.isShared = false ∧ type.Below pages := by
  have hpos : 0 < pageSize := by decide
  obtain ⟨minimum, maximum⟩ := type
  unfold allows Limits.allowsMemory MemoryType.Below
  rw [Bool.and_eq_true, Bool.not_eq_true', Bool.and_eq_true, decide_eq_true_eq, decide_eq_true_eq]
  refine and_congr_right fun _ => ?_
  have hbytes : (Limits.ofPages pages).memoryBytes = pages * pageSize := rfl
  have hlimit : minimum * pageSize ≤ (Limits.ofPages pages).memoryBytes ↔ minimum ≤ pages := by
    rw [hbytes, Nat.mul_le_mul_right_iff hpos]
  have hown : ∀ most, minimum * pageSize ≤ most * pageSize ↔ minimum ≤ most :=
    fun _ => Nat.mul_le_mul_right_iff hpos
  rw [hlimit]
  cases maximum with
  | none =>
    refine ⟨fun h => ⟨h.2, fun _ hmost => absurd hmost (Option.not_mem_none _)⟩, fun h => ⟨?_, h.1⟩⟩
    -- words reach all pages that are allowed, and long words reach more
    cases hlong : form.isLong with
    | true =>
      have hmost : form.most? none = none := by rw [MemoryForm.most?, hlong]; rfl
      rw [hmost, Option.map_none, Option.getD_none, hlimit]
      exact h.1
    | false =>
      have hmost : form.most? none = some maxPages := by rw [MemoryForm.most?, hlong]; rfl
      rw [hmost, Option.map_some, Option.getD_some, hown]
      exact Nat.le_trans h.1 hreach
  | some most =>
    have hmost : form.most? (some most) = some most := MemoryForm.most?_of_mem rfl
    rw [hmost, Option.map_some, Option.getD_some, hown]
    constructor
    · rintro ⟨h, hle⟩
      refine ⟨hle, ?_⟩
      rintro _ ⟨⟩
      exact h
    · rintro ⟨hle, h⟩
      exact ⟨h most rfl, hle⟩

theorem allowsTable_iff {type : MemoryType} :
    allowsTable (Limits.ofPages pages) type = true ↔ type.Below Limits.standard.tableElements := by
  obtain ⟨minimum, maximum⟩ := type
  unfold allowsTable Limits.allowsTable MemoryType.Below
  rw [Bool.and_eq_true, decide_eq_true_eq, decide_eq_true_eq]
  cases maximum with
  | none => exact ⟨fun h => ⟨h.2, fun _ hmost => absurd hmost (Option.not_mem_none _)⟩, fun h => ⟨h.1, h.1⟩⟩
  | some most =>
    constructor
    · rintro ⟨h, hle⟩
      refine ⟨hle, ?_⟩
      rintro _ ⟨⟩
      exact h
    · rintro ⟨hle, h⟩
      exact ⟨h most rfl, hle⟩

theorem fitsTable_iff {segment : TableSegment} : M.fitsTable segment = true ↔
    ∃ type, M.tables[segment.table]? = some type ∧ segment.start + segment.count ≤ type.minimum := by
  unfold fitsTable
  cases M.tables[segment.table]? with
  | none => simp
  | some type => simp

/-- Segments are put into a memory exactly if all of them fit. -/
theorem initialise_isSome {data : List (Nat × Bytes)} {memory : Memory} :
    (initialise memory data).isSome = true ↔ ∀ segment ∈ data, segment.1 + segment.2.length ≤ memory.size := by
  induction data generalizing memory with
  | nil => simp [initialise]
  | cons segment rest ih =>
    obtain ⟨start, content⟩ := segment
    rw [List.forall_mem_cons, initialise]
    by_cases h : start + content.length ≤ memory.size
    · rw [if_pos (by simpa [Memory.contains] using h), ih]
      exact ⟨fun hrest => ⟨h, hrest⟩, fun hall => hall.2⟩
    · rw [if_neg (by simpa [Memory.contains] using h)]
      simp [h]

theorem firstMemory_isSome {type : MemoryType} {data : List (Nat × Bytes)} :
    (firstMemory type data).isSome = true ↔ type.Holds data := initialise_isSome

theorem firstSpares_isSome : M.firstSpares.isSome = true ↔ ∀ x ∈ M.spares, x.type.Holds x.data := by
  unfold firstSpares
  induction M.spares with
  | nil => simp
  | cons x rest ih =>
    rw [List.mapM_cons, List.forall_mem_cons, ← ih, ← firstMemory_isSome]
    cases firstMemory x.type x.data with
    | none => simp
    | some memory =>
      cases List.mapM (fun x : SpareSource => (firstMemory x.type x.data).map fun memory =>
          (⟨memory, x.form.most? x.type.maximum⟩ : SpareMemory)) rest <;> simp

/-- A check of all memories looks at the one that the host may know, and at the others. -/
theorem all_memoryTypes {provided : Option MemoryType} {check : MemoryType × MemoryForm → Bool} :
    (M.memoryTypes provided).all check = true ↔
      (∀ x ∈ M.memoryType? provided, check x = true) ∧ ∀ x ∈ M.spares, check (x.type, x.form) = true := by
  simp [memoryTypes, List.all_append, List.all_eq_true]

end Module

namespace Attempt

variable {a : Attempt}

/-- An import of a function is provided with its signature. -/
theorem provides_iff (a : Attempt) (i : FunctionImport) : Module.provides a.launcher.natives i = true ↔
    i.space = hostSpace ∧ a.provided? i.name = some i.signature := by
  unfold Module.provides provided?
  rw [Bool.and_eq_true, decide_eq_true_eq]
  refine and_congr_right fun _ => ?_
  cases CoreCall.signature? i.name with
  | some signature => simp
  | none => cases a.launcher.natives.find? i.name <;> simp

/-- An import of a plain memory is provided with enough pages, and with no greater maximum. -/
theorem providesMemory_iff (provided : Option MemoryType) (declared : MemoryType) (form : MemoryForm) :
    Module.providesMemory provided declared form = true ↔ form = .plain ∧
      ∃ type ∈ provided, declared.minimum ≤ type.minimum ∧
        ∀ most ∈ declared.maximum, ∃ own ∈ type.maximum, own ≤ most := by
  unfold Module.providesMemory
  cases provided with
  | none => simp
  | some type => simp [Module.satisfies_eq_true]

/-- A module that imports a memory under another name is provided with none. -/
theorem hostMemory?_eq_some {type : MemoryType} (h : a.hostMemory? = some type) :
    ∃ declared form, a.source.memory = .importedAs hostSpace memoryName declared form ∧
      type = Module.hostMemoryType a.launcher.config declared := by
  unfold hostMemory? at h
  split at h
  · rename_i space name declared form hM
    split at h
    · rename_i hnames
      obtain ⟨rfl, rfl⟩ := hnames
      cases h
      exact ⟨declared, form, hM, rfl⟩
    · cases h
  · cases h

theorem hostMemory?_of_shared {declared : MemoryType} {form : MemoryForm}
    (h : a.source.memory = .importedAs hostSpace memoryName declared form) :
    a.hostMemory? = some (Module.hostMemoryType a.launcher.config declared) := by
  unfold hostMemory?
  rw [h]
  exact if_pos ⟨rfl, rfl⟩

/-- **The links of functions and memories are looked at together.** -/
theorem links_iff (a : Attempt) : a.source.links a.launcher.natives a.hostMemory? = true ↔
    (∀ i ∈ a.source.imports, i.space = hostSpace ∧ a.provided? i.name = some i.signature) ∧
      ∀ i ∈ a.source.memoryImports, (i.space = hostSpace ∧ i.name = memoryName) ∧ i.form = .plain ∧
        ∃ provided ∈ a.hostMemory?, i.type.minimum ≤ provided.minimum ∧
          ∀ most ∈ i.type.maximum, ∃ own ∈ provided.maximum, own ≤ most := by
  unfold Module.links Module.memoryImports
  simp only [Bool.and_eq_true, List.all_eq_true, decide_eq_true_eq, a.provides_iff, providesMemory_iff,
    List.forall_mem_append, and_assoc]
  refine and_congr_right fun _ => and_congr_left fun _ => ?_
  cases hM : a.source.memory with
  | absent => simp
  | ownAs type exported form => simp
  | importedAs space name declared form =>
    simp only [List.forall_mem_singleton, providesMemory_iff]
    constructor
    · rintro ⟨hform, type, htype, h⟩
      -- the host provides a memory under the shared names only
      obtain ⟨_, _, hshared, -⟩ := hostMemory?_eq_some htype
      rw [hM] at hshared
      cases hshared
      exact ⟨rfl, rfl, hform, type, htype, h⟩
    · rintro ⟨-, -, h⟩
      exact h

/-- What is said of a failing stage before a guest is prepared. -/
def Aborts (a : Attempt) (abort : Abort) (st : Stage) : Prop := ∃ e, abort = .failed e ∧ a.Report e st

/-- An attempt that does not stop the host, with a cap within reach of words. -/
structure Spared (a : Attempt) : Prop where
  most : a.launcher.config.maxMemoryPages.toNat ≤ maxPages
  memory : ∀ declared form, a.source.memory = .importedAs hostSpace memoryName declared form →
    ¬ declared.Overreaches a.launcher.config

/-- **The host provides its memory.** -/
theorem hostMemory_yields (ha : a.Spared) :
    a.Yields a.Aborts [.memory] (a.source.hostMemory a.launcher.config a.launcher.limits)
      fun provided => provided = a.hostMemory? ∧ a.Passes .memory := by
  have hspec := Module.hostMemory_spec a.launcher.config a.launcher.limits a.source
  generalize a.source.hostMemory a.launcher.config a.launcher.limits = outcome at hspec ⊢
  -- what the host provides has its stage passed exactly if the limits let it start
  have hpasses : ∀ {declared form}, a.source.memory = .importedAs hostSpace memoryName declared form →
      (a.Passes .memory ↔
        Module.allows a.launcher.limits (Module.hostMemoryType a.launcher.config declared) .plain = true) := by
    intro declared form hM
    refine Iff.trans ?_ (Module.allows_iff ha.most).symm
    unfold Passes
    rw [hostMemory?_of_shared hM]
    constructor
    · intro hpass
      exact ⟨rfl, hpass _ rfl, Module.hostMemoryType_sound⟩
    · rintro ⟨-, hle, -⟩ _ ⟨⟩
      exact hle
  cases hspec with
  | unwanted hM =>
    have hnone : a.hostMemory? = none := by
      cases hsome : a.hostMemory? with
      | none => rfl
      | some type =>
        obtain ⟨declared, form, hshared, -⟩ := hostMemory?_eq_some hsome
        exact absurd hshared (hM declared form)
    have hpass : a.Passes .memory := by
      intro provided hprovided
      rw [hnone] at hprovided
      cases hprovided
    exact .pass hpass (.done ⟨hnone.symm, hpass⟩)
  | unreachable hM hmost => exact absurd (Module.hostMemoryType_unreachable.1 hmost) (ha.memory _ _ hM)
  | denied hM _ hdenied detail =>
    refine .fail (fun hpass => ?_) ⟨_, rfl, _, rfl⟩
    rw [(hpasses hM).1 hpass] at hdenied
    cases hdenied
  | provided hM _ hallowed =>
    have hpass := (hpasses hM).2 hallowed
    exact .pass hpass (.done ⟨(hostMemory?_of_shared hM).symm, hpass⟩)

/-- A module that does not import its memory is provided with none. -/
theorem hostMemory?_eq_none (h : ∀ space name declared form, a.source.memory ≠ .importedAs space name declared form) :
    a.hostMemory? = none := by
  cases hsome : a.hostMemory? with
  | none => rfl
  | some type =>
    obtain ⟨declared, form, hshared, -⟩ := hostMemory?_eq_some hsome
    exact absurd hshared (h _ _ _ _)

/-- The limits let all memories start exactly if they let the module's own, once the host's is there. -/
theorem allowed_iff (hmost : a.launcher.config.maxMemoryPages.toNat ≤ maxPages) (hmemory : a.Passes .memory) :
    ((a.source.memoryTypes a.hostMemory?).all fun x => Module.allows a.launcher.limits x.1 x.2) = true ↔
      ∀ x ∈ a.source.ownMemories, x.form.isShared = false ∧
        x.type.Below a.launcher.config.maxMemoryPages.toNat := by
  have hallows : ∀ type form, Module.allows a.launcher.limits type form = true ↔
      form.isShared = false ∧ type.Below a.launcher.config.maxMemoryPages.toNat := fun _ _ => Module.allows_iff hmost
  rw [Module.all_memoryTypes]
  unfold Module.memoryType? Module.ownMemories
  simp only [List.forall_mem_append, hallows]
  refine and_congr_left fun _ => ?_
  cases hM : a.source.memory with
  | absent => simp [a.hostMemory?_eq_none (by rw [hM]; exact fun _ _ _ _ => MemorySource.noConfusion)]
  | ownAs type exported form => simp
  | importedAs space name declared form =>
    refine iff_of_true ?_ (by simp)
    intro x hx
    obtain ⟨type, htype, rfl⟩ := Option.map_eq_some_iff.1 hx
    obtain ⟨_, _, -, rfl⟩ := hostMemory?_eq_some htype
    exact ⟨rfl, hmemory _ htype, Module.hostMemoryType_sound⟩

/-- The limits let all tables start. -/
theorem tables_iff (a : Attempt) : a.source.tables.all (Module.allowsTable a.launcher.limits) = true ↔
    ∀ type ∈ a.source.tables, type.Below Limits.standard.tableElements := by
  rw [List.all_eq_true]
  exact forall₂_congr fun _ _ => Module.allowsTable_iff

/-- All references fit into their tables. -/
theorem elements_iff (a : Attempt) : a.source.elements.all a.source.fitsTable = true ↔
    ∀ segment ∈ a.source.elements, ∃ type, a.source.tables[segment.table]? = some type ∧
      segment.start + segment.count ≤ type.minimum := by
  rw [List.all_eq_true]
  exact forall₂_congr fun _ _ => Module.fitsTable_iff

/-- **All data fit**, whatever memory they are put into. -/
theorem holds_iff (a : Attempt) :
    ((∀ x ∈ a.source.memoryType? a.hostMemory?, x.1.Holds a.source.data) ∧
        ∀ x ∈ a.source.spares, x.type.Holds x.data) ↔
      (∀ provided ∈ a.hostMemory?, provided.Holds a.source.data) ∧
        ∀ x ∈ a.source.ownMemories, x.type.Holds x.data := by
  unfold Module.memoryType? Module.ownMemories
  rw [List.forall_mem_append, ← and_assoc]
  refine and_congr_left fun _ => ?_
  cases hM : a.source.memory with
  | absent => simp
  | ownAs type exported form =>
    simp [a.hostMemory?_eq_none (by rw [hM]; exact fun _ _ _ _ => MemorySource.noConfusion)]
  | importedAs space name declared form => simp

/-- **A guest is prepared** exactly if its first four stages are passed. -/
theorem prepare_yields (ha : a.Spared) :
    a.Yields a.Aborts [.memory, .imports, .limits, .segments]
      (a.source.prepare a.launcher.config a.launcher.natives a.launcher.limits) fun _ => True := by
  have hlinks := a.links_iff
  have hdata := a.holds_iff
  unfold Module.prepare
  refine (hostMemory_yields ha).bind ?_
  rintro _ ⟨rfl, hmemory⟩
  have hallowed := allowed_iff ha.most hmemory
  -- each stage is checked in one or more steps, and passed after the last of them
  refine .require ⟨_, rfl, _, rfl⟩ (fun hno hpass => ?_) fun hlinked => ?_
  · rw [hlinks.2 ⟨hpass.functions, hpass.memories⟩] at hno
    cases hno
  refine .require ⟨_, rfl, _, rfl⟩ (fun hno hpass => ?_) fun hothers => ?_
  · rw [hpass.others] at hno
    cases hno
  refine .pass ⟨(hlinks.1 hlinked).1, (hlinks.1 hlinked).2, List.isEmpty_iff.1 hothers⟩ ?_
  refine .require ⟨_, rfl, _, rfl⟩ (fun hno hpass => ?_) fun hmemories => ?_
  · rw [hallowed.2 hpass.memories] at hno
    cases hno
  refine .require ⟨_, rfl, _, rfl⟩ (fun hno hpass => ?_) fun htables => ?_
  · rw [a.tables_iff.2 hpass.tables] at hno
    cases hno
  refine .pass ⟨hallowed.1 hmemories, a.tables_iff.1 htables⟩ ?_
  refine .require ⟨_, rfl, _, rfl⟩ (fun hno hpass => ?_) fun helements => ?_
  · rw [a.elements_iff.2 hpass.tables] at hno
    cases hno
  cases hspares : a.source.firstSpares with
  | none =>
    refine .fail (fun hpass => ?_) ⟨_, rfl, _, rfl⟩
    have hsome := Module.firstSpares_isSome.2 (hdata.2 ⟨hpass.shared, hpass.own⟩).2
    rw [hspares] at hsome
    cases hsome
  | some spares =>
    have hspare := Module.firstSpares_isSome.1 (by rw [hspares]; rfl)
    have hfills : (∀ x ∈ a.source.memoryType? a.hostMemory?, x.1.Holds a.source.data) → a.Fills := by
      intro hmain
      obtain ⟨hshared, hown⟩ := hdata.1 ⟨hmain, hspare⟩
      exact ⟨hshared, hown, a.elements_iff.1 helements⟩
    simp only
    cases htype : a.source.memoryType? a.hostMemory? with
    | none =>
      refine .pass (hfills ?_) (.done trivial)
      rw [htype]
      exact fun _ hmem => absurd hmem (Option.not_mem_none _)
    | some x =>
      obtain ⟨type, form⟩ := x
      simp only
      cases hfirst : Module.firstMemory type a.source.data with
      | none =>
        refine .fail (fun hpass => ?_) ⟨_, rfl, _, rfl⟩
        have hholds := (hdata.2 ⟨hpass.shared, hpass.own⟩).1 _ htype
        have hsome := Module.firstMemory_isSome.2 hholds
        rw [hfirst] at hsome
        cases hsome
      | some memory =>
        refine .pass (hfills ?_) (.done trivial)
        rw [htype]
        rintro _ ⟨⟩
        exact Module.firstMemory_isSome.1 (by rw [hfirst]; rfl)

/-- **Whether the host knows the memory of a prepared guest.** -/
theorem sharing_iff {guest : GuestState}
    (h : a.source.prepare a.launcher.config a.launcher.natives a.launcher.limits = .ok guest) :
    guest.memory.isSome = true ∧ guest.isKnown = true ↔ a.Passes .sharing := by
  obtain ⟨provided, spares, hhost, hlinks, -, -, hguest⟩ := Module.prepare_inv h
  have hspec := Module.hostMemory_spec a.launcher.config a.launcher.limits a.source
  rw [hhost] at hspec
  have hknown : guest.memory.isSome = true ∧ guest.isKnown = true ↔
      (a.source.memoryType? provided).isSome = true ∧ a.source.isKnown = true := by
    rcases hguest with ⟨htype, rfl⟩ | ⟨type, form, memory, htype, -, rfl⟩
    · simp [htype]
    · simp [htype]
  rw [hknown, Module.memoryType?, Module.isKnown]
  unfold Passes
  cases hM : a.source.memory with
  | absent =>
    cases hspec with
    | unwanted => simp
    | provided hshared =>
      rw [hM] at hshared
      cases hshared
  | ownAs type exported form => cases exported <;> simp
  | importedAs space name declared form =>
    -- a memory that is imported is the host's, or the module does not link
    have hprovided : ∃ type, provided = some type := by
      unfold Module.links at hlinks
      rw [hM] at hlinks
      simp only [Bool.and_eq_true] at hlinks
      obtain ⟨-, type, htype, -⟩ := (providesMemory_iff provided declared form).1 hlinks.1.2
      exact ⟨type, htype⟩
    obtain ⟨type, rfl⟩ := hprovided
    cases hspec with
    | provided hshared =>
      rw [hM] at hshared
      cases hshared
      simp

end Attempt

end FlowHost
