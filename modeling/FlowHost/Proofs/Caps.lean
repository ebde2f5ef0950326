import FlowHost.Proofs.Crash
import FlowHost.Proofs.Oversight
import FlowHost.Proofs.Room

/-!
# Memories stay within their caps

Every memory of an instance starts within the configured pages and within what its module declares, and no
request for more pages leads beyond either. The rest of what guests and hosts do keeps the sizes as they are.

* `Machine.caps_stable`: **whatever guest code does, memories stay within their caps.**
* `Module.prepare_caps`: they are within them before anything runs.
* `Launcher.launch_excessive`: what asks for more than is configured is rejected, unless it stops the host.
-/

namespace FlowHost

namespace GuestState

/-- **All memories of a guest**, each with its own maximum. -/
def memories (g : GuestState) : List SpareMemory :=
  (g.memory.map fun m => ⟨m, g.maximum⟩).toList ++ g.spares

/-- A guest whose memories have the sizes of another's. -/
structure SameSizes (g g' : GuestState) : Prop where
  memory : g'.memory.map (·.size) = g.memory.map (·.size)
  maximum : g'.maximum = g.maximum
  spares : g'.spares = g.spares

theorem SameSizes.refl (g : GuestState) : SameSizes g g := ⟨rfl, rfl, rfl⟩

/-- Another memory of the same size takes the place of a guest's. -/
theorem SameSizes.of_memory {g g' : GuestState} {m m' : Memory} (hm : g.memory = some m)
    (hm' : g'.memory = some m') (hsize : m'.size = m.size) (hmax : g'.maximum = g.maximum)
    (hspares : g'.spares = g.spares) : SameSizes g g' :=
  ⟨by rw [hm, hm', Option.map_some, Option.map_some, hsize], hmax, hspares⟩

end GuestState

namespace Module

variable {limits : Limits} {M : Module} {g g' : GuestState}

/-- What a module declares of the memory that it shares with the host, or has in its place. -/
def shared (M : Module) : List (MemoryType × MemoryForm) :=
  M.memory.declaration?.toList ++ M.further.map fun i => (i.type, i.form)

/-- **A module's guest whose memories are within their caps.** -/
structure Caps (limits : Limits) (M : Module) (g : GuestState) : Prop where
  memories : ∀ x ∈ g.memories, x.memory.Capped limits x.maximum
  /-- The maximum of the shared memory is none that the module would not have. -/
  shared : ∀ d ∈ M.shared, ∀ most ∈ d.1.maximum, ∃ own ∈ g.maximum, own ≤ most
  spares : g.spares.map (·.maximum) = M.spares.map fun x => x.form.most? x.type.maximum

/-- Caps are a matter of sizes. -/
theorem Caps.sameSizes (h : Caps limits M g) (hs : g.SameSizes g') : Caps limits M g' := by
  refine ⟨?_, hs.maximum ▸ h.shared, hs.spares ▸ h.spares⟩
  intro x hx
  unfold GuestState.memories at hx
  rcases List.mem_append.1 hx with hx | hx
  · obtain ⟨m', hm', rfl⟩ := Option.map_eq_some_iff.1 (Option.mem_toList.1 hx)
    have hsize := hs.memory
    rw [hm', Option.map_some] at hsize
    obtain ⟨m, hm, hsize⟩ := Option.map_eq_some_iff.1 hsize.symm
    have hcapped := h.memories ⟨m, g.maximum⟩ (by simp [GuestState.memories, hm])
    rw [hs.maximum]
    exact hcapped.of_size hsize.symm
  · rw [hs.spares] at hx
    exact h.memories x (List.mem_append_right _ hx)

end Module

namespace Machine

variable {σ : Surroundings} {limits : Limits} {M : Module} {m m' : Machine}

/-- **A call of an import changes no size.** -/
theorem call_sameSizes (hσ : σ.natives.KeepsSize) {function : String} {arguments : List Value}
    {r : Option (List Value)} (hc : m.call σ function arguments = (r, m')) :
    m.guest.SameSizes m'.guest := by
  cases call_called hc with
  | idle => exact .refl _
  | core c hm hst => exact .of_memory hm rfl (hst ▸ c.attempt_size) rfl rfl
  | @native memory f st arguments hm hf hst =>
    refine .of_memory hm rfl ?_ rfl rfl
    rw [← hst]
    exact f.invoke_sized (hσ f hf) σ.deviceId arguments ⟨memory, m.host.output⟩

/-- **A request for more pages** leads to no memory beyond its caps. -/
theorem grow_caps (delta : Nat) (h : M.Caps limits m.guest) :
    M.Caps limits (m.grow limits delta).2.guest := by
  cases hm : m.guest.memory with
  | none =>
    rw [grow_of_none hm]
    exact h
  | some memory =>
    rw [grow_of_some hm]
    refine ⟨fun x hx => ?_, h.shared, h.spares⟩
    rcases List.mem_append.1 hx with hx | hx
    · obtain rfl := List.mem_singleton.1 hx
      have hcapped := h.memories ⟨memory, m.guest.maximum⟩ (by simp [GuestState.memories, hm])
      exact hcapped.grow delta
    · exact h.memories x (List.mem_append_right _ hx)

end Machine

/-- **A request to another memory** does not lead beyond its caps either. -/
theorem SpareMemory.access_capped {limits : Limits} {x x' : SpareMemory} {a : Access} {answer : Bytes}
    (ha : x.access limits a = some (answer, x')) (h : x.memory.Capped limits x.maximum) :
    x'.maximum = x.maximum ∧ x'.memory.Capped limits x'.maximum := by
  cases a with
  | pages =>
    cases ha
    exact ⟨rfl, h⟩
  | grow delta =>
    cases ha
    exact ⟨rfl, h.grow delta⟩
  | load start width =>
    simp only [access] at ha
    split at ha
    · cases ha
      exact ⟨rfl, h⟩
    · cases ha
  | store start content =>
    simp only [access] at ha
    split at ha
    · cases ha
      exact ⟨rfl, h.of_size rfl⟩
    · cases ha

namespace Machine

variable {σ : Surroundings} {limits : Limits} {M : Module} {m m' : Machine}

theorem access_caps {index : Nat} {a : Access} {answer : Bytes}
    (ha : m.access limits index a = some (answer, m')) (h : M.Caps limits m.guest) :
    M.Caps limits m'.guest := by
  obtain ⟨x, x', hx, hx', rfl⟩ := access_eq_some ha
  have hmem : x ∈ m.guest.spares := List.mem_of_getElem? hx
  obtain ⟨hmax, hcapped⟩ := SpareMemory.access_capped hx' (h.memories x (List.mem_append_right _ hmem))
  refine ⟨fun y hy => ?_, h.shared, ?_⟩
  · rcases List.mem_append.1 hy with hy | hy
    · exact h.memories y (List.mem_append_left _ hy)
    · rcases List.mem_or_eq_of_mem_set hy with hy | rfl
      · exact h.memories y (List.mem_append_right _ hy)
      · exact hcapped
  · -- the maximum that is put there is the one that is there
    have hat : (m.guest.spares.map (·.maximum))[index]? = some x.maximum := by
      rw [List.getElem?_map, hx, Option.map_some]
    obtain ⟨hlt, hval⟩ := List.getElem?_eq_some_iff.1 hat
    rw [← h.spares, List.map_set, hmax, ← hval]
    exact List.set_getElem_self hlt

/-- **Whatever guest code does, memories stay within their caps.** -/
theorem caps_stable (hσ : σ.natives.KeepsSize) (M : Module) : GuestState.Stable σ (M.Caps σ.limits) := by
  intro x y hmove h
  cases hmove with
  | pages => exact h
  | grow => exact grow_caps _ h
  | load => exact h
  | store hm => exact h.sameSizes (.of_memory hm rfl rfl rfl rfl)
  | spare ha => exact access_caps ha h
  | getGlobal => exact h
  | setGlobal => exact h.sameSizes ⟨rfl, rfl, rfl⟩
  | call hc => exact h.sameSizes (call_sameSizes hσ hc)
  | trapped hc => exact h.sameSizes (call_sameSizes hσ hc)

end Machine

/-! ### Before anything runs -/

namespace Module

variable {config : InstanceConfig} {natives : NativeTable} {limits : Limits} {M : Module}
  {provided : Option MemoryType} {guest : GuestState}

/-- A memory that can start is allowed by the limits. -/
theorem allowsMemory_of_allows {type : MemoryType} {form : MemoryForm} (h : allows limits type form = true) :
    limits.allowsMemory (type.minimum * pageSize) ((form.most? type.maximum).map (· * pageSize)) = true := by
  unfold allows at h
  rw [Bool.and_eq_true] at h
  exact h.2

/-- What the limits let start is within its caps. -/
theorem capped_of_allows {type : MemoryType} {form : MemoryForm} {m : Memory}
    (h : allows limits type form = true) (hsize : m.size = type.minimum * pageSize) :
    m.Capped limits (form.most? type.maximum) := by
  obtain ⟨hlimit, hmost⟩ := Limits.le_of_allowsMemory (allowsMemory_of_allows h)
  refine ⟨hsize ▸ hlimit, fun most hm => ?_, type.minimum, hsize⟩
  rw [hsize]
  exact hmost _ (by rw [Option.mem_def.1 hm]; rfl)

/-- **A module that links** imports no memory but the one that the host provides, and that one satisfies
every declaration. -/
theorem links_memories (h : M.links natives provided = true) :
    (∀ space name declared form, M.memory = .importedAs space name declared form →
        ∃ type ∈ provided, satisfies type declared = true) ∧
      ∀ i ∈ M.further, ∃ type ∈ provided, satisfies type i.type = true := by
  have hprovides : ∀ declared form, providesMemory provided declared form = true →
      ∃ type ∈ provided, satisfies type declared = true := by
    intro declared form hp
    unfold providesMemory at hp
    split at hp
    · rename_i type
      rw [Bool.and_eq_true] at hp
      exact ⟨type, rfl, hp.2⟩
    · cases hp
  unfold links at h
  simp only [Bool.and_eq_true, List.all_eq_true] at h
  obtain ⟨⟨-, hmemory⟩, hfurther⟩ := h
  refine ⟨fun space name declared form hM => ?_, fun i hi => hprovides _ _ (hfurther i hi).2⟩
  rw [hM] at hmemory
  exact hprovides declared form hmemory

/-- **The host provides a memory** only for a module that has none of its own. -/
theorem hostMemory_own {type : MemoryType} {exported : Option String} {form : MemoryForm}
    (h : M.hostMemory config limits = .ok provided) (hM : M.memory = .ownAs type exported form) : provided = none := by
  unfold hostMemory at h
  rw [hM] at h
  exact (Except.ok.inj h).symm

/-- **The memory of a module that links** satisfies all that the module declares of it. -/
theorem Prepared.satisfied (h : Prepared config natives limits M provided guest) :
    ∀ d ∈ M.shared, ∃ x, M.memoryType? provided = some x ∧
      d.1.minimum ≤ x.1.minimum ∧ ∀ most ∈ d.1.maximum, ∃ own ∈ x.1.maximum, own ≤ most := by
  obtain ⟨himported, hfurther⟩ := links_memories h.links
  -- a memory that the host provides is the guest's, which has none of its own then
  have hprovided : ∀ declared, (∃ type ∈ provided, satisfies type declared = true) →
      ∃ x, M.memoryType? provided = some x ∧ declared.minimum ≤ x.1.minimum ∧
        ∀ most ∈ declared.maximum, ∃ own ∈ x.1.maximum, own ≤ most := by
    rintro declared ⟨type, htype, hsat⟩
    refine ⟨(type, .plain), ?_, satisfies_eq_true.1 hsat⟩
    unfold memoryType?
    split
    · rename_i found exported form hM
      rw [hostMemory_own h.host hM] at htype
      cases htype
    · rw [Option.mem_def.1 htype]
      rfl
  intro d hd
  rcases List.mem_append.1 hd with hd | hd
  · rw [Option.mem_toList] at hd
    cases hM : M.memory with
    | absent =>
      rw [hM] at hd
      cases hd
    | ownAs type exported form =>
      rw [hM] at hd
      obtain rfl := Option.some.inj hd
      exact ⟨(type, form), by rw [memoryType?, hM], Nat.le_refl _, fun most hm => ⟨most, hm, Nat.le_refl _⟩⟩
    | importedAs space name type form =>
      rw [hM] at hd
      obtain rfl := Option.some.inj hd
      exact hprovided _ (himported space name _ _ hM)
  · obtain ⟨i, hi, rfl⟩ := List.mem_map.1 hd
    exact hprovided _ (hfurther i hi)

/-- The maximum of a prepared guest's memory is none that its module would not have. -/
theorem Prepared.shared (h : Prepared config natives limits M provided guest) :
    ∀ d ∈ M.shared, ∀ most ∈ d.1.maximum, ∃ own ∈ guest.maximum, own ≤ most := by
  intro d hd most hmost
  obtain ⟨x, hx, -, hmaximum⟩ := h.satisfied d hd
  rcases h.memory with ⟨hnone, -⟩ | ⟨type, form, _, hsome, -, -, hmax⟩
  · rw [hx] at hnone
    cases hnone
  · obtain rfl := Option.some.inj (hx.symm.trans hsome)
    obtain ⟨own, hown, hle⟩ := hmaximum most hmost
    exact ⟨own, by rw [hmax]; exact MemoryForm.most?_of_mem hown, hle⟩

/-- **A module that is prepared asks for no more than the limits allow.** -/
theorem Prepared.minimum_le (h : Prepared config natives limits M provided guest) :
    ∀ d ∈ M.declarations, d.1.minimum * pageSize ≤ limits.memoryBytes := by
  have hallowed : ∀ x ∈ M.memoryTypes provided, x.1.minimum * pageSize ≤ limits.memoryBytes :=
    fun x hx => (Limits.le_of_allowsMemory (allowsMemory_of_allows (h.allowed x hx))).1
  intro d hd
  rcases List.mem_append.1 hd with hd | hd
  · obtain ⟨x, hx, hmin, -⟩ := h.satisfied d hd
    have hle := hallowed x (List.mem_append_left _ (Option.mem_toList.2 hx))
    exact Nat.le_trans (Nat.mul_le_mul_right _ hmin) hle
  · exact hallowed d (List.mem_append_right _ hd)

/-- The other memories start as they are declared. -/
theorem firstSpares_eq_some {spares : List SpareMemory} (h : M.firstSpares = some spares) :
    spares.map (·.maximum) = M.spares.map (fun x => x.form.most? x.type.maximum) ∧
      ∀ x ∈ spares, ∃ source ∈ M.spares, x.maximum = source.form.most? source.type.maximum ∧
        x.memory.size = source.type.minimum * pageSize := by
  unfold firstSpares at h
  generalize M.spares = sources at h ⊢
  induction sources generalizing spares with
  | nil =>
    cases h
    exact ⟨rfl, fun _ hx => nomatch hx⟩
  | cons source rest ih =>
    simp only [List.mapM_cons, Option.bind_eq_bind, Option.bind_eq_some_iff, Option.map_eq_some_iff] at h
    obtain ⟨_, ⟨memory, hmemory, rfl⟩, others, hothers, h⟩ := h
    obtain rfl := Option.some.inj h
    obtain ⟨hmaxima, hsizes⟩ := ih hothers
    refine ⟨by rw [List.map_cons, List.map_cons, hmaxima], fun x hx => ?_⟩
    rcases List.mem_cons.1 hx with rfl | hx
    · exact ⟨source, List.mem_cons_self, rfl, firstMemory_size hmemory⟩
    · obtain ⟨found, hfound, hx⟩ := hsizes x hx
      exact ⟨found, List.mem_cons_of_mem _ hfound, hx⟩

/-- **The memories of a prepared guest are within their caps.** -/
theorem prepare_caps (h : M.prepare config natives limits = .ok guest) : M.Caps limits guest := by
  obtain ⟨provided, hp⟩ := prepare_ok h
  obtain ⟨hmaxima, hsizes⟩ := firstSpares_eq_some hp.spares
  refine ⟨fun x hx => ?_, hp.shared, hmaxima⟩
  rcases List.mem_append.1 hx with hx | hx
  · obtain ⟨memory, hmemory, rfl⟩ := Option.map_eq_some_iff.1 (Option.mem_toList.1 hx)
    rcases hp.memory with ⟨-, hnone⟩ | ⟨type, form, found, htype, hfound, hsome, hmax⟩
    · rw [hnone] at hmemory
      cases hmemory
    · obtain rfl := Option.some.inj (hsome.symm.trans hmemory)
      have hmem : (type, form) ∈ M.memoryTypes provided :=
        List.mem_append_left _ (Option.mem_toList.2 htype)
      simp only [hmax]
      exact capped_of_allows (hp.allowed _ hmem) (firstMemory_size hfound)
  · obtain ⟨source, hsource, hmax, hsize⟩ := hsizes x hx
    have hmem : (source.type, source.form) ∈ M.memoryTypes provided :=
      List.mem_append_right _ (List.mem_map.2 ⟨source, hsource, rfl⟩)
    rw [hmax]
    exact capped_of_allows (hp.allowed _ hmem) hsize

end Module

/-- **A module that asks for more than the configured pages** is rejected and nothing of it runs, unless it stops the
host. -/
theorem Launcher.launch_excessive {l : Launcher} {M : Module} {bundle : Bundle}
    (hc : l.compile bundle.binary = some M) {d : MemoryType × MemoryForm} (hd : d ∈ M.declarations)
    (hexcess : l.config.maxMemoryPages.toNat < d.1.minimum) (n : Nat) (connected : Bool) (host : Host) :
    (l.StoppedBy bundle → l.launch n bundle connected host = (.error .crashed, host)) ∧
      (¬ l.StoppedBy bundle →
        ∃ detail, l.launch n bundle connected host = (.error (.failed (.instantiation detail)), host)) := by
  refine ⟨fun hstops => launch_stopped hstops n connected host, fun hgoes => ?_⟩
  cases hp : M.prepare l.config l.natives l.limits with
  | ok guest =>
    exfalso
    obtain ⟨provided, hprepared⟩ := Module.prepare_ok hp
    have hle : d.1.minimum * pageSize ≤ l.config.maxMemoryPages.toNat * pageSize := hprepared.minimum_le d hd
    exact absurd (Nat.le_of_mul_le_mul_right hle (by decide)) (Nat.not_le.2 hexcess)
  | error abort =>
    rcases Module.prepare_error_cases hp with ⟨rfl, -⟩ | ⟨detail, rfl⟩
    · obtain ⟨declared, form, hM, hmost⟩ := Module.prepare_crashed.1 hp
      exact absurd ⟨M, declared, form, hc, hM, hmost⟩ hgoes
    · exact ⟨detail, launch_of_prepare_error hc hp n connected host⟩

end FlowHost
