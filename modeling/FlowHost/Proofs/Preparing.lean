import FlowHost.Instance.Launch
import Mathlib.Data.List.Basic

/-!
# What it takes to prepare a guest

A guest is prepared in stages: the host's memory, the imports, the limits, the data. `Module.Prepared` says
what all of them establish.

* `Module.hostMemory_spec`: what becomes of the memory that the host provides.
* `Module.prepare_inv`, `prepare_ok`: **a guest is prepared only if every stage went well.**
* `Module.prepare_error`, `prepare_error_cases`: why a guest is not prepared.
* `Module.firstMemory_size`: a memory has the size that its type asks for, whatever is put into it.
-/

namespace FlowHost

namespace Module

variable {config : InstanceConfig} {natives : NativeTable} {limits : Limits} {M : Module}
  {provided : Option MemoryType} {guest : GuestState} {declared : MemoryType} {form : MemoryForm}

/-- What the host does for a module that imports the shared memory. -/
theorem hostMemory_imported (hM : M.memory = .importedAs hostSpace memoryName declared form) :
    M.hostMemory config limits =
      if maxPages < (hostMemoryType config declared).maximum.getD 0 then .error .crashed
      else if allows limits (hostMemoryType config declared) .plain then
        .ok (some (hostMemoryType config declared))
      else .error (.failed (.instantiation "memory allocation failed: denied by the limits")) := by
  unfold hostMemory
  rw [hM]
  exact if_pos ⟨rfl, rfl⟩

/-- **What becomes of the memory that the host provides**, case by case. -/
inductive HostMemory (config : InstanceConfig) (limits : Limits) (M : Module) :
    Except Abort (Option MemoryType) → Prop
  /-- A module that does not import the shared memory is given none. -/
  | unwanted (hM : ∀ declared form, M.memory ≠ .importedAs hostSpace memoryName declared form) :
      HostMemory config limits M (.ok none)
  | unreachable {declared : MemoryType} {form : MemoryForm}
      (hM : M.memory = .importedAs hostSpace memoryName declared form)
      (hmost : maxPages < (hostMemoryType config declared).maximum.getD 0) :
      HostMemory config limits M (.error .crashed)
  | denied {declared : MemoryType} {form : MemoryForm}
      (hM : M.memory = .importedAs hostSpace memoryName declared form)
      (hreach : (hostMemoryType config declared).maximum.getD 0 ≤ maxPages)
      (hdenied : allows limits (hostMemoryType config declared) .plain = false) (detail : String) :
      HostMemory config limits M (.error (.failed (.instantiation detail)))
  | provided {declared : MemoryType} {form : MemoryForm}
      (hM : M.memory = .importedAs hostSpace memoryName declared form)
      (hreach : (hostMemoryType config declared).maximum.getD 0 ≤ maxPages)
      (hallowed : allows limits (hostMemoryType config declared) .plain = true) :
      HostMemory config limits M (.ok (some (hostMemoryType config declared)))

/-- **Every module comes to one of these.** -/
theorem hostMemory_spec (config : InstanceConfig) (limits : Limits) (M : Module) :
    HostMemory config limits M (M.hostMemory config limits) := by
  by_cases hM : ∃ declared form, M.memory = .importedAs hostSpace memoryName declared form
  · obtain ⟨declared, form, hM⟩ := hM
    rw [hostMemory_imported hM]
    split
    · rename_i hmost
      exact .unreachable hM hmost
    · rename_i hreach
      split
      · rename_i hallowed
        exact .provided hM (Nat.not_lt.1 hreach) hallowed
      · rename_i hdenied
        exact .denied hM (Nat.not_lt.1 hreach) (Bool.eq_false_iff.2 hdenied) _
  · have hnone : M.hostMemory config limits = .ok none := by
      unfold hostMemory
      split
      · rename_i space name declared form himported
        refine if_neg ?_
        rintro ⟨rfl, rfl⟩
        exact hM ⟨declared, form, himported⟩
      · rfl
    rw [hnone]
    exact .unwanted fun declared form himported => hM ⟨declared, form, himported⟩

/-- **What is established of a guest before anything of it runs.** -/
structure Prepared (config : InstanceConfig) (natives : NativeTable) (limits : Limits) (M : Module)
    (provided : Option MemoryType) (guest : GuestState) : Prop where
  host : M.hostMemory config limits = .ok provided
  links : M.links natives provided = true
  allowed : ∀ x ∈ M.memoryTypes provided, allows limits x.1 x.2 = true
  memory : M.memoryType? provided = none ∧ guest.memory = none ∨
    ∃ type form memory, M.memoryType? provided = some (type, form) ∧ firstMemory type M.data = some memory ∧
      guest.memory = some memory ∧ guest.maximum = form.most? type.maximum
  spares : M.firstSpares = some guest.spares
  buffers : guest.buffers = .empty

/-- A stage that goes well goes on with what it gives. -/
theorem bind_ok {ε α β : Type} {x : Except ε α} {f : α → Except ε β} {b : β}
    (h : (x >>= f) = .ok b) : ∃ a, x = .ok a ∧ f a = .ok b := by
  cases x with
  | error abort => cases h
  | ok a => exact ⟨a, rfl, h⟩

theorem require_ok {holds : Bool} {detail : String} {u : Unit} (h : require holds detail = .ok u) :
    holds = true := by
  cases holds with
  | false => cases h
  | true => rfl

/-- **A guest is prepared only if every stage went well**, and this is the guest then. -/
theorem prepare_inv (h : M.prepare config natives limits = .ok guest) :
    ∃ provided spares, M.hostMemory config limits = .ok provided ∧ M.links natives provided = true ∧
      ((M.memoryTypes provided).all fun x => allows limits x.1 x.2) = true ∧ M.firstSpares = some spares ∧
      (M.memoryType? provided = none ∧ guest = ⟨none, none, false, .empty, M.globals, spares⟩ ∨
        ∃ type form memory, M.memoryType? provided = some (type, form) ∧
          firstMemory type M.data = some memory ∧
          guest = ⟨some memory, form.most? type.maximum, M.isKnown, .empty, M.globals, spares⟩) := by
  unfold prepare at h
  obtain ⟨provided, hhost, h⟩ := bind_ok h
  obtain ⟨_, hlinks, h⟩ := bind_ok h
  obtain ⟨_, -, h⟩ := bind_ok h
  obtain ⟨_, hallowed, h⟩ := bind_ok h
  obtain ⟨_, -, h⟩ := bind_ok h
  obtain ⟨_, -, h⟩ := bind_ok h
  cases hs : M.firstSpares with
  | none => simp [hs] at h
  | some spares =>
    refine ⟨provided, spares, hhost, require_ok hlinks, require_ok hallowed, rfl, ?_⟩
    simp only [hs] at h
    cases ht : M.memoryType? provided with
    | none =>
      simp only [ht] at h
      cases h
      exact .inl ⟨rfl, rfl⟩
    | some x =>
      obtain ⟨type, form⟩ := x
      simp only [ht] at h
      cases hm : firstMemory type M.data with
      | none => simp [hm] at h
      | some memory =>
        simp only [hm] at h
        cases h
        exact .inr ⟨type, form, memory, rfl, hm, rfl⟩

/-- All that is established by then. -/
theorem prepare_ok (h : M.prepare config natives limits = .ok guest) :
    ∃ provided, Prepared config natives limits M provided guest := by
  obtain ⟨provided, spares, hhost, hlinks, hallowed, hspares, hguest⟩ := prepare_inv h
  have hall := List.all_eq_true.1 hallowed
  rcases hguest with ⟨ht, rfl⟩ | ⟨type, form, memory, ht, hm, rfl⟩
  · exact ⟨provided, hhost, hlinks, hall, .inl ⟨ht, rfl⟩, hspares, rfl⟩
  · exact ⟨provided, hhost, hlinks, hall, .inr ⟨type, form, memory, ht, hm, rfl, rfl⟩, hspares, rfl⟩

/-- A stage that fails, or what comes after it. -/
theorem bind_error {ε α β : Type} {x : Except ε α} {f : α → Except ε β} {e : ε}
    (h : (x >>= f) = .error e) : x = .error e ∨ ∃ a, x = .ok a ∧ f a = .error e := by
  cases x with
  | error found => exact .inl (by cases h; rfl)
  | ok a => exact .inr ⟨a, rfl, h⟩

/-- What is made of results leaves failures as they are. -/
theorem error_of_map {ε α β : Type} {x : Except ε α} {f : α → β} {e : ε} (h : x.map f = .error e) :
    x = .error e := by
  cases x with
  | error found =>
    cases h
    rfl
  | ok a => cases h

theorem require_error {holds : Bool} {detail : String} {abort : Abort}
    (h : require holds detail = .error abort) :
    holds = false ∧ abort = .failed (.instantiation detail) := by
  cases holds with
  | false => exact ⟨rfl, (Except.error.inj h).symm⟩
  | true => cases h

/-- **Why a guest is not prepared**: there is no memory of the host's for it, or some stage after that
fails as an instantiation. What fails if an import is not provided is told apart from all else. -/
theorem prepare_error {abort : Abort} (h : M.prepare config natives limits = .error abort) :
    M.hostMemory config limits = .error abort ∨
      ∃ provided detail, M.hostMemory config limits = .ok provided ∧
        abort = .failed (.instantiation detail) ∧
        (detail = unlinkedImport ↔ M.links natives provided = false) := by
  unfold prepare at h
  obtain h | ⟨provided, hhost, h⟩ := bind_error h
  · exact .inl h
  refine .inr ⟨provided, ?_⟩
  obtain h | ⟨_, hlinks, h⟩ := bind_error h
  · obtain ⟨hlinks, rfl⟩ := require_error h
    exact ⟨_, hhost, rfl, iff_of_true rfl hlinks⟩
  -- no stage after the links says what the links say
  have hlater : ∀ detail, detail ≠ unlinkedImport → abort = .failed (.instantiation detail) →
      ∃ detail, M.hostMemory config limits = .ok provided ∧ abort = .failed (.instantiation detail) ∧
        (detail = unlinkedImport ↔ M.links natives provided = false) := by
    intro detail hne habort
    refine ⟨detail, hhost, habort, iff_of_false hne ?_⟩
    rw [require_ok hlinks]
    exact Bool.true_eq_false.mp
  obtain h | ⟨_, -, h⟩ := bind_error h
  · exact hlater _ (by decide) (require_error h).2
  obtain h | ⟨_, -, h⟩ := bind_error h
  · exact hlater _ (by decide) (require_error h).2
  obtain h | ⟨_, -, h⟩ := bind_error h
  · exact hlater _ (by decide) (require_error h).2
  obtain h | ⟨_, -, h⟩ := bind_error h
  · exact hlater _ (by decide) (require_error h).2
  have houtside : outsideMemory ≠ unlinkedImport := by decide
  cases hs : M.firstSpares with
  | none =>
    rw [hs] at h
    exact hlater _ houtside (Except.error.inj h).symm
  | some spares =>
    simp only [hs] at h
    cases ht : M.memoryType? provided with
    | none => simp [ht, pure, Except.pure] at h
    | some x =>
      obtain ⟨type, form⟩ := x
      simp only [ht] at h
      cases hm : firstMemory type M.data with
      | none =>
        rw [hm] at h
        exact hlater _ houtside (Except.error.inj h).symm
      | some memory => simp [hm, pure, Except.pure] at h

/-- **A guest that is not prepared** stops the host, or it fails as an instantiation. The host stops over its
own memory and nothing else. -/
theorem prepare_error_cases {abort : Abort} (h : M.prepare config natives limits = .error abort) :
    (abort = .crashed ∧ ∃ declared form, M.memory = .importedAs hostSpace memoryName declared form ∧
        maxPages < (hostMemoryType config declared).maximum.getD 0) ∨
      ∃ detail, abort = .failed (.instantiation detail) := by
  obtain hhost | ⟨_, detail, -, habort, -⟩ := prepare_error h
  · have hspec := hostMemory_spec config limits M
    rw [hhost] at hspec
    cases hspec with
    | unreachable hM hmost => exact .inl ⟨rfl, _, _, hM, hmost⟩
    | denied hM _ hdenied detail => exact .inr ⟨detail, rfl⟩
  · exact .inr ⟨detail, habort⟩

theorem initialise_size {data : List (Nat × Bytes)} {memory memory' : Memory}
    (h : initialise memory data = some memory') : memory'.size = memory.size := by
  induction data generalizing memory with
  | nil => cases h; rfl
  | cons segment rest ih =>
    obtain ⟨start, content⟩ := segment
    unfold initialise at h
    split at h
    · have hrest := ih h
      exact hrest
    · cases h

/-- **A memory has the size that its type asks for**, whatever is put into it. -/
theorem firstMemory_size {type : MemoryType} {data : List (Nat × Bytes)} {memory : Memory}
    (h : firstMemory type data = some memory) : memory.size = type.minimum * pageSize :=
  initialise_size h

end Module

end FlowHost
