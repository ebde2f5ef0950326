import FlowHost.Instance.Linker
import FlowHost.Proofs.Provision
import FlowHost.Proofs.Registration
import FlowHost.Proofs.Stable

/-!
# What the names of the host's space stand for

Whatever native functions were offered, all names of the host's can be defined, and each stands for what it should: the
names of the core imports for these, that of the memory for the memory that the host provides, and every other name for
the function that was first offered under it. Instances are linked and call their imports accordingly.

* `Linker.ofHost_ok`: **no name is defined twice.**
* `Linker.links_eq`, `Linker.call_eq`: modules are linked, and imports called, by what their names stand for.
* `NativeTable.offers_resolve`: **what becomes of any offers**, up to the instances that are made with them.
-/

namespace FlowHost

/-! ### The core imports -/

namespace CoreCall

variable {name : String}

/-- The names of the core imports are those of their functions, and that of the memory. -/
theorem mem_coreNames : name ∈ coreNames ↔ (signature? name).isSome = true ∨ name = memoryName := by
  unfold signature? arity?
  split <;> simp_all [coreNames, memoryName]

/-- A name that is free for native functions is no core import's. -/
theorem signature?_eq_none (h : name ∉ coreNames) : signature? name = none := by
  rw [mem_coreNames, not_or] at h
  exact Option.isNone_iff_eq_none.1 (Option.isSome_eq_false_iff.1 (Bool.eq_false_iff.2 h.1))

/-- A core import is called by its name only. -/
theorem signature?_of_ofWords? {words : List Int32} {c : CoreCall} (h : ofWords? name words = some c) :
    (signature? name).isSome = true := by
  unfold ofWords? at h
  split at h <;> first | rfl | cases h

end CoreCall

namespace Linker

variable {l : Linker} {natives : NativeTable} {provided : Option MemoryType} {name : String} {d : Definition}

/-! ### What is defined under a name -/

/-- The core imports are defined with their signatures. -/
theorem lookup_core (name : String) :
    coreDefinitions.lookup name = (CoreCall.signature? name).map (.core name) := by
  unfold CoreCall.signature? CoreCall.arity?
  split <;> try rfl
  rw [Option.map_none, Option.map_none, List.lookup_eq_none_iff]
  simp_all [coreDefinitions, ofWords]

theorem lookup_natives (natives : NativeTable) (name : String) :
    (nativeDefinitions natives).lookup name = (natives.find? name).map .native := by
  unfold nativeDefinitions NativeTable.find?
  induction natives.functions with
  | nil => rfl
  | cons f rest ih =>
    rw [List.map_cons, List.lookup_cons, ih]
    by_cases h : f.name = name
    · simp [h]
    · rw [List.find?_cons_of_neg (by simpa using h), beq_eq_false_iff_ne.2 (Ne.symm h)]

theorem lookup_single (key name : String) (d : Definition) :
    [(key, d)].lookup name = if name = key then some d else none := by
  rw [List.lookup_cons, List.lookup_nil]
  by_cases h : name = key
  · rw [beq_iff_eq.2 h, if_pos h]
  · rw [beq_eq_false_iff_ne.2 h, if_neg h]

theorem lookup_memory (provided : Option MemoryType) (name : String) :
    (memoryDefinitions provided).lookup name = if name = memoryName then provided.map .memory else none := by
  cases provided with
  | none => exact (ite_self none).symm
  | some type => exact lookup_single memoryName name (.memory type)

/-! ### Definitions one after another -/

/-- **Names that are free and all different can be defined.** -/
theorem defineAll_ok {ds : List (String × Definition)} (hdistinct : (ds.map (·.1)).Nodup)
    (hfree : ∀ p ∈ ds, l.find? p.1 = none) : l.defineAll ds = .ok ⟨l.definitions ++ ds⟩ := by
  -- the names that are left stay free, as they differ from the one that is defined
  induction ds generalizing l with
  | nil => rw [defineAll, List.append_nil]
  | cons p rest ih =>
    obtain ⟨name, d⟩ := p
    have hnew : l.find? name = none := hfree _ List.mem_cons_self
    have hfirst : l.define name d = .ok ⟨l.definitions ++ [(name, d)]⟩ := by rw [define, hnew]
    rw [List.map_cons, List.nodup_cons] at hdistinct
    have hrest : ∀ p ∈ rest, find? ⟨l.definitions ++ [(name, d)]⟩ p.1 = none := by
      intro p hp
      have hne : p.1 ≠ name := fun h => hdistinct.1 (List.mem_map.2 ⟨p, hp, h⟩)
      have hold : l.definitions.lookup p.1 = none := hfree p (List.mem_cons_of_mem _ hp)
      rw [find?, List.lookup_append, hold, lookup_single, if_neg hne]
      rfl
    rw [defineAll, hfirst]
    exact (ih hdistinct.2 hrest).trans (by rw [List.append_assoc, List.singleton_append])

/-- All that the host defines, where nothing is in the way. -/
def whole (natives : NativeTable) (provided : Option MemoryType) : Linker :=
  ⟨coreDefinitions ++ nativeDefinitions natives ++ memoryDefinitions provided⟩

theorem find?_whole (natives : NativeTable) (provided : Option MemoryType) (name : String) :
    (whole natives provided).find? name =
      (((CoreCall.signature? name).map (.core name)).or ((natives.find? name).map .native)).or
        (if name = memoryName then provided.map .memory else none) := by
  rw [find?, whole, List.lookup_append, List.lookup_append, lookup_core, lookup_natives, lookup_memory]

/-- **No name is defined twice**, whatever memory the host provides. -/
theorem ofHost_ok (h : natives.Sound) (provided : Option MemoryType) :
    ofHost natives provided = .ok (whole natives provided) := by
  have hcore : empty.defineAll coreDefinitions = .ok ⟨coreDefinitions⟩ := defineAll_ok (by decide) fun _ _ => rfl
  have hnatives : defineAll ⟨coreDefinitions⟩ (nativeDefinitions natives) =
      .ok ⟨coreDefinitions ++ nativeDefinitions natives⟩ := by
    refine defineAll_ok ?_ fun p hp => ?_
    · rw [nativeDefinitions, List.map_map]
      exact h.distinct
    · obtain ⟨f, hf, rfl⟩ := List.mem_map.1 hp
      have hapart := h.apart f.name (List.mem_map_of_mem hf)
      show coreDefinitions.lookup f.name = none
      rw [lookup_core, CoreCall.signature?_eq_none hapart, Option.map_none]
  have hmemory : defineAll ⟨coreDefinitions ++ nativeDefinitions natives⟩ (memoryDefinitions provided) =
      .ok (whole natives provided) := by
    refine defineAll_ok ?_ fun p hp => ?_
    · cases provided <;> simp [memoryDefinitions]
    · obtain ⟨type, -, rfl⟩ := List.mem_map.1 hp
      have hfree : natives.find? memoryName = none :=
        NativeTable.find?_eq_none_iff.2 fun hmem => h.apart _ hmem (by decide)
      show (coreDefinitions ++ nativeDefinitions natives).lookup memoryName = none
      rw [List.lookup_append, lookup_core, lookup_natives, hfree]
      rfl
  simp only [ofHost, hcore, hnatives, hmemory, Except.mapError, bind, Except.bind]

/-- The name of a core import stands for it. -/
theorem find?_core {signature : Signature} (h : CoreCall.signature? name = some signature) :
    (whole natives provided).find? name = some (.core name signature) := by
  rw [find?_whole, h]
  rfl

/-- The name of a native function stands for it. -/
theorem find?_native {f : NativeFunction} (h : natives.Sound) (hf : f ∈ natives.functions) :
    (whole natives provided).find? f.name = some (.native f) := by
  have hapart := h.apart f.name (List.mem_map_of_mem hf)
  rw [find?_whole, CoreCall.signature?_eq_none hapart, h.find?_eq_some.2 ⟨hf, rfl⟩]
  rfl

/-- The name of the memory stands for the one that the host provides. -/
theorem find?_memory (h : natives.Sound) : (whole natives provided).find? memoryName = provided.map .memory := by
  have hfree : natives.find? memoryName = none :=
    NativeTable.find?_eq_none_iff.2 fun hmem => h.apart _ hmem (by decide)
  rw [find?_whole, hfree, if_pos rfl]
  rfl

/-- No other name stands for anything. -/
theorem find?_eq_none (hcore : name ∉ coreNames) (hname : name ∉ natives.names) :
    (whole natives provided).find? name = none := by
  have hmemory : name ≠ memoryName := fun hmem => hcore (CoreCall.mem_coreNames.2 (.inr hmem))
  rw [find?_whole, CoreCall.signature?_eq_none hcore, NativeTable.find?_eq_none_iff.2 hname, if_neg hmemory]
  rfl

/-- **A name stands for one of these**, or for nothing. -/
theorem name_cases (h : natives.Sound) (provided : Option MemoryType) (name : String) :
    (∃ signature, CoreCall.signature? name = some signature ∧
        (whole natives provided).find? name = some (.core name signature)) ∨
      (∃ f ∈ natives.functions, f.name = name ∧ (whole natives provided).find? name = some (.native f)) ∨
      name = memoryName ∧ (whole natives provided).find? name = provided.map .memory ∨
      (name ∉ coreNames ∧ name ∉ natives.names) ∧ (whole natives provided).find? name = none := by
  by_cases hcore : name ∈ coreNames
  · rcases CoreCall.mem_coreNames.1 hcore with hsome | rfl
    · obtain ⟨signature, hsignature⟩ := Option.isSome_iff_exists.1 hsome
      exact .inl ⟨signature, hsignature, find?_core hsignature⟩
    · exact .inr (.inr (.inl ⟨rfl, find?_memory h⟩))
  · by_cases hname : name ∈ natives.names
    · obtain ⟨f, hf, rfl⟩ := List.mem_map.1 hname
      exact .inr (.inl ⟨f, hf, rfl, find?_native h hf⟩)
    · exact .inr (.inr (.inr ⟨⟨hcore, hname⟩, find?_eq_none hcore hname⟩))

/-! ### Modules and calls -/

/-- Functions are provided as they are defined. -/
theorem provides_eq (h : natives.Sound) (provided : Option MemoryType) (i : FunctionImport) :
    (whole natives provided).provides i = Module.provides natives i := by
  unfold provides Module.provides
  refine congrArg _ ?_
  rcases name_cases h provided i.name with ⟨signature, hcore, hfind⟩ | ⟨f, hf, hname, hfind⟩ | ⟨hname, hfind⟩ |
    ⟨⟨hcore, hname⟩, hfind⟩
  · rw [hfind, hcore]
    simp [Definition.signature?]
  · have hcore := CoreCall.signature?_eq_none (h.apart i.name (hname ▸ List.mem_map_of_mem hf))
    rw [hfind, hcore, h.find?_eq_some.2 ⟨hf, hname⟩]
    simp [Definition.signature?]
  · have hfree : natives.find? i.name = none :=
      NativeTable.find?_eq_none_iff.2 fun hmem => h.apart _ hmem (hname ▸ (by decide : memoryName ∈ coreNames))
    have hcore : CoreCall.signature? i.name = none := by rw [hname]; rfl
    rw [hfind, hcore, hfree]
    cases provided <;> simp [Definition.signature?]
  · rw [hfind, CoreCall.signature?_eq_none hcore, NativeTable.find?_eq_none_iff.2 hname]
    simp

/-- A memory is provided under its name only. -/
theorem providesMemory_eq (h : natives.Sound) (provided : Option MemoryType) (i : MemoryImport) :
    (whole natives provided).providesMemory i =
      (decide (i.space = hostSpace ∧ i.name = memoryName) && Module.providesMemory provided i.type i.form) := by
  unfold providesMemory Module.providesMemory
  rw [Bool.decide_and, Bool.and_assoc]
  refine congrArg _ ?_
  by_cases hname : i.name = memoryName
  · rw [hname, find?_memory h]
    cases provided <;> simp [Definition.memoryType?]
  · rw [decide_eq_false hname, Bool.false_and]
    rcases name_cases h provided i.name with ⟨signature, -, hfind⟩ | ⟨f, -, -, hfind⟩ | ⟨hmemory, -⟩ | ⟨-, hfind⟩
    · rw [hfind]
      rfl
    · rw [hfind]
      rfl
    · exact absurd hmemory hname
    · rw [hfind]
      rfl

/-- **A module links exactly if all that it imports is defined**, with its type. -/
theorem links_eq {config : InstanceConfig} {limits : Limits} {m : Module} (h : natives.Sound)
    (hhost : m.hostMemory config limits = .ok provided) :
    (whole natives provided).links m = m.links natives provided := by
  have hspec := Module.hostMemory_spec config limits m
  rw [hhost] at hspec
  have hfunctions : (whole natives provided).provides = Module.provides natives :=
    funext (provides_eq h provided)
  have hmemories : (whole natives provided).providesMemory = fun i =>
      decide (i.space = hostSpace ∧ i.name = memoryName) && Module.providesMemory provided i.type i.form :=
    funext (providesMemory_eq h provided)
  unfold links Module.links
  rw [hfunctions, hmemories]
  cases hm : m.memory with
  | absent => rfl
  | ownAs type exported form => rfl
  | importedAs space name declared form =>
    cases hspec with
    | unwanted hunwanted =>
      -- without a memory of the host's, neither side is satisfied
      simp [Module.providesMemory]
    | provided hshared =>
      rw [hm] at hshared
      cases hshared
      simp

/-- **Whatever is called by a name is what the name stands for.** -/
theorem call_eq {σ : Surroundings} (h : σ.natives.Sound) (provided : Option MemoryType) (name : String)
    (arguments : List Value) (m : Machine) :
    m.call σ name arguments = (whole σ.natives provided).call σ name arguments m := by
  have hwords : CoreCall.signature? name = none → (Machine.words? arguments).bind (CoreCall.ofWords? name) = none := by
    intro hcore
    refine Option.eq_none_iff_forall_ne_some.2 fun c hc => ?_
    obtain ⟨words, -, hc⟩ := Option.bind_eq_some_iff.1 hc
    have hsome := CoreCall.signature?_of_ofWords? hc
    rw [hcore] at hsome
    cases hsome
  unfold Machine.call call
  rcases name_cases h provided name with ⟨signature, hcore, hfind⟩ | ⟨f, hf, hname, hfind⟩ | ⟨hname, hfind⟩ |
    ⟨⟨hcore, hname⟩, hfind⟩
  · -- a core import that is called with other words than it takes is no native function either
    have hfree : σ.natives.find? name = none := by
      refine NativeTable.find?_eq_none_iff.2 fun hmem => h.apart _ hmem (CoreCall.mem_coreNames.2 (.inl ?_))
      rw [hcore]
      rfl
    rw [hfind, hfree]
    rfl
  · have hcore := CoreCall.signature?_eq_none (h.apart name (hname ▸ List.mem_map_of_mem hf))
    rw [hfind, hwords hcore, h.find?_eq_some.2 ⟨hf, hname⟩]
    rfl
  · have hcore : CoreCall.signature? name = none := by rw [hname]; rfl
    have hfree : σ.natives.find? name = none :=
      NativeTable.find?_eq_none_iff.2 fun hmem => h.apart _ hmem (hname ▸ (by decide : memoryName ∈ coreNames))
    rw [hfind, hwords hcore, hfree]
    cases provided <;> rfl
  · rw [hfind, hwords (CoreCall.signature?_eq_none hcore), NativeTable.find?_eq_none_iff.2 hname]

end Linker

/-! ### Instances -/

/-- A guest that works on a memory of a type, and the host knows it. -/
structure GuestState.Shares (g : GuestState) (type : MemoryType) : Prop where
  isKnown : g.isKnown = true
  memory : g.memory.isSome = true
  maximum : g.maximum = type.maximum

namespace Machine

variable {σ : Surroundings} {m m' : Machine} {type : MemoryType}

/-- A call of an import leaves the guest the memory that it has. -/
theorem call_shares {function : String} {arguments : List Value} {r : Option (List Value)}
    (h : m.call σ function arguments = (r, m')) (hshares : m.guest.Shares type) : m'.guest.Shares type := by
  cases call_called h with
  | idle => exact hshares
  | core c hm hst => exact ⟨hshares.isKnown, rfl, hshares.maximum⟩
  | native arguments hm hf hst => exact ⟨hshares.isKnown, rfl, hshares.maximum⟩

/-- **No guest leaves the memory that it shares.** -/
theorem shares_stable (σ : Surroundings) (type : MemoryType) : GuestState.Stable σ (·.Shares type) := by
  rintro x y hmove h
  cases hmove with
  | pages => exact h
  | @grow m delta next =>
    obtain ⟨memory, hm⟩ := Option.isSome_iff_exists.1 h.memory
    rw [grow_of_some hm]
    exact ⟨h.isKnown, rfl, h.maximum⟩
  | load => exact h
  | store => exact ⟨h.isKnown, rfl, h.maximum⟩
  | spare ha =>
    obtain ⟨x, x', -, -, rfl⟩ := access_eq_some ha
    exact ⟨h.isKnown, h.memory, h.maximum⟩
  | getGlobal => exact h
  | setGlobal => exact ⟨h.isKnown, h.memory, h.maximum⟩
  | call hc => exact call_shares hc h
  | trapped hc => exact call_shares hc h

end Machine

/-- A guest whose module imports the host's memory shares it. -/
theorem Module.prepare_shares {config : InstanceConfig} {natives : NativeTable} {limits : Limits} {M : Module}
    {guest : GuestState} {type : MemoryType} (h : M.prepare config natives limits = .ok guest)
    (hhost : M.hostMemory config limits = .ok (some type)) : guest.Shares type := by
  obtain ⟨provided, spares, hprovided, -, -, -, hguest⟩ := prepare_inv h
  rw [hhost] at hprovided
  cases hprovided
  have hspec := hostMemory_spec config limits M
  rw [hhost] at hspec
  cases hspec with
  | @provided declared form hM =>
    have htype : M.memoryType? (some (hostMemoryType config declared)) =
        some (hostMemoryType config declared, .plain) := by
      rw [memoryType?, hM]
      rfl
    have hknown : M.isKnown = true := by
      rw [isKnown, hM]
      exact decide_eq_true ⟨rfl, rfl⟩
    obtain ⟨hnone, -⟩ | ⟨type, form, memory, hsome, -, rfl⟩ := hguest
    · rw [htype] at hnone
      cases hnone
    · rw [htype] at hsome
      cases hsome
      exact ⟨hknown, rfl, rfl⟩

namespace Linker

/-- **What an instance was linked with**: its module imports nothing that is not defined with its type, whatever it
calls by a name is what the name stands for, and it works on the memory that the name of the memory stands for. -/
structure Wires (l : Linker) (M : Module) (i : Instance) : Prop where
  links : l.links M = true
  calls : ∀ (m : Machine) (name : String) (arguments : List Value),
    m.call i.surroundings name arguments = l.call i.surroundings name arguments m
  memory : ∀ type, l.find? memoryName = some (.memory type) → i.guest.Shares type

/-- **What names stand for**: the names of core imports for these, that of the memory for the host's memory, and the
names of native functions for the functions of a table. -/
structure Resolves (l : Linker) (natives : NativeTable) (provided : Option MemoryType) : Prop where
  core : ∀ name ∈ coreNames, name ≠ memoryName →
    ∃ signature, CoreCall.signature? name = some signature ∧ l.find? name = some (.core name signature)
  memory : l.find? memoryName = provided.map .memory
  native : ∀ f ∈ natives.functions, l.find? f.name = some (.native f)
  others : ∀ name, name ∉ coreNames → name ∉ natives.names → l.find? name = none

theorem whole_resolves {natives : NativeTable} (h : natives.Sound) (provided : Option MemoryType) :
    (whole natives provided).Resolves natives provided := by
  refine ⟨fun name hcore hname => ?_, find?_memory h, fun _ => find?_native h, fun _ => find?_eq_none⟩
  have hsome := (CoreCall.mem_coreNames.1 hcore).resolve_right hname
  obtain ⟨signature, hsignature⟩ := Option.isSome_iff_exists.1 hsome
  exact ⟨signature, hsignature, find?_core hsignature⟩

end Linker

/-- **Every instance was linked with all that the host defines.** -/
theorem Launcher.launch_wired {l : Launcher} {n : Nat} {bundle : Bundle} {connected : Bool} {host host' : Host}
    {i : Instance} (hnatives : l.natives.Sound) (h : l.launch n bundle connected host = (.ok i, host')) :
    ∃ M provided, l.compile bundle.binary = some M ∧ M.hostMemory l.config l.limits = .ok provided ∧
      (Linker.whole l.natives provided).Wires M i := by
  obtain ⟨M, guest, exports, m', hc, hprepare, hsettle, rfl, -⟩ := launch_ok h
  obtain ⟨provided, spares, hhost, hlinks, -⟩ := Module.prepare_inv hprepare
  refine ⟨M, provided, hc, hhost, ⟨(Linker.links_eq hnatives hhost).trans hlinks, ?_, ?_⟩⟩
  · exact fun m name arguments => Linker.call_eq hnatives provided name arguments m
  · intro type htype
    rw [Linker.find?_memory hnatives] at htype
    obtain ⟨_, rfl, hmemory⟩ := Option.map_eq_some_iff.1 htype
    cases hmemory
    have hkeeps := settle_keeps (Machine.shares_stable (l.surroundings n) type) l M connected ⟨guest, host⟩
      (Module.prepare_shares hprepare hhost)
    rw [hsettle] at hkeeps
    exact hkeeps

namespace NativeTable

/-- **What becomes of any offers.** The table leads every name that was offered, but for those of core imports, to the
function that was offered first under it; any other offer is refused as a registration, and changes nothing. All that
the host defines can be defined then: every name stands for what it should, and every instance that is made was linked
with that. -/
theorem offers_resolve (fs : List NativeFunction) :
    let t := ofOffers fs
    (∀ name, t.find? name = if name ∈ coreNames then none else fs.find? fun f => f.name == name) ∧
      (∀ f, ofOffers (fs ++ [f]) = (t.offer f).2 ∧
        ((t.offer f).1 = .ok () ↔ f.name ∉ coreNames ∧ f.name ∉ fs.map (·.name)) ∧
        ∀ e, (t.offer f).1 = .error e → (∃ fault, e = .registration fault) ∧ (t.offer f).2 = t) ∧
      (∀ provided, ∃ k, Linker.ofHost t provided = .ok k ∧ k.Resolves t provided) ∧
      ∀ (l : Launcher) (n : Nat) (bundle : Bundle) (connected : Bool) (host host' : Host) (i : Instance),
        l.natives = t → l.launch n bundle connected host = (.ok i, host') →
          ∃ M provided k, l.compile bundle.binary = some M ∧ M.hostMemory l.config l.limits = .ok provided ∧
            Linker.ofHost t provided = .ok k ∧ k.Wires M i := by
  intro t
  have ht : t.Sound := sound_ofOffers fs
  refine ⟨find?_ofOffers fs, fun f => ⟨ofOffers_concat fs f, ?_⟩, fun provided => ?_, ?_⟩
  · have hnames : f.name ∉ coreNames → (f.name ∈ t.names ↔ f.name ∈ fs.map (·.name)) := fun hcore =>
      mem_names_ofOffers.trans (and_iff_right hcore)
    have hcases := offer_cases t f
    generalize t.offer f = outcome at hcases ⊢
    cases hcases with
    | coreName hcore =>
      refine ⟨iff_of_false (by rintro ⟨⟩) fun hnew => hnew.1 hcore, ?_⟩
      rintro _ ⟨⟩
      exact ⟨⟨_, rfl⟩, rfl⟩
    | duplicate hcore htaken =>
      refine ⟨iff_of_false (by rintro ⟨⟩) fun hnew => hnew.2 ((hnames hcore).1 htaken), ?_⟩
      rintro _ ⟨⟩
      exact ⟨⟨_, rfl⟩, rfl⟩
    | taken hcore hnew =>
      refine ⟨iff_of_true rfl ⟨hcore, mt (hnames hcore).2 hnew⟩, ?_⟩
      rintro _ ⟨⟩
  · exact ⟨_, Linker.ofHost_ok ht provided, Linker.whole_resolves ht provided⟩
  · rintro l n bundle connected host host' i hl h
    obtain ⟨M, provided, hc, hhost, hwires⟩ := Launcher.launch_wired (hl ▸ ht) h
    rw [hl] at hwires
    exact ⟨M, provided, _, hc, hhost, Linker.ofHost_ok ht provided, hwires⟩

end NativeTable

namespace Sample

/-- A function that takes nothing and gives nothing. -/
def idle (name : String) : NativeFunction := ⟨name, ⟨[], []⟩, fun _ _ => return []⟩

/-- A guest that imports its memory, a core import and a native function. -/
def importer : Module :=
  { guest [] with
    memory := .imported hostSpace memoryName ⟨1, none⟩
    imports := [⟨hostSpace, "eea_sleep", ⟨[.i32], [.i32]⟩⟩, ⟨hostSpace, "eea_fn_idle", ⟨[], []⟩⟩] }

/-- A host for which every bundle is this guest, and to which a function was offered under two names. -/
def importerLauncher : Launcher :=
  { settings.launcher with
    compile := fun _ => some importer
    natives := .ofOffers [idle "eea_fn_idle", idle memoryName] }

end Sample

namespace NativeTable

open Sample

/-- The second offer of a name is refused, and an instance is linked with what the first one left. -/
theorem offers_resolve_importer :
    let t := ofOffers [idle "eea_fn_idle", idle memoryName]
    let bundle : Bundle := ⟨[], [], "1.0.0", "i"⟩
    importerLauncher.natives = t ∧
      (t.offer (idle "eea_fn_idle")).1 = .error (.registration (.duplicate "eea_fn_idle")) ∧
      (t.offer (idle "eea_fn_idle")).2 = t ∧
      ∃ i host', importerLauncher.launch 0 bundle false Sample.host = (.ok i, host') ∧
        ∃ k, Linker.ofHost t (some ⟨8, some 256⟩) = .ok k ∧ k.Wires importer i := by
  intro t bundle
  obtain ⟨-, hoffers, -, hinstances⟩ := offers_resolve [idle "eea_fn_idle", idle memoryName]
  have hrefused : (t.offer (idle "eea_fn_idle")).1 = .error (.registration (.duplicate "eea_fn_idle")) := by
    decide +kernel
  have hsome : (importerLauncher.launch 0 bundle false Sample.host).1.toOption.isSome = true := by decide +kernel
  have hmemory : importer.hostMemory importerLauncher.config importerLauncher.limits = .ok (some ⟨8, some 256⟩) := by
    rw [Module.hostMemory_imported rfl]
    decide +kernel
  refine ⟨rfl, hrefused, ((hoffers (idle "eea_fn_idle")).2.2 _ hrefused).2, ?_⟩
  cases hlaunch : importerLauncher.launch 0 bundle false Sample.host with
  | mk outcome host' =>
    rw [hlaunch] at hsome
    cases outcome with
    | error abort => cases hsome
    | ok i =>
      obtain ⟨M, provided, k, hM, hprovided, hk, hwires⟩ := hinstances _ _ _ _ _ _ i rfl hlaunch
      obtain rfl : importer = M := Option.some.inj hM
      obtain rfl : some ⟨8, some 256⟩ = provided := Except.ok.inj (hmemory.symm.trans hprovided)
      exact ⟨i, host', rfl, k, hk, hwires⟩

end NativeTable

end FlowHost
