import FlowHost.Proofs.Declarations
import FlowHost.Proofs.Preparing
import FlowHost.Proofs.Rejection

/-!
# The memory that the host provides

A module that imports the shared memory is given a plain one by the host, with the pages that the module asks for
or with those of the configuration, whichever are more. The memory's own maximum follows: it is raised to the
pages that the memory starts with, above what the module declares if need be, and a memory that may grow
further than a module declares does not link.

* `Module.satisfies_eq_true`: what it takes to satisfy a declaration.
* `Launcher.provision_links`: **the host's memory satisfies a declaration exactly if the configured pages do
  not exceed the declared maximum**.
-/

namespace FlowHost

namespace Module

variable {config : InstanceConfig} {natives : NativeTable} {limits : Limits} {M : Module}
  {declared provided : MemoryType}

/-- **What it takes to satisfy a declaration**: the pages that it asks for, and a maximum that does not
exceed the declared one. -/
theorem satisfies_eq_true : satisfies provided declared = true ↔
    declared.minimum ≤ provided.minimum ∧
      ∀ most ∈ declared.maximum, ∃ own ∈ provided.maximum, own ≤ most := by
  obtain ⟨minimum, maximum⟩ := declared
  obtain ⟨least, own⟩ := provided
  unfold satisfies
  rw [Bool.and_eq_true, decide_eq_true_eq]
  refine and_congr_right fun _ => ?_
  cases maximum with
  | none => exact ⟨fun _ _ hmost => absurd hmost (Option.not_mem_none _), fun _ => rfl⟩
  | some most =>
    cases own with
    | none =>
      constructor
      · intro h
        cases h
      · intro h
        obtain ⟨_, hown, -⟩ := h most rfl
        cases hown
    | some own =>
      rw [decide_eq_true_eq]
      constructor
      · rintro h _ ⟨⟩
        exact ⟨own, rfl, h⟩
      · intro h
        obtain ⟨_, ⟨⟩, hle⟩ := h most rfl
        exact hle

/-- **A module whose imports are provided**, but for the memory that it shares with the host. -/
def LinksBesides (natives : NativeTable) (provided : MemoryType) (M : Module) : Prop :=
  (∀ i ∈ M.imports, provides natives i = true) ∧
    ∀ i ∈ M.further, (i.space = hostSpace ∧ i.name = memoryName) ∧ i.form = .plain ∧
      satisfies provided i.type = true

theorem links_eq_true (hM : M.memory = .imported hostSpace memoryName declared) :
    M.links natives (some provided) = true ↔
      M.LinksBesides natives provided ∧ satisfies provided declared = true := by
  unfold links LinksBesides
  rw [hM]
  simp only [providesMemory, Bool.and_eq_true, List.all_eq_true, decide_eq_true_eq]
  tauto

/-- **How the host's memory relates to a declaration.** -/
structure Provision (config : InstanceConfig) (declared provided : MemoryType) : Prop where
  /-- It has the pages that the module asks for. -/
  enough : declared.minimum ≤ provided.minimum
  /-- It may start, and addresses reach all of it. -/
  sound : ∃ own ∈ provided.maximum, provided.minimum ≤ own ∧ own ≤ maxPages
  /-- Its maximum is at most the declared one exactly if the configured pages are. -/
  bounded : ∀ most ∈ declared.maximum,
    ((∃ own ∈ provided.maximum, own ≤ most) ↔ config.memoryPages.toNat ≤ most)

/-- The host never asks for a memory that starts with more pages than its maximum. -/
theorem hostMemoryType_sound : ∀ most ∈ (hostMemoryType config declared).maximum,
    (hostMemoryType config declared).minimum ≤ most := by
  rintro _ ⟨⟩
  exact Nat.le_max_right _ _

/-- A number of pages within reach is not cut. -/
theorem toNat_ofNat_pages {pages : Nat} (h : pages ≤ maxPages) : (UInt32.ofNat pages).toNat = pages :=
  UInt32.toNat_ofNat_of_lt' (Nat.lt_of_le_of_lt h (by decide))

/-- Nothing of a declaration that makes sense is cut. -/
theorem hostMemoryType_of_isValid (hvalid : declared.IsValid) : hostMemoryType config declared =
    let least := max declared.minimum config.memoryPages.toNat
    ⟨least, some (max (declared.maximum.getD config.maxMemoryPages.toNat) least)⟩ := by
  obtain ⟨minimum, maximum⟩ := declared
  have hmin : (UInt32.ofNat minimum).toNat = minimum := toNat_ofNat_pages hvalid.minimum
  unfold hostMemoryType
  cases maximum with
  | none => simp only [hmin, Option.map_none, Option.getD_none]
  | some most =>
    have hmost : (UInt32.ofNat most).toNat = most := toNat_ofNat_pages (hvalid.maximum most rfl).2
    simp only [hmin, hmost, Option.map_some, Option.getD_some]

/-- The host's memory for a declaration that makes sense, with pages that addresses reach. -/
theorem hostMemoryType_provision (hvalid : declared.IsValid)
    (hpages : config.memoryPages ≤ config.maxMemoryPages)
    (hmax : config.maxMemoryPages.toNat ≤ maxPages) :
    Provision config declared (hostMemoryType config declared) := by
  have hpages' : config.memoryPages.toNat ≤ config.maxMemoryPages.toNat := UInt32.le_iff_toNat_le.1 hpages
  have hmin : declared.minimum ≤ maxPages := hvalid.minimum
  rw [hostMemoryType_of_isValid hvalid]
  refine ⟨Nat.le_max_left _ _, ⟨_, rfl, Nat.le_max_right _ _, ?_⟩, ?_⟩
  · have hown : declared.maximum.getD config.maxMemoryPages.toNat ≤ maxPages := by
      cases hmaximum : declared.maximum with
      | none => exact hmax
      | some most => exact (hvalid.maximum most hmaximum).2
    exact Nat.max_le.2 ⟨hown, Nat.max_le.2 ⟨hmin, Nat.le_trans hpages' hmax⟩⟩
  · intro most hmost
    have hle : declared.minimum ≤ most := (hvalid.maximum most hmost).1
    rw [Option.mem_def.1 hmost, Option.getD_some]
    constructor
    · rintro ⟨own, ⟨⟩, h⟩
      omega
    · intro h
      exact ⟨_, rfl, by omega⟩

/-- The limits let the host's memory start if they let the module's. -/
theorem hostMemoryType_allowed (hpages : config.memoryPages ≤ config.maxMemoryPages)
    (hmin : declared.minimum ≤ config.maxMemoryPages.toNat) :
    allows (Limits.ofPages config.maxMemoryPages.toNat) (hostMemoryType config declared) .plain = true := by
  have hpages' : config.memoryPages.toNat ≤ config.maxMemoryPages.toNat := UInt32.le_iff_toNat_le.1 hpages
  have hcut : (UInt32.ofNat declared.minimum).toNat ≤ declared.minimum := Nat.mod_le _ _
  have hleast : (hostMemoryType config declared).minimum ≤ config.maxMemoryPages.toNat :=
    Nat.max_le.2 ⟨Nat.le_trans hcut hmin, hpages'⟩
  show Limits.allowsMemory _ _ _ = true
  unfold Limits.allowsMemory
  rw [Bool.and_eq_true, decide_eq_true_eq, decide_eq_true_eq]
  exact ⟨Nat.mul_le_mul_right _ (Nat.le_max_right _ _), Nat.mul_le_mul_right _ hleast⟩

/-- **A guest is rejected for its imports** exactly if one of them is not provided. -/
theorem prepare_unlinked {provided : Option MemoryType} (hhost : M.hostMemory config limits = .ok provided) :
    M.prepare config natives limits = .error (.failed (.instantiation unlinkedImport)) ↔
      M.links natives provided = false := by
  constructor
  · intro h
    obtain hcrash | ⟨found, detail, hfound, habort, hiff⟩ := prepare_error h
    · rw [hhost] at hcrash
      cases hcrash
    · rw [hhost] at hfound
      cases hfound
      cases habort
      exact hiff.1 rfl
  · intro hlinks
    unfold prepare
    rw [hhost]
    simp only [bind, Except.bind, hlinks]
    rfl

end Module

namespace Launcher

variable {l : Launcher} {M : Module} {declared : MemoryType}

/-- A bundle whose guest is not prepared leaves no trace. -/
theorem launch_of_prepare_error {abort : Abort} {bundle : Bundle} (hc : l.compile bundle.binary = some M)
    (h : M.prepare l.config l.natives l.limits = .error abort) (n : Nat) (connected : Bool) (host : Host) :
    l.launch n bundle connected host = (.error abort, host) := by
  unfold launch
  simp only [hc, h]

/-- **The host's memory satisfies the declaration of a plain one exactly if the configured pages do not exceed the declared
maximum.** It always has the pages that the module asks for. A module that declares a smaller maximum is
rejected, whatever else it imports; no other module is rejected for the host's memory. -/
theorem provision_links (hM : M.memory = .imported hostSpace memoryName declared)
    (hvalid : declared.IsValid) (hpages : l.config.memoryPages ≤ l.config.maxMemoryPages)
    (hmax : l.config.maxMemoryPages.toNat ≤ maxPages)
    (hmin : declared.minimum ≤ l.config.maxMemoryPages.toNat) :
    ∃ provided, M.hostMemory l.config l.limits = .ok (some provided) ∧
      Module.Provision l.config declared provided ∧
      (M.prepare l.config l.natives l.limits = .error (.failed (.instantiation Module.unlinkedImport)) ↔
        ¬ M.LinksBesides l.natives provided ∨
          ∃ most ∈ declared.maximum, most < l.config.memoryPages.toNat) ∧
      ((∃ most ∈ declared.maximum, most < l.config.memoryPages.toNat) →
        ∀ n bundle connected host, l.compile bundle.binary = some M →
          l.launch n bundle connected host =
            (.error (.failed (.instantiation Module.unlinkedImport)), host)) := by
  have hprovision := Module.hostMemoryType_provision hvalid hpages hmax
  set provided := Module.hostMemoryType l.config declared with hprovided
  have hhost : M.hostMemory l.config l.limits = .ok (some provided) := by
    obtain ⟨own, hown, -, hreach⟩ := hprovision.sound
    have hcrash : ¬ maxPages < provided.maximum.getD 0 := by
      rw [Option.mem_def.1 hown]
      exact Nat.not_lt.2 hreach
    rw [Module.hostMemory_imported hM, if_neg hcrash]
    exact if_pos (Module.hostMemoryType_allowed hpages hmin)
  have hsat : Module.satisfies provided declared = true ↔
      ∀ most ∈ declared.maximum, l.config.memoryPages.toNat ≤ most := by
    rw [Module.satisfies_eq_true]
    constructor
    · rintro ⟨-, h⟩ most hmost
      exact (hprovision.bounded most hmost).1 (h most hmost)
    · intro h
      exact ⟨hprovision.enough, fun most hmost => (hprovision.bounded most hmost).2 (h most hmost)⟩
  have hrejected : M.prepare l.config l.natives l.limits =
      .error (.failed (.instantiation Module.unlinkedImport)) ↔
        ¬ M.LinksBesides l.natives provided ∨
          ∃ most ∈ declared.maximum, most < l.config.memoryPages.toNat := by
    rw [Module.prepare_unlinked hhost, ← Bool.not_eq_true, Module.links_eq_true hM, hsat, not_and_or]
    simp only [not_forall, exists_prop, Nat.not_le]
  refine ⟨provided, hhost, hprovision, hrejected, fun h n bundle connected host hc => ?_⟩
  exact launch_of_prepare_error hc (hrejected.2 (.inr h)) n connected host

end Launcher

namespace Sample

/-- A guest that imports a memory of one page, which must not exceed four. -/
def modest : Module := { guest [] with memory := .imported hostSpace memoryName ⟨1, some 4⟩ }

/-- A host with the standard pages, for which every bundle is the modest guest. -/
def modestLauncher : Launcher := { settings.launcher with compile := fun _ => some modest }

theorem modest_isValid : MemoryType.IsValid ⟨1, some 4⟩ := ⟨by decide, by rintro _ ⟨⟩; decide⟩

end Sample

namespace Launcher

/-- The host's memory for the modest guest, by the configuration's eight pages. -/
theorem provision_links_modest :
    let l := Sample.modestLauncher
    let M := Sample.modest
    M.memory = .imported hostSpace memoryName ⟨1, some 4⟩ ∧ MemoryType.IsValid ⟨1, some 4⟩ ∧
      l.config.memoryPages ≤ l.config.maxMemoryPages ∧ l.config.maxMemoryPages.toNat ≤ maxPages ∧
      1 ≤ l.config.maxMemoryPages.toNat ∧
      ∃ provided, M.hostMemory l.config l.limits = .ok (some provided) ∧
        Module.Provision l.config ⟨1, some 4⟩ provided ∧
        M.prepare l.config l.natives l.limits = .error (.failed (.instantiation Module.unlinkedImport)) := by
  intro l M
  obtain ⟨provided, hhost, hprovision, hrejected, -⟩ :=
    provision_links (l := l) (M := M) rfl Sample.modest_isValid (by decide) (by decide) (by decide)
  exact ⟨rfl, Sample.modest_isValid, by decide, by decide, by decide, provided, hhost, hprovision,
    hrejected.2 (.inr ⟨4, rfl, by decide⟩)⟩

/-- **A memory that does not satisfy the declaration it is made for**: its own maximum is above the declared
one, and the guest is rejected though it imports nothing else and asks for less than the limits allow. -/
theorem modest_rejected :
    let l := Sample.modestLauncher
    let binary := Sample.content 109
    MemoryType.IsValid ⟨1, some 4⟩ ∧ l.config.memoryPages ≤ l.config.maxMemoryPages ∧
      l.config.maxMemoryPages.toNat ≤ maxPages ∧ 1 ≤ l.config.maxMemoryPages.toNat ∧
      Sample.modest.hostMemory l.config l.limits = .ok (some ⟨8, some 8⟩) ∧
      Sample.modest.LinksBesides l.natives ⟨8, some 8⟩ ∧
      l.launch 0 ⟨binary, binary, "1.0.0", "m"⟩ false Sample.host =
        (.error (.failed (.instantiation Module.unlinkedImport)), Sample.host) := by
  refine ⟨Sample.modest_isValid, by decide, by decide, by decide, by decide, ⟨?_, ?_⟩, rfl⟩
  · intro i hi
    cases hi
  · intro i hi
    cases hi

end Launcher

end FlowHost
