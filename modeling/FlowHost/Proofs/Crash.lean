import FlowHost.Config
import FlowHost.Proofs.Provision
import FlowHost.Proofs.Steps

/-!
# What stops a host

A host stops where it asks for a memory that no host can have. An accepted configuration keeps it from that
for pages at the start that exceed the pages ever, but it says nothing of pages that words do not reach. Nor does
anything keep a module from declaring as many, where it imports a memory that is addressed by long words.

* `MemoryType.Overreaches`: pages that the host asks for, and no host can have.
* `Launcher.launch_crashed`: **the bundles that stop a host**, whatever they do.
* `Agent.run_crashed`: **a run ends in a crash exactly if it was asked to load such a bundle**.
-/

namespace FlowHost

/-- **Pages out of reach**: of the pages that the host computes for an import, which are those that the import declares,
cut to words, and those of the configuration, some number is more than words reach. -/
def MemoryType.Overreaches (declared : MemoryType) (config : InstanceConfig) : Prop :=
  maxPages < declared.minimum % UInt32.size ∨ maxPages < config.memoryPages.toNat ∨
    maxPages < (declared.maximum.map (· % UInt32.size)).getD config.maxMemoryPages.toNat

/-- **A bundle that stops the host**: its module imports the shared memory, whatever its form, with pages out of
reach. -/
def Launcher.StoppedBy (l : Launcher) (bundle : Bundle) : Prop :=
  ∃ M declared form, l.compile bundle.binary = some M ∧
    M.memory = .importedAs hostSpace memoryName declared form ∧ declared.Overreaches l.config

/-- An accepted configuration lets agents tick, and has no more pages at the start than ever. -/
theorem AgentConfig.validate_ok {c : AgentConfig} (h : c.validate = .ok ()) :
    c.loopIntervalMs ≠ 0 ∧ c.memoryPages ≤ c.maxMemoryPages := by
  unfold validate at h
  split at h
  · cases h
  · split at h
    · cases h
    · rename_i hloop
      split at h
      · cases h
      · rename_i hpages
        exact ⟨hloop, UInt32.not_lt.1 hpages⟩

namespace Module

variable {config : InstanceConfig} {natives : NativeTable} {limits : Limits} {M : Module}
  {declared : MemoryType}

/-- **The maximum of the host's memory is out of reach** exactly if some of the pages are that it is computed from. -/
theorem hostMemoryType_unreachable :
    maxPages < (hostMemoryType config declared).maximum.getD 0 ↔ declared.Overreaches config := by
  obtain ⟨minimum, maximum⟩ := declared
  have hcut : ∀ n : Nat, (UInt32.ofNat n).toNat = n % UInt32.size := fun _ => rfl
  unfold MemoryType.Overreaches hostMemoryType
  simp only [Option.getD_some, hcut]
  cases maximum with
  | none =>
    simp only [Option.map_none, Option.getD_none]
    omega
  | some most =>
    simp only [Option.map_some, Option.getD_some, hcut]
    omega

/-- **A plain memory** is out of reach only if the configuration is: the module leaves the maximum to it, or the pages
at the start already are. -/
theorem overreaches_iff_of_isValid (hvalid : declared.IsValid)
    (hpages : config.memoryPages ≤ config.maxMemoryPages) : declared.Overreaches config ↔
      maxPages < config.maxMemoryPages.toNat ∧
        (declared.maximum = none ∨ maxPages < config.memoryPages.toNat) := by
  have hpages' : config.memoryPages.toNat ≤ config.maxMemoryPages.toNat := UInt32.le_iff_toNat_le.1 hpages
  have hmin : declared.minimum ≤ maxPages := hvalid.minimum
  rw [← hostMemoryType_unreachable, hostMemoryType_of_isValid hvalid, Option.getD_some]
  cases hmaximum : declared.maximum with
  | none =>
    rw [Option.getD_none]
    constructor
    · intro h
      exact ⟨by omega, .inl rfl⟩
    · rintro ⟨h, -⟩
      omega
  | some most =>
    have hmost : most ≤ maxPages := (hvalid.maximum most hmaximum).2
    rw [Option.getD_some]
    constructor
    · intro h
      exact ⟨by omega, .inr (by omega)⟩
    · rintro ⟨-, h | h⟩
      · cases h
      · omega

/-- **The host stops over its own memory** and nothing else. -/
theorem prepare_crashed : M.prepare config natives limits = .error .crashed ↔
    ∃ declared form, M.memory = .importedAs hostSpace memoryName declared form ∧ declared.Overreaches config := by
  simp only [← hostMemoryType_unreachable]
  constructor
  · intro h
    obtain ⟨-, hstops⟩ | ⟨_, habort⟩ := prepare_error_cases h
    · exact hstops
    · cases habort
  · rintro ⟨declared, form, hM, hmost⟩
    unfold prepare
    rw [hostMemory_imported hM, if_pos hmost]
    rfl

end Module

namespace Launcher

variable {l : Launcher}

/-- A launch stops the host before anything of the guest runs. -/
theorem launch_crashed_of_prepare (n : Nat) (bundle : Bundle) (connected : Bool) (host : Host) :
    (l.launch n bundle connected host).1 = .error .crashed ↔
      ∃ M, l.compile bundle.binary = some M ∧ M.prepare l.config l.natives l.limits = .error .crashed := by
  unfold launch
  cases hc : l.compile bundle.binary with
  | none => simp
  | some M =>
    cases hp : M.prepare l.config l.natives l.limits with
    | error abort => simp [hp]
    | ok guest =>
      cases hs : l.settle (l.surroundings n) M connected ⟨guest, host⟩ with
      | error e machine => simp [hp, hs]
      | ok exports machine => simp [hp, hs]

/-- **The bundles that stop a host** are those that import the shared memory with pages out of reach. Every other
bundle comes to an instance or to an error. -/
theorem launch_crashed (n : Nat) (bundle : Bundle) (connected : Bool) (host : Host) :
    (l.launch n bundle connected host).1 = .error .crashed ↔ l.StoppedBy bundle := by
  rw [launch_crashed_of_prepare]
  simp only [Module.prepare_crashed]
  constructor
  · rintro ⟨M, hc, declared, form, hM, hmost⟩
    exact ⟨M, declared, form, hc, hM, hmost⟩
  · rintro ⟨M, declared, form, hc, hM, hmost⟩
    exact ⟨M, hc, declared, form, hM, hmost⟩

/-- A bundle that stops the host leaves no trace. -/
theorem launch_stopped {bundle : Bundle} (h : l.StoppedBy bundle) (n : Nat) (connected : Bool) (host : Host) :
    l.launch n bundle connected host = (.error .crashed, host) := by
  obtain ⟨M, declared, form, hc, hM, hmost⟩ := h
  exact launch_of_prepare_error hc (Module.prepare_crashed.2 ⟨declared, form, hM, hmost⟩) n connected host

/-- **A bundle that imports a plain memory** stops the host only if the configured pages are out of reach. -/
theorem stoppedBy_iff_of_isValid {M : Module} {declared : MemoryType} {bundle : Bundle}
    (hc : l.compile bundle.binary = some M) (hM : M.memory = .imported hostSpace memoryName declared)
    (hvalid : declared.IsValid) (hpages : l.config.memoryPages ≤ l.config.maxMemoryPages) :
    l.StoppedBy bundle ↔ maxPages < l.config.maxMemoryPages.toNat ∧
      (declared.maximum = none ∨ maxPages < l.config.memoryPages.toNat) := by
  rw [← Module.overreaches_iff_of_isValid hvalid hpages]
  constructor
  · rintro ⟨M', declared', form, hc', hM', hmost⟩
    obtain rfl := Option.some.inj (hc.symm.trans hc')
    rw [hM] at hM'
    cases hM'
    exact hmost
  · intro hmost
    exact ⟨M, declared, .plain, hc, hM, hmost⟩

end Launcher

namespace Agent

variable {s : AgentSettings} {a : Agent} {content : Bytes} {keep : Bool}

/-- **A load stops a running agent** exactly if it stops the host. -/
theorem swap_crashed (hs : Sound s a) (hr : a.phase = .running) (content : Bytes) (keep : Bool) :
    (swap s content keep a).2.phase = .crashed ↔ ∃ bundle, Bundle.parse content = .ok bundle ∧
      (s.launcher.launch a.count.attempts bundle a.isConnected a.host).1 = .error .crashed := by
  unfold swap
  cases hb : Bundle.parse content with
  | error e => simp [reject, hr]
  | ok bundle =>
    obtain hl | ⟨e, es, host, hl, -⟩ | ⟨candidate, es, host, hl, hac⟩ :=
      Launcher.launch_cases s.launcher s.bundleFile a.count.attempts bundle a.isConnected a.host
    · simp [hl, crash]
    · simp [hl, reject, hr]
    · -- a candidate that takes over leaves the agent running
      obtain ⟨_, _, _, _, _, hh⟩ := hs.promote hac keep
      obtain ⟨_, hfix, -, -⟩ := hh.active
      simp only [hl]
      rw [hfix]
      simp [hr, hl]

/-- Octets that are a bundle which stops the host. -/
def Stops (s : AgentSettings) (content : Bytes) : Prop :=
  ∃ bundle, Bundle.parse content = .ok bundle ∧ s.launcher.StoppedBy bundle

variable {ls : List Load}

/-- An agent that has crashed was asked to load a bundle that stops the host. -/
def Blamed (s : AgentSettings) (ls : List Load) (a : Agent) : Prop :=
  a.phase = .crashed ↔ ∃ load ∈ ls, Stops s load.content

/-- A load may be to blame, and nothing else that happens to an agent that runs. -/
theorem Blamed.swap (hs : Sound s a) (hr : a.phase = .running) (h : Blamed s ls a) (content : Bytes) (keep : Bool) :
    Blamed s (ls ++ [⟨content, (Agent.swap s content keep a).1⟩]) (Agent.swap s content keep a).2 := by
  have hbefore : ¬ ∃ load ∈ ls, Stops s load.content := by
    intro hload
    rw [h.2 hload] at hr
    cases hr
  have hload : (Agent.swap s content keep a).2.phase = .crashed ↔ Stops s content := by
    rw [swap_crashed hs hr]
    exact exists_congr fun bundle => and_congr_right fun _ => Launcher.launch_crashed _ bundle _ _
  unfold Blamed
  rw [hload]
  constructor
  · intro hstops
    exact ⟨_, List.mem_append_right _ (List.mem_singleton.2 rfl), hstops⟩
  · rintro ⟨load, hmem, hstops⟩
    rcases List.mem_append.1 hmem with hmem | hmem
    · exact absurd ⟨load, hmem, hstops⟩ hbefore
    · obtain rfl := List.mem_singleton.1 hmem
      exact hstops

/-- What begins with a clock that can tick is as blamed as the load of the kept bundle. -/
theorem begin_blamed (hloop : s.options.loopIntervalMs ≠ 0) (host : Host) :
    Sound s (begin s (fresh host)) ∧ Blamed s ((keptBundle s host).map fun content =>
      ⟨content, (Agent.swap s content false (fresh host)).1⟩).toList (begin s (fresh host)) := by
  have hs := sound_fresh (s := s) host
  have hfresh : Blamed s [] (fresh host) := by
    constructor
    · intro hp
      cases hp
    · rintro ⟨load, hmem, -⟩
      cases hmem
  unfold begin
  rw [if_neg hloop, loadPersisted_fresh]
  cases keptBundle s host with
  | none => exact ⟨hs, hfresh⟩
  | some content => exact ⟨hs.swap rfl content false, hfresh.swap hs rfl content false⟩

/-- **A run ends in a crash exactly if it was asked to load a bundle that stops the host**, for a
configuration that is accepted. -/
theorem run_crashed {c : AgentConfig} (hvalid : c.validate = .ok ())
    (hconfig : s.launcher.config = c.instanceConfig) (hoptions : s.options = c.agentOptions) :
    (∀ n bundle connected host,
      (s.launcher.launch n bundle connected host).1 = .error .crashed ↔ s.launcher.StoppedBy bundle) ∧
    (∀ host inputs, (run s host inputs).phase = .crashed ↔
      ∃ load ∈ loads s host inputs, Stops s load.content) ∧
    ∀ bundle M declared, s.launcher.compile bundle.binary = some M →
      M.memory = .imported hostSpace memoryName declared → declared.IsValid →
      (s.launcher.StoppedBy bundle ↔ maxPages < c.maxMemoryPages.toNat ∧
        (declared.maximum = none ∨ maxPages < c.memoryPages.toNat)) := by
  obtain ⟨hinterval, hpages⟩ := AgentConfig.validate_ok hvalid
  have hloop : s.options.loopIntervalMs ≠ 0 := by
    rw [hoptions]
    exact fun hzero => hinterval (UInt64.toNat_inj.1 hzero)
  refine ⟨Launcher.launch_crashed, fun host inputs => ?_, fun bundle M declared hc hM hdeclared => ?_⟩
  · obtain ⟨hs, hblamed⟩ := begin_blamed hloop host
    refine (runFrom_induction (P := Blamed s) ?load ?stop ?serve inputs hs hblamed).2
    case load =>
      intro ls a content keep hs hr h
      exact h.swap hs hr content keep
    case stop =>
      intro ls a hs hr h
      -- an agent that stops has not crashed, before or after
      refine iff_of_false (fun hp => nomatch hp) fun hload => ?_
      rw [h.2 hload] at hr
      cases hr
    case serve =>
      intro ls a es a' hs hserves h
      unfold Blamed
      rw [hserves.phase]
      exact h
  · have hiff := Launcher.stoppedBy_iff_of_isValid hc hM hdeclared (hconfig ▸ hpages)
    rw [hconfig] at hiff
    exact hiff

end Agent

namespace Sample

/-- A configuration with one page more than addresses reach. It is accepted. -/
def vast : AgentConfig :=
  { AgentConfig.standard with deviceId := "d", memoryPages := 65537, maxMemoryPages := 65537 }

/-- A guest that imports a memory of one page or more. -/
def undemanding : Module := { guest [] with memory := .imported hostSpace memoryName ⟨1, none⟩ }

/-- A host with the standard pages that reads binaries. -/
def binaryLauncher : Launcher := { settings.launcher with compile := Module.ofBinary? }

/-- The binary of a module that imports the shared memory, with flags and sizes that are given. -/
def importing (sizes : Bytes) : Bytes :=
  let item : Bytes := [1, 3, 101, 110, 118, 6, 109, 101, 109, 111, 114, 121, 2] ++ sizes
  Section.plainHeader ++ 2 :: UInt8.ofNat item.length :: item ++ (content 103).drop Section.plainHeader.length

/-- An agent of this configuration, for which every bundle is this guest. -/
def vastSettings : AgentSettings :=
  { launcher :=
      { compile := fun _ => some undemanding
        deviceId := vast.deviceId
        config := vast.instanceConfig
        natives := .empty
        blobPlace := .memory }
    options := vast.agentOptions
    bundleFile := none }

end Sample

namespace Agent

/-- A run that is asked to load one bundle, and crashes at it. -/
theorem run_crashed_vast :
    let s := Sample.vastSettings
    let inputs : List Input := [.command (.load (Sample.content 118))]
    Sample.vast.validate = .ok () ∧ s.launcher.config = Sample.vast.instanceConfig ∧
      s.options = Sample.vast.agentOptions ∧
      ((run s Sample.host inputs).phase = .crashed ↔
        ∃ load ∈ loads s Sample.host inputs, Stops s load.content) := by
  intro s inputs
  have hvalid : Sample.vast.validate = .ok () := by decide
  exact ⟨hvalid, rfl, rfl, (run_crashed hvalid rfl rfl).2.1 Sample.host inputs⟩

/-- **An accepted configuration that stops the host** at a bundle which only asks for one page. -/
theorem vast_crashes :
    let s := Sample.vastSettings
    let binary := Sample.content 118
    Sample.vast.validate = .ok () ∧
      s.launcher.launch 0 ⟨binary, binary, "1.0.0", "v"⟩ false Sample.host = (.error .crashed, Sample.host) ∧
      (run s Sample.host [.command (.load binary)]).phase = .crashed := by
  exact ⟨by decide, rfl, by decide +kernel⟩

end Agent

end FlowHost
