import FlowHost.Proofs.Conduct

/-!
# What a rejection leaves behind

A swap that fails leaves the agent itself as it was (`Agent.rejected_swap`), and every load is counted
once, as an instance or as a rejection. What all instances share is another matter: a candidate's own
code runs before the candidate can be rejected, and **what it queued and saved by then stays**
(`Agent.rejected_traces`).

* `Spared`: what a rejection leaves of an agent.
* `Traces`: what it leaves in the queue and of the blob.
* `Sample`: an agent that keeps its blob and its bundles in files, with two guests for it.
-/

namespace FlowHost

open History

namespace Sample

/-- A bundle without code: the version of its interface, and a name of one letter. -/
def content (letter : UInt8) : Bytes :=
  [0, 97, 115, 109, 1, 0, 0, 0, 0, 22, 16, 105, 110, 116, 101, 114, 102, 97, 99, 101, 86, 101,
    114, 115, 105, 111, 110, 49, 46, 48, 46, 48, 0, 18, 16, 98, 117, 110, 100, 108, 101, 73, 100,
    101, 110, 116, 105, 102, 105, 101, 114, letter]

/-- A guest with a letter at the start of its memory. Its entry points return at once, but for the
functions that are given. -/
def guest (functions : List (String × Export)) : Module :=
  { memory := .own ⟨1, none⟩ (some memoryName)
    imports := []
    exports := functions ++ EntryPoint.all.map fun e => (e.name, .function e.signature fun _ => .done 0)
    data := [(0, [120])]
    start := none }

/-- A guest that reads the blob when it is initialised. When it is shut down it saves its letter and
traps. -/
def diligent : Module :=
  guest [(EntryPoint.init.name, .function EntryPoint.init.signature fun _ =>
      .call "eea_storage_read" [.i32 8, .i32 4, .i32 16] fun _ => .done 0),
    (EntryPoint.shutdown.name, .function EntryPoint.shutdown.signature fun _ =>
      .call "eea_storage_save" [.i32 0, .i32 1] fun _ => .trap)]

/-- A guest that saves its letter, sends it, and traps, all in a setter. -/
def intruder : Module :=
  guest [(Setter.traceLevel.name, .function Setter.traceLevel.signature fun _ =>
    .call "eea_storage_save" [.i32 0, .i32 1] fun _ =>
      .call "eea_send_message" [.i32 0, .i32 1, .i32 0, .i32 1, .i32 0] fun _ => .trap)]

/-- An agent for which the bundle `i` is the intruder, and every other the diligent guest. -/
def settings : AgentSettings :=
  { launcher :=
      { compile := fun binary => if binary.getLast? = some 105 then some intruder else some diligent
        deviceId := "d"
        config := .standard
        natives := .empty
        blobPlace := .file ⟨[.down "blob"], false⟩ }
    options := .standard ⟨"root", "d", []⟩
    bundleFile := some ⟨[.down "bundle"], false⟩ }

/-- A host on which nothing was ever saved. -/
def host : Host := .fresh ⟨.empty, none⟩

/-- The places of the blob and of the bundles have nothing to do with each other. -/
theorem places_clear : ∀ p ∈ settings.launcher.blobPlace.path?, ∀ q ∈ settings.bundleFile,
    p.ClearOf q ∧ q.ClearOf p := by
  intro p hp q hq
  cases hp
  cases hq
  constructor <;> constructor <;> decide

end Sample

namespace Agent

/-- **A rejection leaves the agent itself as it was**: the same instance is active, the kept bundle is
the same, and all that happened was done by the candidate. -/
structure Spared (s : AgentSettings) (a a' : Agent) : Prop where
  active : a'.active = a.active
  isConnected : a'.isConnected = a.isConnected
  ticks : a'.ticks = a.ticks
  phase : a'.phase = a.phase
  created : a'.count.created = a.count.created
  rejected : a'.rejected = a.rejected + 1
  kept : ∀ q ∈ s.bundleFile, a'.host.storage.kept (.file q) = a.host.storage.kept (.file q)
  loaded : ∀ q ∈ s.bundleFile, ∀ b, a.host.storage.load (.file q) = .ok (some b) →
    a'.host.storage.load (.file q) = .ok (some b)
  /-- No export of the active instance is called, and the agent queues nothing. -/
  silent : ∃ es, a'.host.history = a.host.history ++ es ∧
    a'.host.outbound = a.host.outbound ++ requests es ∧
    (∀ i ∈ a.active, ∀ e ∈ es, e.owner? ≠ some i.surroundings.instanceId) ∧
    ∀ r, .queued none r ∉ es

/-- **What a rejected candidate leaves in what all instances share**: the requests that it queued
and the blob that it saved last. -/
structure Traces (s : AgentSettings) (a : Agent) (es : List Occurrence) (a' : Agent) : Prop where
  history : a'.host.history = a.host.history ++ es
  owned : OwnedBy a.count.attempts es
  outbound : a'.host.outbound = a.host.outbound ++ requests es
  kept : a'.host.storage.kept s.launcher.blobPlace =
    (lastBlob es).or (a.host.storage.kept s.launcher.blobPlace)
  /-- A load that saw what is kept still does. -/
  blob : a.host.storage.blob s.launcher.blobPlace = a.host.storage.kept s.launcher.blobPlace →
    a'.host.storage.blob s.launcher.blobPlace =
      (lastBlob es).or (a.host.storage.blob s.launcher.blobPlace)

variable {s : AgentSettings} {a a' : Agent} {content : Bytes} {keep : Bool} {e : Error}

/-- **What a swap that fails has done to the host**, and what it has done to the agent unless the host
crashed. -/
theorem swap_error (Q : Option Path) (h : swap s content keep a = (.error e, a')) :
    ∃ es, Host.Leads s.launcher.blobPlace Q a.host es a'.host ∧ OwnedBy a.count.attempts es ∧
      (a'.phase = .crashed ∨ a'.active = a.active ∧ a'.isConnected = a.isConnected ∧
        a'.ticks = a.ticks ∧ a'.phase = a.phase ∧ a'.count.created = a.count.created ∧
        a'.rejected = a.rejected + 1) := by
  obtain ⟨e', -, he⟩ | ⟨bundle, -, he | ⟨e', es, host, hrej, he⟩ | ⟨candidate, es, host, -, -, he⟩⟩ :=
    swap_cases s Q content keep a <;> rw [h] at he <;> cases he
  · exact ⟨[], .refl, .nil, .inr ⟨rfl, rfl, rfl, rfl, rfl, rfl⟩⟩
  · exact ⟨[], .refl, .nil, .inl rfl⟩
  · exact ⟨es, hrej.leads, hrej.owned, .inr ⟨rfl, rfl, rfl, rfl, rfl, rfl⟩⟩

/-- A candidate that fails is not the active instance, and it is not the agent. -/
theorem Sound.spared (hs : Sound s a)
    (hclear : ∀ p ∈ s.launcher.blobPlace.path?, ∀ q ∈ s.bundleFile, q.ClearOf p)
    (h : Agent.swap s content keep a = (.error e, a')) (hp : a'.phase ≠ .crashed) : Spared s a a' := by
  obtain ⟨es, hl, ho, hc | ⟨h1, h2, h3, h4, h5, h6⟩⟩ := swap_error s.bundleFile h
  · exact absurd hc hp
  have hlast := lastBundle_ownedBy ho
  have hkeeps : ∀ q ∈ s.bundleFile, Storage.Keeps (.file q) none a.host.storage a'.host.storage := by
    intro q hq
    have hk := hl.bundle q hq fun p hp => hclear p hp q hq
    rw [hlast] at hk
    exact hk
  refine ⟨h1, h2, h3, h4, h5, h6, fun q hq => by simpa using (hkeeps q hq).kept, fun q hq b hb => ?_,
    es, hl.history, hl.outbound, fun i hi e he => ?_, fun r hr => ?_⟩
  · exact Storage.blob_eq_some.1 ((hkeeps q hq).blob b (by simpa using Storage.blob_eq_some.2 hb))
  -- the active instance has an older number than the candidate
  · obtain ⟨k, hk, hserv⟩ := hs.serving i hi
    rw [ho e he, hserv.instanceId]
    simpa using Nat.ne_of_gt hk
  · have := ho _ hr
    cases this

/-- **Every load is counted once**, as an instance or as a rejection. -/
theorem run_counts (s : AgentSettings) (host : Host) (inputs : List Input) :
    (run s host inputs).phase ≠ .crashed →
      (run s host inputs).count.created + (run s host inputs).rejected =
        (loads s host inputs).length := by
  have hrun := run_induction s host
    (P := fun ls a => a.phase ≠ .crashed → a.count.created + a.rejected = ls.length)
    ?load ?stop ?serve (fun _ => rfl) (fun _ _ _ hp => absurd rfl hp) inputs
  case load =>
    intro ls a content keep hs hr ih hp
    have ih := ih (by simp [hr])
    rw [List.length_append, List.length_singleton, ← ih]
    obtain ⟨e, -, he⟩ | ⟨bundle, -, he | ⟨e, es, host, -, he⟩ | ⟨candidate, es, host, -, hac, he⟩⟩ :=
      swap_cases s s.bundleFile content keep a
    · rw [he]; exact (Nat.add_assoc _ _ _).symm
    · rw [he] at hp; exact absurd rfl hp
    · rw [he]; exact (Nat.add_assoc _ _ _).symm
    · obtain ⟨_, _, _, _, _, hh⟩ := hs.promote hac keep
      obtain ⟨_, hfix, -, -⟩ := hh.active
      rw [he, hfix]
      simp only [LaunchCount.add, if_true]
      omega
  case stop =>
    intro ls a hs hr ih hp
    obtain ⟨closing, -, -, he⟩ := stop_leads hs
    rw [he]
    exact ih (by simp [hr])
  case serve =>
    intro ls a es a' hs hserves ih hp
    rw [hserves.count, hserves.rejected]
    exact ih (by rw [← hserves.phase]; exact hp)
  exact hrun.2

/-- **A swap that fails spares the agent**, whatever happened to it before, and all loads so far are
accounted for. Bundles are kept at a place that saves of the blob are clear of. -/
theorem rejected_swap (s : AgentSettings) (host : Host) (inputs : List Input)
    (hclear : ∀ p ∈ s.launcher.blobPlace.path?, ∀ q ∈ s.bundleFile, q.ClearOf p) :
    (∀ content keep e a', swap s content keep (run s host inputs) = (.error e, a') →
        a'.phase ≠ .crashed → Spared s (run s host inputs) a') ∧
      ((run s host inputs).phase ≠ .crashed →
        (run s host inputs).count.created + (run s host inputs).rejected =
          (loads s host inputs).length) :=
  ⟨fun _ _ _ _ h hp => (run_sound s host inputs).spared hclear h hp, run_counts s host inputs⟩

/-- The intruder is rejected by an agent whose active instance is another one. -/
theorem rejected_swap_intruder :
    let a := run Sample.settings Sample.host [.command (.load (Sample.content 100))]
    let outcome := swap Sample.settings (Sample.content 105) true a
    outcome.1 = .error (.execution "eea_config_set_trace_level trapped") ∧ a.active.isSome = true ∧
      Spared Sample.settings a outcome.2 ∧ a.count.created + a.rejected = 1 := by
  intro a outcome
  have he : outcome.1 = .error (.execution "eea_config_set_trace_level trapped") := by decide +kernel
  have hspared := (rejected_swap Sample.settings Sample.host [.command (.load (Sample.content 100))]
    (fun p hp q hq => (Sample.places_clear p hp q hq).2)).1 (Sample.content 105) true _ outcome.2
    (Prod.ext he rfl) (by decide +kernel)
  exact ⟨he, by decide +kernel, hspared, by decide +kernel⟩

/-- **What a rejected candidate queued and saved stays**: there is no trace of it exactly if it queued
nothing and saved nothing but what was there, as long as a load sees what is there at first. -/
theorem rejected_traces (h : swap s content keep a = (.error e, a')) :
    ∃ es, Traces s a es a' ∧
      (a.host.storage.blob s.launcher.blobPlace = a.host.storage.kept s.launcher.blobPlace →
        (a'.host.storage.blob s.launcher.blobPlace = a.host.storage.blob s.launcher.blobPlace ∧
            a'.host.outbound = a.host.outbound ↔
          requests es = [] ∧
            ∀ b ∈ lastBlob es, a.host.storage.blob s.launcher.blobPlace = some b)) := by
  obtain ⟨es, hl, ho, -⟩ := swap_error none h
  -- no bundle is saved meanwhile, so there is nothing that the blob has to be clear of
  have hk := hl.blob fun _ _ _ hq => nomatch hq
  have hb : a.host.storage.blob s.launcher.blobPlace = a.host.storage.kept s.launcher.blobPlace →
      a'.host.storage.blob s.launcher.blobPlace =
        (lastBlob es).or (a.host.storage.blob s.launcher.blobPlace) := by
    intro hsees
    rw [hk.blob_eq_kept hsees, hk.kept, hsees]
  refine ⟨es, ⟨hl.history, ho, hl.outbound, hk.kept, hb⟩, fun hsees => ?_⟩
  rw [hb hsees, hl.outbound]
  constructor
  · rintro ⟨h1, h2⟩
    refine ⟨by simpa using h2, fun b hlast => ?_⟩
    rw [← h1, hlast]
    rfl
  · rintro ⟨h1, h2⟩
    refine ⟨?_, by simp [h1]⟩
    cases hlast : lastBlob es with
    | none => rfl
    | some b => exact (h2 b hlast).symm

/-- The intruder is rejected by an agent that has just begun. -/
theorem rejected_traces_intruder :
    let a := fresh Sample.host
    let P := Sample.settings.launcher.blobPlace
    let outcome := swap Sample.settings (Sample.content 105) true a
    a.host.storage.blob P = a.host.storage.kept P ∧
      outcome.1 = .error (.execution "eea_config_set_trace_level trapped") ∧
      ∃ es, Traces Sample.settings a es outcome.2 ∧
        (outcome.2.host.storage.blob P = a.host.storage.blob P ∧
            outcome.2.host.outbound = a.host.outbound ↔
          requests es = [] ∧ ∀ b ∈ lastBlob es, a.host.storage.blob P = some b) := by
  intro a P outcome
  have hsees : a.host.storage.blob P = a.host.storage.kept P := by decide
  have he : outcome.1 = .error (.execution "eea_config_set_trace_level trapped") := by decide +kernel
  obtain ⟨es, htraces, hiff⟩ := rejected_traces (s := Sample.settings) (a := a) (Prod.ext he rfl)
  exact ⟨hsees, he, es, htraces, hiff hsees⟩

/-- **A rejection with traces**: the intruder's letter is what is loaded afterwards, and its message is
in the queue. -/
theorem intruder_leaves_traces :
    let a := fresh Sample.host
    let P := Sample.settings.launcher.blobPlace
    let outcome := swap Sample.settings (Sample.content 105) true a
    outcome.1 = .error (.execution "eea_config_set_trace_level trapped") ∧
      a.host.storage.load P = .ok none ∧ outcome.2.host.storage.load P = .ok (some [120]) ∧
      a.host.outbound = [] ∧ outcome.2.host.outbound = [.publish ⟨"x", "x", .atMostOnce⟩] := by
  decide +kernel

end Agent

end FlowHost
