import FlowHost.Proofs.Reading
import FlowHost.Proofs.Rejection

/-!
# How a blob is handed over

When a candidate takes over, the instance before it is shut down first, so that what it saved last
is there when the candidate is initialised. `Agent.Handoff` says so for a swap that replaces an active
instance: **the order of what happens**, and what the candidate's initialisation finds.

* `Agent.Observes`: what a read of the blob gives at a point of a run.
* `Agent.swap_hands_over`: every such swap is a handoff, whatever the shutdown comes to.
-/

namespace FlowHost

open History

namespace Instance

/-- The point at which the run of an entry point begins: what is to be done, on the machine as it is
when the call is entered. -/
def entered (i : Instance) (host : Host) (e : EntryPoint) (arguments : List Value) :
    Behaviour × Machine :=
  (i.exports.entry e arguments, MachineM.recordEntry i.surroundings e.name arguments ⟨i.guest, host⟩)

variable {i : Instance}

/-- **A call ends where the run from its first point does.** -/
theorem call_host (host : Host) (e : EntryPoint) (arguments : List Value) : ∃ r m,
    (i.entered host e arguments).1.run i.surroundings (i.entered host e arguments).2 = (r, m) ∧
      (i.call host e arguments).host = (MachineM.recordExit i.surroundings e.name r m).host := by
  cases h : (i.entered host e arguments).1.run i.surroundings (i.entered host e arguments).2 with
  | mk r m =>
    refine ⟨r, m, rfl, ?_⟩
    unfold entered at h
    unfold call onMachine MachineM.enter
    rw [h]
    cases r with
    | none => rfl
    | some code =>
      simp only
      cases checkCode e.name code.toInt32 <;> rfl

/-- So does a start. -/
theorem start_host (host : Host) (hi : i.lifecycle = .instantiated) : ∃ r m,
    (i.entered host .init []).1.run i.surroundings (i.entered host .init []).2 = (r, m) ∧
      (i.start host).host = (MachineM.recordExit i.surroundings EntryPoint.init.name r m).host := by
  unfold start
  rw [if_pos hi]
  exact call_host (i := { i with lifecycle := .running }) host .init []

end Instance

namespace Agent

/-- **What a read of the blob gives on a machine**, if `last` was saved last since there was `st`: a load
returns it, and what fits of it is put where the guest wants it. -/
structure Observes (σ : Surroundings) (last : Option Bytes) (st : Storage) (m : Machine) : Prop where
  loads : ∀ blob, last = some blob → m.host.storage.load σ.blobPlace = .ok (some blob)
  /-- If nothing was saved, a load returns what it returned before. -/
  keeps : Storage.Keeps σ.blobPlace last st m.host.storage
  reads : ∀ blob, m.host.storage.load σ.blobPlace = .ok (some blob) →
    ∃ memory, m.guest.memory = some memory ∧ ∀ out cap slot : UInt32,
      let n := min blob.length (capacity cap.toInt32)
      out.toNat + n ≤ memory.size → slot.toNat + 4 ≤ memory.size →
      (out.toNat + n ≤ slot.toNat ∨ slot.toNat + 4 ≤ out.toNat) →
      ∃ memory', m.call σ "eea_storage_read" [.i32 out, .i32 cap, .i32 slot] =
          (some [.i32 0], { m with guest := { m.guest with memory := some memory' } }) ∧
        Memory.Received blob out.toNat n slot.toNat memory memory'

/-- **A swap that replaces an instance**: the pieces of its history in their order, and what the
candidate's initialisation finds before it saves anything itself. The run began on `host`, and
`before` is what happened since. -/
structure Handoff (s : AgentSettings) (host : Host) (a : Agent) (previous : Instance) (content : Bytes)
    (keep : Bool) (bundle : Bundle) (candidate : Instance) (launched : Host)
    (before setup closing opening announcing saving greeting : List Occurrence) (a' : Agent) : Prop where
  parse : Bundle.parse content = .ok bundle
  launch : s.launcher.launch a.count.attempts bundle a.isConnected a.host = (.ok candidate, launched)
  begins : a.host.history = host.history ++ before
  order : a'.host.history =
    a.host.history ++ (setup ++ closing ++ opening ++ announcing ++ saving ++ greeting)
  /-- Each setter and the announcement of the connection were called on the candidate and returned. -/
  configures : OwnedBy a.count.attempts setup ∧ launched.history = a.host.history ++ setup ∧
    ∃ M, s.launcher.compile bundle.binary = some M ∧
      Returned M.configuration (callsOf a.count.attempts setup)
  closes : (previous.shutdown launched).host.history = launched.history ++ closing ∧
    ∃ r, IsCall previous.surroundings.instanceId EntryPoint.shutdown.name r closing
  opens : (∃ r m, (candidate.entered (previous.shutdown launched).host .init []).1.run
        candidate.surroundings (candidate.entered (previous.shutdown launched).host .init []).2 = (r, m) ∧
      (MachineM.recordExit candidate.surroundings EntryPoint.init.name r m).host.history =
        (previous.shutdown launched).host.history ++ opening) ∧
    ∃ r, IsCall a.count.attempts EntryPoint.init.name r opening
  announces : ∃ r, IsCall a.count.attempts EntryPoint.setConnectionStatus.name r announcing
  /-- The bundle is saved if it is to be kept and the file can be written by then. -/
  saves : ∃ h, s.Leads launched (closing ++ opening ++ announcing) h ∧
    saving = if keep then s.savings bundle.raw h else []
  greets : greeting = if a.host.isOpen then [.queued none (s.hello bundle.identifier)] else []
  observes : ∀ point, Behaviour.Reaches candidate.surroundings
      (candidate.entered (previous.shutdown launched).host .init []) point →
    ∀ es, point.2.host.history =
        (candidate.entered (previous.shutdown launched).host .init []).2.host.history ++ es →
      lastBlob es = none →
      Observes candidate.surroundings (lastBlob (before ++ setup ++ closing)) host.storage point.2

variable {s : AgentSettings} {σ : Surroundings}

/-- A machine whose host was led there observes what was saved last on the way. -/
theorem observes_of_leads {Q : Option Path} {host : Host} {es : List Occurrence} {m : Machine}
    (hclear : ∀ p ∈ σ.blobPlace.path?, ∀ q ∈ Q, p.ClearOf q)
    (hl : Host.Leads σ.blobPlace Q host es m.host) (hm : m.guest.memory.isSome = true)
    (hk : m.guest.isKnown = true) : Observes σ (lastBlob es) host.storage m := by
  have hkeeps := hl.blob hclear
  obtain ⟨memory, hmem⟩ := Option.isSome_iff_exists.1 hm
  refine ⟨fun blob hb => ?_, hkeeps, fun blob hb => ⟨memory, hmem, fun out cap slot => ?_⟩⟩
  · exact Storage.blob_eq_some.1 (hkeeps.blob blob (by rw [hb]; rfl))
  · intro n hout hslot hd
    exact Machine.call_storageRead hmem hk hb hout hslot hd

/-- **At any point of a call before it saves anything**, what was saved last is what was saved before
the call. -/
theorem observes_of_reaches {Q : Option Path} {i : Instance} {host h : Host} {e : EntryPoint}
    {arguments : List Value} {point : Behaviour × Machine} {before es : List Occurrence}
    (hclear : ∀ p ∈ i.surroundings.blobPlace.path?, ∀ q ∈ Q, p.ClearOf q)
    (hm : i.guest.memory.isSome = true) (hk : i.guest.isKnown = true)
    (hl : Host.Leads i.surroundings.blobPlace Q host before h)
    (hreach : Behaviour.Reaches i.surroundings (i.entered h e arguments) point)
    (hes : point.2.host.history = (i.entered h e arguments).2.host.history ++ es)
    (hnone : lastBlob es = none) : Observes i.surroundings (lastBlob before) host.storage point.2 := by
  obtain ⟨es', hw⟩ := hreach.works (Q := Q)
  -- what happened up to the point is what the history says
  obtain rfl : es' = es := by
    have := hw.leads.history
    rw [hes] at this
    exact (List.append_cancel_left this).symm
  have hentered : Host.Leads i.surroundings.blobPlace Q h
      [.entered i.surroundings.instanceId e.name arguments (i.guest.memory.getD (Memory.filled 0 0))]
      (i.entered h e arguments).2.host := Host.leads_entered e.name arguments _
  have hlead := (hl.trans hentered).trans hw.leads
  -- neither the entry of the call nor what follows it saves anything
  have hlast : lastBlob before = lastBlob (before ++ [.entered i.surroundings.instanceId e.name arguments
      (i.guest.memory.getD (Memory.filled 0 0))] ++ es') := by
    conv_rhs => rw [lastBlob_append, hnone, Option.none_or, lastBlob_append]
    rfl
  rw [hlast]
  exact observes_of_leads hclear hlead (hw.memory.trans hm) (hw.isKnown.trans hk)

/-- **Storage is handed over**: in every swap that replaces an active instance, the candidate's
initialisation finds the blob that was saved last up to the end of the other's shutdown, whatever that
shutdown returned or trapped at. Saves of bundles are clear of the blob's place. -/
theorem swap_hands_over (s : AgentSettings) (host : Host) (inputs : List Input) (content : Bytes)
    (keep : Bool) (identifier : String) (previous : Instance) (a' : Agent)
    (hclear : ∀ p ∈ s.launcher.blobPlace.path?, ∀ q ∈ s.bundleFile, p.ClearOf q)
    (hactive : (run s host inputs).active = some previous)
    (h : swap s content keep (run s host inputs) = (.ok identifier, a')) :
    ∃ bundle candidate launched before setup closing opening announcing saving greeting,
      identifier = bundle.identifier ∧
        Handoff s host (run s host inputs) previous content keep bundle candidate launched
          before setup closing opening announcing saving greeting a' := by
  have hs := run_sound s host inputs
  obtain ⟨before, hbefore⟩ := run_leads s host inputs
  set a := run s host inputs
  obtain ⟨e, -, he⟩ | ⟨bundle, hb, he | ⟨e, es, h', -, he⟩ | ⟨candidate, setup, launched, hl, hac, he⟩⟩ :=
    swap_cases s s.bundleFile content keep a <;> rw [h] at he
  · cases he
  · cases he
  · cases he
  -- a swap that ends well is one in which the candidate took over
  obtain ⟨closing, opening, announcing, saving, greeting, hh⟩ := hs.promote hac keep
  obtain ⟨rfl, rfl⟩ := Prod.mk.inj he |>.imp Except.ok.inj id
  have hid : candidate.surroundings.instanceId = a.count.attempts := by rw [hac.surroundings]; rfl
  have hplace : candidate.surroundings.blobPlace = s.launcher.blobPlace := by rw [hac.surroundings]; rfl
  have hretired : retired a.active launched = (previous.shutdown launched).host := by rw [hactive]; rfl
  have hcloses := hh.closes
  have hretires := hh.retires
  have hstarts := hh.starts
  simp only [hretired] at hretires hstarts
  simp only [hactive] at hcloses
  refine ⟨bundle, candidate, launched, before, setup, closing, opening, announcing, saving, greeting, rfl,
    hb, hl, hbefore.history, ?_, ⟨hac.owned, hac.leads.history, hac.calls⟩,
    ⟨hretires.history, hcloses⟩, ⟨?_, hid ▸ hh.opens⟩, hid ▸ hh.announces, hh.saves, ?_, ?_⟩
  · have hlead := (hac.leads.trans hh.leads).history
    simpa using hlead
  · obtain ⟨r, m, hrun, hhost⟩ := Instance.start_host (previous.shutdown launched).host
      hac.lifecycle
    refine ⟨r, m, hrun, ?_⟩
    rw [← hhost]
    exact hstarts.history
  · have hgreets := hh.greets
    rw [hac.identifier] at hgreets
    rw [hgreets]
    simp only [hac.leads.isOpen]
  · intro point hreach es hes hnone
    exact observes_of_reaches (hplace ▸ hclear) hac.memory hac.isKnown
      (hplace ▸ (hbefore.trans hac.leads).trans hretires) hreach hes hnone

/-- A diligent guest takes over from another one. -/
theorem swap_hands_over_diligent :
    let a := run Sample.settings Sample.host [.command (.load (Sample.content 100))]
    let outcome := swap Sample.settings (Sample.content 100) true a
    outcome.1 = .ok "d" ∧ ∃ previous, a.active = some previous ∧
      ∃ bundle candidate launched before setup closing opening announcing saving greeting,
        "d" = bundle.identifier ∧
          Handoff Sample.settings Sample.host a previous (Sample.content 100) true bundle candidate launched
            before setup closing opening announcing saving greeting outcome.2 := by
  intro a outcome
  have hok : outcome.1 = .ok "d" := by decide +kernel
  have hsome : a.active.isSome = true := by decide +kernel
  obtain ⟨previous, hactive⟩ := Option.isSome_iff_exists.1 hsome
  exact ⟨hok, previous, hactive, swap_hands_over Sample.settings Sample.host _ (Sample.content 100) true "d"
    previous outcome.2 (fun p hp q hq => (Sample.places_clear p hp q hq).1) hactive (Prod.ext hok rfl)⟩

-- what the first guest saved when it was shut down, before it trapped, is what the second one has read
example :
    let a := run Sample.settings Sample.host [.command (.load (Sample.content 100))]
    ((swap Sample.settings (Sample.content 100) true a).2.active.bind (·.guest.memory)).map
      (fun m => (m.bytesAt 8 1, m.bytesAt 16 4)) = some ([120], [1, 0, 0, 0]) := by decide +kernel

end Agent

end FlowHost
