import FlowHost.Proofs.Launch

/-!
# What a swap comes to

A swap ends in one of four ways (`Agent.swap_cases`): the octets are no bundle, the host crashes,
the candidate fails, or the candidate takes over. `Agent.Handover` says **in which order a candidate
takes over**: the previous instance is shut down, the candidate is started, it is told of the
connection, the bundle is saved, and the agent announces itself.
-/

namespace FlowHost

open History

namespace AgentSettings

/-- From a host to a later one, for the places that an agent uses. -/
abbrev Leads (s : AgentSettings) (h : Host) (es : List Occurrence) (h' : Host) : Prop :=
  Host.Leads s.launcher.blobPlace s.bundleFile h es h'

/-- **An instance that serves an agent** as the launcher's `k`-th: it runs, and the host knows its
memory. -/
structure Serving (s : AgentSettings) (k : Nat) (i : Instance) : Prop where
  lifecycle : i.lifecycle = .running
  surroundings : i.surroundings = s.launcher.surroundings k
  memory : i.guest.memory.isSome = true
  isKnown : i.guest.isKnown = true

/-- What an agent announces itself with. -/
def hello (s : AgentSettings) (bundle : String) : Outbound :=
  .publish ((Hello.make s.options.version bundle s.options.compilerOptions).toMessage s.options.layout)

/-- What the save of a bundle leaves in the history: nothing if no bundles are kept or the save
fails. -/
def savings (s : AgentSettings) (content : Bytes) (h : Host) : List Occurrence :=
  match s.bundleFile with
  | none => []
  | some q => if (h.storage.save (.file q) content).1.toBool then [.persisted content] else []

variable {s : AgentSettings} {k : Nat} {i i' : Instance}

theorem Serving.instanceId (h : s.Serving k i) : i.surroundings.instanceId = k := by
  rw [h.surroundings]; rfl

theorem Serving.blobPlace (h : s.Serving k i) : i.surroundings.blobPlace = s.launcher.blobPlace := by
  rw [h.surroundings]; rfl

/-- An instance that goes on and still runs serves as before. -/
theorem Serving.continues (h : s.Serving k i) (hc : i.Continues i') (hl : i'.lifecycle = .running) :
    s.Serving k i' :=
  ⟨hl, hc.surroundings.trans h.surroundings, hc.memory.trans h.memory, hc.isKnown.trans h.isKnown⟩

end AgentSettings

namespace Agent

variable {s : AgentSettings} {a a' : Agent} {content : Bytes} {h : Host}

/-- **What holds of an agent at all times**: one that does not run owns no instance, and the
instance that it owns serves it and was made by it. -/
structure Sound (s : AgentSettings) (a : Agent) : Prop where
  idle : a.phase ≠ .running → a.active = none
  serving : ∀ i ∈ a.active, ∃ k < a.count.attempts, s.Serving k i

/-- The host after the shutdown of an instance, if there is one. -/
def retired (previous : Option Instance) (h : Host) : Host :=
  match previous with
  | none => h
  | some i => (i.shutdown h).host

/-- The shutdown of an instance, if there is one, as the history has it. -/
def IsClosing (previous : Option Instance) (es : List Occurrence) : Prop :=
  match previous with
  | none => es = []
  | some i => ∃ r, IsCall i.surroundings.instanceId EntryPoint.shutdown.name r es

theorem retire_eq (previous : Option Instance) (a : Agent) :
    retire previous a = { a with host := retired previous a.host } := by
  cases previous <;> rfl

theorem retired_leads {previous : Option Instance} (hp : ∀ i ∈ previous, ∃ k, s.Serving k i) (h : Host) :
    ∃ es, IsClosing previous es ∧ s.Leads h es (retired previous h) := by
  cases previous with
  | none => exact ⟨[], rfl, .refl⟩
  | some i =>
    obtain ⟨k, hs⟩ := hp i rfl
    obtain ⟨r, es, hc, hy⟩ := Instance.shutdown_yields (Q := s.bundleFile) (h := h) hs.lifecycle
    refine ⟨es, ⟨r, hc⟩, ?_⟩
    rw [AgentSettings.Leads, ← hs.blobPlace]
    exact hy.leads

theorem IsClosing.orderly {previous : Option Instance} {es : List Occurrence}
    (hc : IsClosing previous es) : Orderly es := by
  cases previous with
  | none => rw [show es = [] from hc]; exact .nil
  | some i => obtain ⟨r, hr⟩ := hc; exact hr.orderly

theorem queue_leads (r : Outbound) :
    s.Leads a.host (if a.host.isOpen then [.queued none r] else []) (a.queue r).host :=
  Host.leads_queue none r

/-- **A save of a bundle** changes nothing but the host. -/
theorem persist_eq (s : AgentSettings) (content : Bytes) (a : Agent) :
    persist s content a = { a with host := (persist s content a).host } := by
  unfold persist
  cases s.bundleFile with
  | none => rfl
  | some q =>
    simp only
    cases a.host.storage.save (.file q) content with
    | mk r st => cases r <;> rfl

theorem persist_leads (s : AgentSettings) (content : Bytes) (a : Agent) :
    s.Leads a.host (s.savings content a.host) (persist s content a).host := by
  unfold persist AgentSettings.savings
  cases hq : s.bundleFile with
  | none => exact .refl
  | some q =>
    -- a save of the bundle leaves a blob that is clear of it
    have hclear : ∀ {r : Except Error Unit} {st : Storage},
        a.host.storage.save (.file q) content = (r, st) →
        (∀ p ∈ s.launcher.blobPlace.path?, ∀ q' ∈ s.bundleFile, p.ClearOf q') →
        Storage.Keeps s.launcher.blobPlace none a.host.storage st := by
      intro r st hs hc
      exact .of_grows (Storage.save_grows hs) (Storage.save_clear hs fun p hp => hc p hp q hq)
    simp only
    cases hs : a.host.storage.save (.file q) content with
    | mk r st =>
      cases r with
      | ok u =>
        refine ⟨rfl, (List.append_nil _).symm, rfl, hclear hs, fun q' hq' _ => ?_⟩
        cases hq.symm.trans hq'
        exact .save_ok hs
      | error e =>
        refine ⟨(List.append_nil _).symm, (List.append_nil _).symm, rfl, hclear hs, fun q' hq' _ => ?_⟩
        cases hq.symm.trans hq'
        exact .save_error hs

/-- **How a candidate takes over** from what was active, in the order in which it happens. -/
structure Handover (s : AgentSettings) (a : Agent) (candidate : Instance) (content : Bytes)
    (keep : Bool) (closing opening announcing saving greeting : List Occurrence) (a' : Agent) :
    Prop where
  leads : s.Leads a.host (closing ++ opening ++ announcing ++ saving ++ greeting) a'.host
  retires : s.Leads a.host closing (retired a.active a.host)
  starts : s.Leads (retired a.active a.host) opening (candidate.start (retired a.active a.host)).host
  closes : IsClosing a.active closing
  opens : ∃ r, IsCall candidate.surroundings.instanceId EntryPoint.init.name r opening
  announces :
    ∃ r, IsCall candidate.surroundings.instanceId EntryPoint.setConnectionStatus.name r announcing
  /-- The bundle is saved if it is to be kept and the file can be written by then. -/
  saves : ∃ h, s.Leads a.host (closing ++ opening ++ announcing) h ∧
    saving = if keep then s.savings content h else []
  greets : greeting = if a.host.isOpen then [.queued none (s.hello candidate.bundle)] else []
  active : ∃ i, a' = { a with active := some i, host := a'.host } ∧ candidate.Continues i ∧
    i.lifecycle = .running

/-- **A candidate that was launched takes over.** -/
theorem promote_handover {candidate : Instance} (keep : Bool)
    (hc : candidate.lifecycle = .instantiated)
    (hp : candidate.surroundings.blobPlace = s.launcher.blobPlace)
    (ha : ∀ i ∈ a.active, ∃ k, s.Serving k i) :
    ∃ closing opening announcing saving greeting, Handover s a candidate content keep
      closing opening announcing saving greeting (promote s candidate content keep a) := by
  -- each piece leads on from the host on which the one before it ended
  obtain ⟨closing, hcl, hl1⟩ := retired_leads ha a.host
  obtain ⟨r2, opening, hop, hy2⟩ := Instance.start_yields (Q := s.bundleFile)
    (h := retired a.active a.host) hc
  set o2 := candidate.start (retired a.active a.host)
  obtain ⟨r3, announcing, han, hy3⟩ := Instance.setConnectionStatus_yields (Q := s.bundleFile)
    (h := o2.host) hy2.lifecycle a.isConnected
  set o3 := o2.after.setConnectionStatus o2.host a.isConnected
  rw [hy2.continues.surroundings] at han
  have hl2 := hy2.leads
  have hl3 := hy3.leads
  rw [hy2.continues.surroundings] at hl3
  rw [hp] at hl2 hl3
  have hl3 : s.Leads a.host (closing ++ opening ++ announcing) o3.host := (hl1.trans hl2).trans hl3
  set a3 : Agent := { a with active := some o3.after, host := o3.host }
  set a4 : Agent := if keep then persist s content a3 else a3 with ha4
  have he : promote s candidate content keep a = sendHello s a4 := by
    simp only [promote, retire_eq, withActive]
    rfl
  -- whether the bundle is saved or not, only the host is another
  have h4 : a4 = { a3 with host := a4.host } := by
    rw [ha4]
    cases keep with
    | false => rfl
    | true => exact persist_eq s content a3
  have hl4 : s.Leads a3.host (if keep then s.savings content a3.host else []) a4.host := by
    rw [ha4]
    cases keep with
    | false => exact .refl
    | true => exact persist_leads s content a3
  have hbundle : a4.bundle = candidate.bundle := by
    rw [h4]
    exact hy3.continues.bundle.trans hy2.continues.bundle
  have hopen : a4.host.isOpen = a.host.isOpen := (hl3.trans hl4).isOpen
  refine ⟨closing, opening, announcing, _, _, ?_, hl1, hl2, hcl, ⟨r2, hop⟩, ⟨r3, han⟩,
    ⟨o3.host, hl3, rfl⟩, rfl, o3.after, ?_, hy2.continues.trans hy3.continues, hy3.lifecycle⟩
  · rw [he]
    refine (hl3.trans hl4).trans ?_
    rw [← hopen, ← hbundle]
    exact queue_leads _
  · obtain ⟨h5, h4⟩ : ∃ h5, a4 = { a3 with host := h5 } := ⟨_, h4⟩
    rw [he, h4]
    rfl

/-- An accepted candidate takes over from whatever a sound agent had before. -/
theorem Sound.promote {candidate : Instance} {bundle : Bundle} {es : List Occurrence} {host : Host}
    {n : Nat} (hs : Sound s a)
    (hac : s.launcher.Accepts s.bundleFile n bundle a.host es candidate host) (keep : Bool) :
    ∃ closing opening announcing saving greeting,
      Handover s { a with host := host, count := a.count.add true } candidate bundle.raw keep
        closing opening announcing saving greeting
        (promote s candidate bundle.raw keep { a with host := host, count := a.count.add true }) :=
  promote_handover keep hac.lifecycle (by rw [hac.surroundings]; rfl) fun i hi =>
    (hs.serving i hi).imp fun _ h => h.2

/-- **What a swap comes to**, for bundles at any place `Q`. -/
theorem swap_cases (s : AgentSettings) (Q : Option Path) (content : Bytes) (keep : Bool) (a : Agent) :
    (∃ e, Bundle.parse content = .error e ∧ swap s content keep a = (.error e, a.reject)) ∨
      ∃ bundle, Bundle.parse content = .ok bundle ∧
        (swap s content keep a = (.error .agentStopped, a.crash) ∨
          (∃ e es host,
            s.launcher.Rejects Q a.count.attempts bundle a.host es host ∧
            swap s content keep a =
              (.error e, { a with host := host, count := a.count.add false }.reject)) ∨
          ∃ candidate es host,
            s.launcher.launch a.count.attempts bundle a.isConnected a.host = (.ok candidate, host) ∧
            s.launcher.Accepts Q a.count.attempts bundle a.host es candidate host ∧
            swap s content keep a = (.ok bundle.identifier,
              promote s candidate bundle.raw keep
                { a with host := host, count := a.count.add true })) := by
  unfold swap
  cases hb : Bundle.parse content with
  | error e => exact .inl ⟨e, rfl, rfl⟩
  | ok bundle =>
    refine .inr ⟨bundle, rfl, ?_⟩
    obtain hl | ⟨e, es, host, hl, hr⟩ | ⟨candidate, es, host, hl, hac⟩ :=
      Launcher.launch_cases s.launcher Q a.count.attempts bundle a.isConnected a.host
    · exact .inl (by simp only [hl])
    · exact .inr (.inl ⟨e, es, host, hr, by simp only [hl]⟩)
    · exact .inr (.inr ⟨candidate, es, host, hl, hac, by simp only [hl]⟩)

end Agent

end FlowHost
