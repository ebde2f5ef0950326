import FlowHost.Proofs.Swap

/-!
# What a step comes to

Whatever happens to an agent, it loads a bundle, or it stops, or it serves its active instance with at
most one call (`Agent.step_cases`). `Agent.loads` lists the bundles that a run was asked to load, with
what came of each, the one that was kept from before included.

* `Agent.run_induction`: **what holds at first and is preserved by loads, stops, crashes and
  services holds of every run**, together with the loads so far.
-/

namespace FlowHost

open History

/-- The entry points that are called on an instance in service. -/
def EntryPoint.services : List String :=
  [loop.name, messageReceived.name, directTrigger.name, setConnectionStatus.name]

/-- A bundle that an agent was asked to load, and what came of it. -/
structure Load where
  content : Bytes
  result : Except Error String

namespace Agent

/-- The bundle that an input asks an agent to load. -/
def asked (s : AgentSettings) (a : Agent) : Input → Option Bytes
  | .command (.load content) => if a.phase = .running then some content else none
  | .command (.event (.message topic payload)) =>
    if a.phase = .running ∧ s.options.layout.route topic = .artifact then some payload else none
  | _ => none

/-- The bundle that was kept from before, if it can be read. -/
def keptBundle (s : AgentSettings) (host : Host) : Option Bytes :=
  s.bundleFile.bind fun path => host.storage.blob (.file path)

/-- The loads of a run that goes on from an agent. -/
def loadsFrom (s : AgentSettings) : Agent → List Input → List Load
  | _, [] => []
  | a, x :: xs =>
    ((asked s a x).map fun content => ⟨content, (swap s content true a).1⟩).toList ++
      loadsFrom s (step s a x) xs

/-- **The loads of a run**, in order. -/
def loads (s : AgentSettings) (host : Host) (inputs : List Input) : List Load :=
  ((keptBundle s host).map fun content => ⟨content, (swap s content false (fresh host)).1⟩).toList ++
    loadsFrom s (begin s (fresh host)) inputs

variable {s : AgentSettings} {a a' : Agent} {es : List Occurrence} {content : Bytes} {keep : Bool}

/-- **An agent serves its active instance**: at most one call, and the instance stays what it was. -/
structure Serves (s : AgentSettings) (a : Agent) (es : List Occurrence) (a' : Agent) : Prop where
  leads : s.Leads a.host es a'.host
  orderly : Orderly es
  calls : calls es = [] ∨
    ∃ i ∈ a.active, ∃ f ∈ EntryPoint.services, ∃ r, calls es = [⟨i.surroundings.instanceId, f, r⟩]
  active : a.active = none ∧ a'.active = none ∨
    ∃ i i', a.active = some i ∧ a'.active = some i' ∧ i.Continues i' ∧ i'.lifecycle = .running
  count : a'.count = a.count
  rejected : a'.rejected = a.rejected
  phase : a'.phase = a.phase

/-! ### Services -/

/-- To do nothing is a service. -/
theorem Serves.refl (hs : Sound s a) : Serves s a [] a := by
  refine ⟨.refl, .nil, .inl rfl, ?_, rfl, rfl, rfl⟩
  cases ha : a.active with
  | none => exact .inl ⟨rfl, rfl⟩
  | some i =>
    obtain ⟨k, -, hk⟩ := hs.serving i ha
    exact .inr ⟨i, i, rfl, rfl, .refl, hk.lifecycle⟩

/-- The agent may queue a request of its own after a service. -/
theorem Serves.queue (h : Serves s a es a') (r : Outbound) : ∃ es', Serves s a es' (a'.queue r) := by
  have ho : Orderly (if a'.host.isOpen then [.queued none r] else []) := by split <;> rfl
  have hc : History.calls (if a'.host.isOpen then [.queued none r] else []) = [] := by split <;> rfl
  refine ⟨_, h.leads.trans (queue_leads r), h.orderly.append ho, ?_, h.active, h.count, h.rejected,
    h.phase⟩
  rw [calls_append, hc, List.append_nil]
  exact h.calls

/-- **Work with the active instance is a service** where it is at most one call. -/
theorem withActive_serves {f : String} (work : Instance → Host → Instance.Outcome) (hs : Sound s a)
    (hf : f ∈ EntryPoint.services)
    (hw : ∀ i h, i.lifecycle = .running → ∃ es,
      (es = [] ∨ ∃ r, IsCall i.surroundings.instanceId f r es) ∧
        Instance.Yields s.bundleFile i h es (work i h) .running) :
    ∃ es, Serves s a es (a.withActive work) := by
  unfold withActive
  cases ha : a.active with
  | none => exact ⟨[], .refl hs⟩
  | some i =>
    obtain ⟨k, -, hk⟩ := hs.serving i ha
    obtain ⟨es, hcall, hy⟩ := hw i a.host hk.lifecycle
    have hl := hy.leads
    rw [hk.blobPlace] at hl
    refine ⟨es, hl, ?_, ?_, .inr ⟨i, _, ha, rfl, hy.continues, hy.lifecycle⟩, rfl, rfl, rfl⟩
    · rcases hcall with rfl | ⟨r, hc⟩
      · exact .nil
      · exact hc.orderly
    · rcases hcall with rfl | ⟨r, hc⟩
      · exact .inl rfl
      · exact .inr ⟨i, ha, f, hf, r, hc.calls_eq⟩

theorem onConnection_serves (hs : Sound s a) (connected : Bool) :
    ∃ es, Serves s a es (onConnection s connected a) := by
  have hs' : Sound s { a with isConnected := connected } := ⟨hs.idle, hs.serving⟩
  obtain ⟨es, h⟩ := withActive_serves (f := EntryPoint.setConnectionStatus.name)
    (fun i host => i.setConnectionStatus host connected) hs' (by decide) fun i h hi => by
      obtain ⟨r, es, hc, hy⟩ := Instance.setConnectionStatus_yields (Q := s.bundleFile) (h := h) hi connected
      exact ⟨es, .inr ⟨r, hc⟩, hy⟩
  have h : Serves s a es _ := ⟨h.1, h.2, h.3, h.4, h.5, h.6, h.7⟩
  unfold onConnection
  cases connected with
  | false => exact ⟨es, h⟩
  | true =>
    obtain ⟨es', h'⟩ := h.queue (.subscribe s.options.layout.subscriptions .atLeastOnce)
    exact h'.queue _

theorem fire_snd (identifier payload : String) (a : Agent) :
    (fire identifier payload a).2 = a.withActive fun i host => i.trigger host identifier payload := by
  unfold fire withActive
  cases a.active <;> rfl

theorem tick_serves (hs : Sound s a) (now : Int64) : ∃ es, Serves s a es (tick now a) := by
  have hs' : Sound s { a with ticks := a.ticks + 1 } := ⟨hs.idle, hs.serving⟩
  obtain ⟨es, h⟩ := withActive_serves (f := EntryPoint.loop.name) (fun i host => i.tick host now)
    hs' (by decide) fun i h hi => by
      obtain ⟨r, es, hc, hy⟩ := Instance.tick_yields (Q := s.bundleFile) (h := h) hi now
      exact ⟨es, .inr ⟨r, hc⟩, hy⟩
  unfold tick
  split
  · split
    · exact ⟨es, h.1, h.2, h.3, h.4, h.5, h.6, h.7⟩
    · exact ⟨[], .refl hs⟩
  · exact ⟨[], .refl hs⟩

/-- The clock touches no instance. -/
theorem clock_serves (hs : Sound s a) (now : UInt64) : Serves s a [] (step s a (.clock now)) := by
  have h := Serves.refl hs
  exact ⟨.of_eq rfl rfl rfl rfl, h.orderly, h.calls, h.active, rfl, rfl, rfl⟩

/-! ### Steps -/

/-- **A stop** shuts the active instance down, and the last request is the disconnect. -/
theorem stop_leads (hs : Sound s a) : ∃ closing, IsClosing a.active closing ∧
    s.Leads a.host (closing ++ if a.host.isOpen then [.queued none .disconnect] else []) a.stop.host ∧
    a.stop = { a with active := none, phase := .stopped, host := a.stop.host } := by
  have hp : ∀ i ∈ a.active, ∃ k, s.Serving k i := fun i hi => (hs.serving i hi).imp fun _ h => h.2
  obtain ⟨closing, hc, hl⟩ := retired_leads hp a.host
  refine ⟨closing, hc, ?_, by simp only [stop, retire_eq]; rfl⟩
  rw [← hl.isOpen]
  refine hl.trans ?_
  simp only [stop, retire_eq]
  exact Host.leads_queue none .disconnect

/-- **What a step comes to**: a load, a stop, or a service. -/
theorem step_cases (hs : Sound s a) (x : Input) :
    (∃ content, asked s a x = some content ∧ a.phase = .running ∧
        step s a x = (swap s content true a).2) ∨
      asked s a x = none ∧
        (a.phase = .running ∧ step s a x = a.stop ∨ ∃ es, Serves s a es (step s a x)) := by
  have idle : ∃ es, Serves s a es a := ⟨[], .refl hs⟩
  by_cases hr : a.phase = .running
  · cases x with
    | command c =>
      simp only [step, handle, if_pos hr]
      cases c with
      | load content => exact .inl ⟨content, if_pos hr, hr, rfl⟩
      | trigger identifier payload =>
        refine .inr ⟨rfl, .inr ?_⟩
        simp only [fire_snd]
        exact withActive_serves (f := EntryPoint.directTrigger.name) _ hs (by decide)
          fun i h hi => Instance.trigger_yields hi identifier payload
      | info => exact .inr ⟨rfl, .inr idle⟩
      | shutdown => exact .inr ⟨rfl, .inl ⟨hr, rfl⟩⟩
      | event e =>
        cases e with
        | connected => exact .inr ⟨rfl, .inr (onConnection_serves hs true)⟩
        | disconnected => exact .inr ⟨rfl, .inr (onConnection_serves hs false)⟩
        | message topic payload =>
          simp only [onEvent]
          cases ht : s.options.layout.route topic with
          | artifact => exact .inl ⟨payload, if_pos ⟨hr, ht⟩, hr, rfl⟩
          | guest =>
            refine .inr ⟨if_neg (by simp [ht]), .inr ?_⟩
            exact withActive_serves (f := EntryPoint.messageReceived.name) _ hs (by decide)
              fun i h hi => Instance.deliver_yields hi topic (Utf8.decodeLossy payload)
    | tick now => exact .inr ⟨rfl, .inr (tick_serves hs now)⟩
    | clock now => exact .inr ⟨rfl, .inr ⟨[], clock_serves hs now⟩⟩
    | release => exact .inr ⟨rfl, .inl ⟨hr, if_pos hr⟩⟩
  -- an agent that does not run any more does nothing
  · have hasked : asked s a x = none := by
      unfold asked
      split <;> simp [hr]
    refine .inr ⟨hasked, .inr ?_⟩
    cases x with
    | command c =>
      simp only [step, handle, if_neg hr]
      exact idle
    | tick now => exact tick_serves hs now
    | clock now => exact ⟨[], clock_serves hs now⟩
    | release =>
      simp only [step, release, if_neg hr]
      exact idle

/-! ### Agents are sound -/

theorem sound_fresh (host : Host) : Sound s (fresh host) := ⟨fun _ => rfl, fun _ h => nomatch h⟩

theorem Sound.crash (_ : Sound s a) : Sound s a.crash := ⟨fun _ => rfl, fun _ h => nomatch h⟩

theorem Sound.stop (hs : Sound s a) : Sound s a.stop := by
  obtain ⟨closing, -, -, he⟩ := stop_leads hs
  rw [he]
  exact ⟨fun _ => rfl, fun _ h => nomatch h⟩

theorem Sound.serves (hs : Sound s a) (h : Serves s a es a') : Sound s a' := by
  obtain ⟨ha, ha'⟩ | ⟨i, i', ha, ha', hc, hl⟩ := h.active
  · exact ⟨fun _ => ha', by simp [ha']⟩
  · obtain ⟨k, hk, hserv⟩ := hs.serving i ha
    refine ⟨fun hp => ?_, fun j hj => ?_⟩
    · rw [h.phase] at hp
      cases ha.symm.trans (hs.idle hp)
    · cases ha'.symm.trans hj
      exact ⟨k, by rw [h.count]; exact hk, hserv.continues hc hl⟩

/-- A load does not stop an agent. -/
theorem swap_phase (hs : Sound s a) (hr : a.phase = .running) (content : Bytes) (keep : Bool) :
    (swap s content keep a).2.phase = .running ∨ (swap s content keep a).2.phase = .crashed := by
  obtain ⟨e, -, he⟩ | ⟨bundle, -, he | ⟨e, es, host, -, he⟩ | ⟨candidate, es, host, -, hac, he⟩⟩ :=
    swap_cases s s.bundleFile content keep a
  · rw [he]; exact .inl hr
  · rw [he]; exact .inr rfl
  · rw [he]; exact .inl hr
  · obtain ⟨_, _, _, _, _, hh⟩ := hs.promote hac keep
    obtain ⟨_, hfix, -, -⟩ := hh.active
    rw [he, hfix]
    exact .inl hr

/-- What a load does to the host. -/
theorem swap_leads (hs : Sound s a) (content : Bytes) (keep : Bool) :
    ∃ es, s.Leads a.host es (swap s content keep a).2.host := by
  obtain ⟨e, -, he⟩ | ⟨bundle, -, he | ⟨e, es, host, hrej, he⟩ | ⟨candidate, es, host, -, hac, he⟩⟩ :=
    swap_cases s s.bundleFile content keep a
  · rw [he]; exact ⟨[], .refl⟩
  · rw [he]; exact ⟨[], .refl⟩
  · rw [he]; exact ⟨es, hrej.leads⟩
  · obtain ⟨_, _, _, _, _, hh⟩ := hs.promote hac keep
    rw [he]
    exact ⟨_, hac.leads.trans hh.leads⟩

/-- The attempts after one more. -/
theorem attempts_add (c : LaunchCount) (b : Bool) : (c.add b).attempts = c.attempts + 1 := by
  cases b <;> simp only [LaunchCount.add, LaunchCount.attempts] <;> simp <;> omega

/-- **The candidate that took over serves the agent.** -/
theorem Handover.serving {candidate : Instance}
    {closing opening announcing saving greeting : List Occurrence} {bundle : Bundle} {host : Host} {n : Nat}
    (hac : s.launcher.Accepts s.bundleFile n bundle host es candidate a.host)
    (h : Handover s a candidate content keep closing opening announcing saving greeting a') :
    ∃ i, a'.active = some i ∧ s.Serving n i := by
  obtain ⟨i, he, hc, hl⟩ := h.active
  refine ⟨i, by rw [he], hl, ?_, hc.memory.trans hac.memory, hc.isKnown.trans hac.isKnown⟩
  rw [hc.surroundings, hac.surroundings]

theorem Sound.swap (hs : Sound s a) (hr : a.phase = .running) (content : Bytes) (keep : Bool) :
    Sound s (swap s content keep a).2 := by
  obtain ⟨e, -, he⟩ | ⟨bundle, -, he | ⟨e, es, host, -, he⟩ | ⟨candidate, es, host, -, hac, he⟩⟩ :=
    swap_cases s s.bundleFile content keep a
  · rw [he]; exact ⟨hs.idle, hs.serving⟩
  · rw [he]; exact hs.crash
  · rw [he]
    refine ⟨hs.idle, fun i hi => ?_⟩
    obtain ⟨k, hk, hserv⟩ := hs.serving i hi
    exact ⟨k, by rw [reject, attempts_add]; omega, hserv⟩
  · rw [he]
    obtain ⟨_, _, _, _, _, hh⟩ := hs.promote hac keep
    obtain ⟨i, hi, hserv⟩ := hh.serving hac
    obtain ⟨_, hfix, -, -⟩ := hh.active
    refine ⟨fun hp => absurd hr (by rw [hfix] at hp; exact hp), fun j hj => ?_⟩
    cases hi.symm.trans hj
    exact ⟨a.count.attempts, by rw [hfix, attempts_add]; omega, hserv⟩

/-! ### Runs -/

/-- A start loads the kept bundle as a swap that keeps nothing. -/
theorem loadPersisted_fresh (s : AgentSettings) (host : Host) :
    loadPersisted s (fresh host) =
      (keptBundle s host).elim (fresh host) fun content => (swap s content false (fresh host)).2 := by
  unfold loadPersisted keptBundle Storage.blob
  cases s.bundleFile with
  | none => rfl
  | some path =>
    simp only [Option.bind_some, fresh]
    cases host.storage.load (.file path) with
    | error e => rfl
    | ok found => cases found <;> rfl

section Runs

variable {P : List Load → Agent → Prop} {ls : List Load} {host : Host}
  (load : ∀ {ls a} content keep, Sound s a → a.phase = .running → P ls a →
    P (ls ++ [⟨content, (swap s content keep a).1⟩]) (swap s content keep a).2)
  (stop : ∀ {ls a}, Sound s a → a.phase = .running → P ls a → P ls a.stop)
  (serve : ∀ {ls a es a'}, Sound s a → Serves s a es a' → P ls a → P ls a')

include load stop serve

theorem runFrom_induction (xs : List Input) (hs : Sound s a) (h : P ls a) :
    Sound s (xs.foldl (step s) a) ∧ P (ls ++ loadsFrom s a xs) (xs.foldl (step s) a) := by
  -- on the inputs to come, for any agent and any loads so far
  induction xs generalizing ls a with
  | nil => exact ⟨hs, by simpa [loadsFrom] using h⟩
  | cons x xs ih =>
    rw [loadsFrom, List.foldl_cons, ← List.append_assoc]
    obtain ⟨content, hx, hr, he⟩ | ⟨hx, ⟨hr, he⟩ | ⟨es, hserves⟩⟩ := step_cases hs x
    · rw [he, hx]
      exact ih (hs.swap hr content true) (load content true hs hr h)
    · rw [he, hx, Option.map_none, Option.toList_none, List.append_nil]
      exact ih hs.stop (stop hs hr h)
    · rw [hx, Option.map_none, Option.toList_none, List.append_nil]
      exact ih (hs.serves hserves) (serve hs hserves h)

variable (s host) in
/-- **What holds at first and is preserved by all that can happen holds of every run.** -/
theorem run_induction (fresh : P [] (fresh host))
    (crash : ∀ {ls a}, Sound s a → a.phase ≠ .stopped → P ls a → P ls a.crash) (inputs : List Input) :
    Sound s (run s host inputs) ∧ P (loads s host inputs) (run s host inputs) := by
  suffices hb : Sound s (begin s (Agent.fresh host)) ∧
      P ((keptBundle s host).map fun content =>
        ⟨content, (swap s content false (Agent.fresh host)).1⟩).toList (begin s (Agent.fresh host)) by
    unfold loads run
    exact runFrom_induction (P := P) load stop serve inputs hb.1 hb.2
  have hs := sound_fresh (s := s) host
  unfold begin
  rw [loadPersisted_fresh]
  cases keptBundle s host with
  | none =>
    simp only [Option.elim_none, Option.map_none, Option.toList_none]
    split
    -- a clock that cannot tick is a crash, with or without a bundle
    · exact ⟨hs.crash, crash hs (by simp [Agent.fresh]) fresh⟩
    · exact ⟨hs, fresh⟩
  | some content =>
    simp only [Option.elim_some, Option.map_some, Option.toList_some]
    have hs' := hs.swap rfl content false
    have hP := load content false hs rfl fresh
    split
    · refine ⟨hs'.crash, crash hs' ?_ hP⟩
      rcases swap_phase hs rfl content false with hp | hp <;> simp [hp]
    · exact ⟨hs', hP⟩

end Runs

/-- Every run leaves an agent sound. -/
theorem run_sound (s : AgentSettings) (host : Host) (inputs : List Input) :
    Sound s (run s host inputs) :=
  (run_induction s host (P := fun _ _ => True) (fun _ _ _ _ _ => trivial) (fun _ _ _ => trivial)
    (fun _ _ _ => trivial) trivial (fun _ _ _ => trivial) inputs).1

/-- **What became of the host over a run.** -/
theorem run_leads (s : AgentSettings) (host : Host) (inputs : List Input) :
    ∃ es, s.Leads host es (run s host inputs).host := by
  have hrun := run_induction s host (P := fun _ a => ∃ es, s.Leads host es a.host)
    ?load ?stop ?serve ⟨[], .refl⟩ (fun _ _ h => h) inputs
  case load =>
    rintro - a content keep hs - ⟨es, h⟩
    obtain ⟨es', h'⟩ := swap_leads hs content keep
    exact ⟨_, h.trans h'⟩
  case stop =>
    rintro - a hs - ⟨es, h⟩
    obtain ⟨closing, -, h', -⟩ := stop_leads hs
    exact ⟨_, h.trans h'⟩
  case serve =>
    rintro - a es' a' - h' ⟨es, h⟩
    exact ⟨_, h.trans h'.leads⟩
  exact hrun.2

end Agent

end FlowHost
