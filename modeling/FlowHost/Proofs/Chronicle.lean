import FlowHost.Proofs.Activity
import FlowHost.Proofs.Steps

/-!
# What an agent does in a run

`Agent.activities` lists what an agent does in a run, its guests' part included: each input adds what it
makes the agent do, on the agent as it is then. The list says which messages guests ask to send and
which requests the agent makes, not what becomes of them.

* `Agent.takeover`, `loading`, `stopping`: what a candidate that takes over does, and what a load
  and a stop do.
* `Agent.step_handles`: **what an input can come to**, case by case, with what the agent does then.
* `Agent.run_does`: **the queue takes what is asked for in a run and nothing else, in its order**, and the
  history tells of each activity in its turn.
-/

namespace FlowHost

open History

namespace Agent

variable {s : AgentSettings} {a : Agent} {content : Bytes} {host : Host}

/-- What each input adds, on the agent as it is then, along a run. -/
def along {α : Type} (s : AgentSettings) (tell : Agent → Input → List α) : Agent → List Input → List α
  | _, [] => []
  | a, x :: xs => tell a x ++ along s tell (step s a x) xs

/-- The shutdown of an instance, if there is one. -/
def closing (previous : Option Instance) (host : Host) : List Activity :=
  match previous with
  | none => []
  | some i => [i.activity host .shutdown []]

/-- **What a candidate that takes over does**: after the shutdown of the instance before it, it is
started and told of the connection. Then the bundle is saved and the agent announces itself. -/
def takeover (s : AgentSettings) (candidate : Instance) (content : Bytes) (keep : Bool) (a : Agent) :
    List Activity :=
  let retired := retired a.active a.host
  let started := candidate.start retired
  closing a.active a.host ++
    [candidate.activity retired .init [],
      started.after.activity started.host .setConnectionStatus (Instance.statusArgument a.isConnected)] ++
    (if keep then [.save content] else []) ++ [.request (s.hello candidate.bundle)]

/-- **What a load does**: the candidate is launched, and takes over if that succeeds. -/
def loading (s : AgentSettings) (content : Bytes) (keep : Bool) (a : Agent) : List Activity :=
  match Bundle.parse content with
  | .error _ => []
  | .ok bundle =>
    s.launcher.activities a.count.attempts bundle a.isConnected a.host ++
      match s.launcher.launch a.count.attempts bundle a.isConnected a.host with
      | (.ok candidate, host) =>
        takeover s candidate bundle.raw keep { a with host := host, count := a.count.add true }
      | (.error _, _) => []

/-- What a stop does: the disconnect is last. -/
def stopping (a : Agent) : List Activity := closing a.active a.host ++ [.request .disconnect]

/-- What is done with the active instance, if there is one. -/
def serving (a : Agent) (work : Instance → Host → List Activity) : List Activity :=
  match a.active with
  | none => []
  | some i => work i a.host

/-- The active instance is told of the connection. -/
def telling (a : Agent) (connected : Bool) : List Activity :=
  serving a fun i host =>
    [i.activity host .setConnectionStatus (Instance.statusArgument connected)]

/-- What an event makes an agent do. -/
def onEventActivities (s : AgentSettings) (a : Agent) : Event → List Activity
  | .connected => telling a true ++
      [.request (.subscribe s.options.layout.subscriptions .atLeastOnce), .request (s.hello a.bundle)]
  | .disconnected => telling a false
  | .message topic payload =>
    match s.options.layout.route topic with
    | .artifact => loading s payload true a
    | .guest => serving a fun i host => i.passing host .messageReceived topic (Utf8.decodeLossy payload)

/-- What a command makes an agent do that runs. -/
def commandActivities (s : AgentSettings) (a : Agent) : Command → List Activity
  | .event e => onEventActivities s a e
  | .load content => loading s content true a
  | .trigger identifier payload =>
    serving a fun i host => i.passing host .directTrigger identifier payload
  | .info => []
  | .shutdown => stopping a

/-- **What an input makes an agent do.** -/
def stepActivities (s : AgentSettings) (a : Agent) (x : Input) : List Activity :=
  if a.phase = .running then
    match x with
    | .command c => commandActivities s a c
    | .tick now => serving a fun i host => [i.activity host .loop [.i64 now.toUInt64]]
    | .clock _ => []
    | .release => stopping a
  else []

/-- **How an agent handles an input**: what becomes of the agent, and what it does. -/
inductive Handles (s : AgentSettings) (a : Agent) : Input → Agent → List Activity → Prop
  | load {content : Bytes} (hr : a.phase = .running) :
      Handles s a (.command (.load content)) (swap s content true a).2 (loading s content true a)
  /-- A bundle comes as a message. -/
  | flow {topic : String} {payload : Bytes} (hr : a.phase = .running)
      (ht : s.options.layout.route topic = .artifact) :
      Handles s a (.command (.event (.message topic payload))) (swap s payload true a).2
        (loading s payload true a)
  | stop {x : Input} (hr : a.phase = .running) (hx : x = .command .shutdown ∨ x = .release) :
      Handles s a x a.stop (stopping a)
  | connect (hr : a.phase = .running) :
      Handles s a (.command (.event .connected)) (onConnection s true a)
        (telling a true ++
          [.request (.subscribe s.options.layout.subscriptions .atLeastOnce), .request (s.hello a.bundle)])
  | disconnect (hr : a.phase = .running) :
      Handles s a (.command (.event .disconnected)) (onConnection s false a) (telling a false)
  | deliver {topic : String} {payload : Bytes} (hr : a.phase = .running)
      (ht : s.options.layout.route topic = .guest) :
      Handles s a (.command (.event (.message topic payload)))
        (a.withActive fun i host => i.deliver host topic (Utf8.decodeLossy payload))
        (serving a fun i host => i.passing host .messageReceived topic (Utf8.decodeLossy payload))
  | trigger {identifier payload : String} (hr : a.phase = .running) :
      Handles s a (.command (.trigger identifier payload))
        (a.withActive fun i host => i.trigger host identifier payload)
        (serving a fun i host => i.passing host .directTrigger identifier payload)
  | tick {now : Int64} (hr : a.phase = .running) :
      Handles s a (.tick now) (tick now a)
        (serving a fun i host => [i.activity host .loop [.i64 now.toUInt64]])
  | clock {now : UInt64} :
      Handles s a (.clock now) { a with host := { a.host with clock := now } } []
  | info (hr : a.phase = .running) : Handles s a (.command .info) a []
  /-- An agent that does not run any more does nothing. -/
  | idle {x : Input} (hr : a.phase ≠ .running) : Handles s a x a []

/-- **Every step is one of these.** -/
theorem step_handles (s : AgentSettings) (a : Agent) (x : Input) :
    Handles s a x (step s a x) (stepActivities s a x) := by
  unfold stepActivities
  by_cases hr : a.phase = .running
  · rw [if_pos hr]
    cases x with
    | command c =>
      simp only [step, handle, if_pos hr]
      cases c with
      | load content => exact .load hr
      | trigger identifier payload =>
        simp only [fire_snd]
        exact .trigger hr
      | info => exact .info hr
      | shutdown => exact .stop hr (.inl rfl)
      | event e =>
        cases e with
        | connected => exact .connect hr
        | disconnected => exact .disconnect hr
        | message topic payload =>
          simp only [commandActivities, onEventActivities, onEvent]
          cases ht : s.options.layout.route topic with
          | artifact => exact .flow hr ht
          | guest => exact .deliver hr ht
    | tick now => exact .tick hr
    | clock now => exact .clock
    | release =>
      simp only [step, release, if_pos hr]
      exact .stop hr (.inr rfl)
  · rw [if_neg hr]
    cases x with
    | command c =>
      simp only [step, handle, if_neg hr]
      exact .idle hr
    | tick now =>
      have hidle : Agent.tick now a = a := by
        unfold Agent.tick
        split
        · rename_i hp _
          exact absurd hp hr
        · rfl
      rw [step, hidle]
      exact .idle hr
    | clock now => exact .clock
    | release =>
      simp only [step, release, if_neg hr]
      exact .idle hr

/-- **What an agent does in a run**, from the bundle that was kept from before on. -/
def activities (s : AgentSettings) (host : Host) (inputs : List Input) : List Activity :=
  ((keptBundle s host).elim [] fun content => loading s content false (fresh host)) ++
    along s (stepActivities s) (begin s (fresh host)) inputs

/-! ### Loads and stops -/

theorem closing_does {previous : Option Instance} (hp : ∀ i ∈ previous, i.lifecycle = .running)
    (host : Host) : Host.Does host (closing previous host) (retired previous host) := by
  cases previous with
  | none => exact .refl
  | some i => exact Instance.shutdown_does (hp i rfl) host

/-- The active instance of a sound agent runs. -/
theorem Sound.running (hs : Sound s a) : ∀ i ∈ a.active, i.lifecycle = .running := by
  intro i hi
  obtain ⟨k, -, hk⟩ := hs.serving i hi
  exact hk.lifecycle

theorem persist_does (s : AgentSettings) (content : Bytes) (a : Agent) :
    Host.Does a.host [.save content] (persist s content a).host := by
  have nothing : ∀ storage, Host.Does a.host [.save content] { a.host with storage := storage } :=
    fun _ => ⟨.of_eq rfl rfl, [], (List.append_nil _).symm, .single (.inl rfl)⟩
  unfold persist
  cases s.bundleFile with
  | none => exact nothing a.host.storage
  | some q =>
    simp only
    cases a.host.storage.save (.file q) content with
    | mk r storage =>
      cases r with
      | error e => exact nothing storage
      | ok u => exact ⟨.of_eq rfl rfl, [.persisted content], rfl, .single (.inr rfl)⟩

/-- **What a candidate that was launched does as it takes over.** -/
theorem promote_does {candidate : Instance} (keep : Bool) (hc : candidate.lifecycle = .instantiated)
    (ha : ∀ i ∈ a.active, i.lifecycle = .running) :
    Host.Does a.host (takeover s candidate content keep a) (promote s candidate content keep a).host := by
  have hclose := closing_does ha a.host
  have hstart := Instance.start_does hc (retired a.active a.host)
  obtain ⟨_, _, -, hy⟩ := Instance.start_yields (Q := none) (h := retired a.active a.host) hc
  set started := candidate.start (retired a.active a.host)
  have htell := Instance.setConnectionStatus_does hy.lifecycle started.host a.isConnected
  obtain ⟨_, _, -, hy'⟩ := Instance.setConnectionStatus_yields (Q := none) (h := started.host) hy.lifecycle
    a.isConnected
  set told := started.after.setConnectionStatus started.host a.isConnected
  set a3 : Agent := { a with active := some told.after, host := told.host }
  set a4 : Agent := if keep then persist s content a3 else a3 with ha4
  have hsave : Host.Does told.host (if keep then [.save content] else []) a4.host := by
    rw [ha4]
    cases keep with
    | false => exact .refl
    | true => exact persist_does s content a3
  have hbundle : a4.bundle = candidate.bundle := by
    have hactive : a4.active = some told.after := by
      rw [ha4]
      cases keep with
      | false => rfl
      | true => rw [if_pos rfl, persist_eq]
    rw [bundle, hactive]
    exact hy'.continues.bundle.trans hy.continues.bundle
  have he : promote s candidate content keep a = sendHello s a4 := by
    simp only [promote, retire_eq, withActive]
    rfl
  have hgreet : Host.Does a4.host [.request (s.hello candidate.bundle)] (sendHello s a4).host := by
    rw [← hbundle]
    exact Host.does_queue _
  rw [he]
  have h2 : Host.Does a.host (closing a.active a.host ++
      ([candidate.activity (retired a.active a.host) .init []] ++
        [started.after.activity started.host .setConnectionStatus
          (Instance.statusArgument a.isConnected)])) told.host :=
    hclose.trans (hstart.trans htell)
  exact (h2.trans hsave).trans hgreet

/-- **What a load does to the host**, whatever comes of it. -/
theorem swap_does (hs : Sound s a) (content : Bytes) (keep : Bool) :
    Host.Does a.host (loading s content keep a) (swap s content keep a).2.host := by
  unfold swap loading
  cases hb : Bundle.parse content with
  | error e => exact .refl
  | ok bundle =>
    have hl := s.launcher.launch_does a.count.attempts bundle a.isConnected a.host
    obtain h | ⟨e, es, host, h, -⟩ | ⟨candidate, es, host, h, hac⟩ :=
      Launcher.launch_cases s.launcher none a.count.attempts bundle a.isConnected a.host
    · simp only [h, List.append_nil] at hl ⊢
      exact hl
    · simp only [h, List.append_nil] at hl ⊢
      exact hl
    · simp only [h] at hl ⊢
      set a1 : Agent := { a with host := host, count := a.count.add true }
      have hp : Host.Does a1.host (takeover s candidate bundle.raw keep a1)
          (promote s candidate bundle.raw keep a1).host := promote_does keep hac.lifecycle hs.running
      exact hl.trans hp

theorem stop_does (hs : Sound s a) : Host.Does a.host (stopping a) a.stop.host := by
  have hclose := closing_does hs.running a.host
  unfold stop
  simp only [retire_eq]
  exact hclose.trans (Host.does_queue .disconnect)

/-! ### Steps and runs -/

/-- Work with the active instance does what it does with an instance that runs. -/
theorem withActive_does (hs : Sound s a) {work : Instance → Host → Instance.Outcome}
    {done : Instance → Host → List Activity}
    (hw : ∀ i host, i.lifecycle = .running → Host.Does host (done i host) (work i host).host) :
    Host.Does a.host (serving a done) (a.withActive work).host := by
  have hrun := hs.running
  unfold serving withActive
  cases ha : a.active with
  | none => exact .refl
  | some i => exact hw i a.host (hrun i ha)

/-- The active bundle stays while an agent serves its instance. -/
theorem Serves.bundle {es : List Occurrence} {a' : Agent} (h : Serves s a es a') : a'.bundle = a.bundle := by
  unfold Agent.bundle
  obtain ⟨ha, ha'⟩ | ⟨i, i', ha, ha', hc, -⟩ := h.active
  · rw [ha, ha']
  · rw [ha, ha', Option.map_some, Option.map_some, hc.bundle]

theorem tick_does (hs : Sound s a) (hr : a.phase = .running) (now : Int64) :
    Host.Does a.host (serving a fun i host => [i.activity host .loop [.i64 now.toUInt64]])
      (tick now a).host := by
  have hrun := hs.running
  unfold serving tick
  rw [hr]
  cases ha : a.active with
  | none => exact .refl
  | some i =>
    simp only [if_pos (hrun i ha), withActive]
    exact Instance.tick_does (hrun i ha) a.host now

theorem onConnection_does (hs : Sound s a) (connected : Bool) :
    Host.Does a.host (onEventActivities s a (if connected then .connected else .disconnected))
      (onConnection s connected a).host := by
  have hs' : Sound s { a with isConnected := connected } := ⟨hs.idle, hs.serving⟩
  obtain ⟨es, hserves⟩ := onConnection_serves hs connected
  have hbundle := hserves.bundle
  have htell : Host.Does a.host (telling a connected) ({ a with isConnected := connected }.withActive
      fun i host => i.setConnectionStatus host connected).host :=
    withActive_does hs' fun i host hi => Instance.setConnectionStatus_does hi host connected
  unfold onConnection at hbundle ⊢
  set told := { a with isConnected := connected }.withActive fun i host =>
    i.setConnectionStatus host connected
  cases connected with
  | false => exact htell
  | true =>
    have hsubscribe : Host.Does told.host [.request (.subscribe s.options.layout.subscriptions .atLeastOnce)]
        (told.queue (.subscribe s.options.layout.subscriptions .atLeastOnce)).host := Host.does_queue _
    -- the announcement names the bundle that was active before, since that goes on
    have hgreet : Host.Does (told.queue (.subscribe s.options.layout.subscriptions .atLeastOnce)).host
        [.request (s.hello a.bundle)]
        (sendHello s (told.queue (.subscribe s.options.layout.subscriptions .atLeastOnce))).host := by
      rw [← hbundle]
      exact Host.does_queue _
    exact htell.trans (hsubscribe.trans hgreet)

/-- **What a step does to the host.** -/
theorem step_does (hs : Sound s a) (x : Input) :
    Host.Does a.host (stepActivities s a x) (step s a x).host := by
  have h := step_handles s a x
  generalize step s a x = a', stepActivities s a x = as at h ⊢
  cases h with
  | load => exact swap_does hs _ true
  | flow => exact swap_does hs _ true
  | stop => exact stop_does hs
  | connect => exact onConnection_does hs true
  | disconnect => exact onConnection_does hs false
  | deliver => exact withActive_does hs fun i host hi => Instance.deliver_does hi host _ _
  | trigger => exact withActive_does hs fun i host hi => Instance.trigger_does hi host _ _
  | tick hr => exact tick_does hs hr _
  | clock => exact .of_eq rfl rfl rfl
  | info => exact .refl
  | idle => exact .refl

/-- Soundness goes on from step to step. -/
theorem Sound.step (hs : Sound s a) (x : Input) : Sound s (step s a x) := by
  obtain ⟨content, -, hr, he⟩ | ⟨-, ⟨-, he⟩ | ⟨es, h⟩⟩ := step_cases hs x
  · rw [he]
    exact hs.swap hr content true
  · rw [he]
    exact hs.stop
  · exact hs.serves h

/-- An agent that begins is sound, and has done what the load of the kept bundle does. -/
theorem begin_does (s : AgentSettings) (host : Host) :
    Sound s (begin s (fresh host)) ∧
      Host.Does host ((keptBundle s host).elim [] fun content => loading s content false (fresh host))
        (begin s (fresh host)).host := by
  have hs := sound_fresh (s := s) host
  suffices h : Sound s (loadPersisted s (fresh host)) ∧
      Host.Does host ((keptBundle s host).elim [] fun content => loading s content false (fresh host))
        (loadPersisted s (fresh host)).host by
    unfold begin
    split
    · exact ⟨h.1.crash, h.2⟩
    · exact h
  rw [loadPersisted_fresh]
  cases keptBundle s host with
  | none => exact ⟨hs, .refl⟩
  | some content => exact ⟨hs.swap rfl content false, swap_does hs content false⟩

theorem along_does (hs : Sound s a) (inputs : List Input) :
    Host.Does a.host (along s (stepActivities s) a inputs) (inputs.foldl (step s) a).host := by
  -- on the inputs to come, for any agent
  induction inputs generalizing a with
  | nil => exact .refl
  | cons x xs ih => exact (step_does hs x).trans (ih (hs.step x))

/-- **What a run does to the host**: the queue takes all that was asked for, in that order, and the history
tells of each activity in its turn. -/
theorem run_does (s : AgentSettings) (host : Host) (inputs : List Input) :
    Host.Does host (activities s host inputs) (run s host inputs).host := by
  obtain ⟨hs, hd⟩ := begin_does s host
  exact hd.trans (along_does hs inputs)

end Agent

end FlowHost
