import FlowHost.Proofs.Entrances
import FlowHost.Proofs.Lasting

/-!
# The life of one instance

`Launcher.Lives` follows one instance from its launch on. Its exports are called and texts are passed to it, in any
order, at any stage of its lifecycle and each time on any host; the list has what was done with it so far.

* `Agent.run_lives`: **the active instance of a run has lived through what the run did under its number**, and
  through nothing else. What other instances did is no part of its life.
-/

namespace FlowHost

namespace Activity

/-- The number of the instance that an activity belongs to, if it is a guest's. -/
def instanceId? : Activity → Option Nat
  | start σ _ _ => some σ.instanceId
  | call σ _ _ _ _ => some σ.instanceId
  | request _ => none
  | save _ => none

/-- **What belongs to the instance of a number.** -/
def own (k : Nat) (as : List Activity) : List Activity := as.filter fun x => x.instanceId? = some k

variable {k : Nat} {as : List Activity}

theorem own_append (k : Nat) (as as' : List Activity) : own k (as ++ as') = own k as ++ own k as' :=
  List.filter_append as as'

theorem own_eq_self (h : ∀ x ∈ as, x.instanceId? = some k) : own k as = as := by
  refine List.filter_eq_self.2 fun x hx => ?_
  simpa using h x hx

theorem own_eq_nil (h : ∀ x ∈ as, x.instanceId? ≠ some k) : own k as = [] := by
  refine List.filter_eq_nil_iff.2 fun x hx => ?_
  simpa using h x hx

theorem IsSettling.instanceId {σ : Surroundings} {x : Activity} (h : x.IsSettling σ) :
    x.instanceId? = some σ.instanceId := by
  cases x with
  | start σ' code m =>
    obtain rfl : σ' = σ := h
    rfl
  | call σ' function arguments body m =>
    obtain rfl : σ' = σ := h.1
    rfl
  | request r => cases h
  | save content => cases h

end Activity

open Activity

/-- **A life of an instance**: what was done with it since it was launched. -/
inductive Launcher.Lives (l : Launcher) : List Activity → Instance → Prop
  | launch {n : Nat} {bundle : Bundle} {connected : Bool} {host host' : Host} {i : Instance}
      (h : l.launch n bundle connected host = (.ok i, host')) :
      Lives l (l.activities n bundle connected host) i
  | call {as : List Activity} {i : Instance} (h : Lives l as i) (host : Host) (e : EntryPoint)
      (arguments : List Value) :
      Lives l (as ++ [i.activity host e arguments]) (i.call host e arguments).after
  | pass {as : List Activity} {i : Instance} (h : Lives l as i) (host : Host) (e : EntryPoint)
      (first payload : String) :
      Lives l (as ++ i.passing host e first payload) (i.pass host e first payload).after
  /-- An instance moves along its lifecycle. -/
  | lifecycle {as : List Activity} {i : Instance} (h : Lives l as i) (stage : Lifecycle) :
      Lives l as { i with lifecycle := stage }

namespace Launcher.Lives

variable {l : Launcher} {as : List Activity} {i : Instance}

theorem start (h : l.Lives as i) (hi : i.lifecycle = .instantiated) (host : Host) :
    l.Lives (as ++ [i.activity host .init []]) (i.start host).after := by
  unfold Instance.start
  rw [if_pos hi]
  exact (h.lifecycle .running).call host .init []

theorem setConnectionStatus (h : l.Lives as i) (hi : i.lifecycle = .running) (host : Host) (connected : Bool) :
    l.Lives (as ++ [i.activity host .setConnectionStatus (Instance.statusArgument connected)])
      (i.setConnectionStatus host connected).after := by
  unfold Instance.setConnectionStatus
  rw [hi]
  exact h.call host .setConnectionStatus _

theorem tick (h : l.Lives as i) (hi : i.lifecycle = .running) (host : Host) (now : Int64) :
    l.Lives (as ++ [i.activity host .loop [.i64 now.toUInt64]]) (i.tick host now).after := by
  unfold Instance.tick
  rw [if_pos hi]
  exact h.call host .loop _

theorem deliver (h : l.Lives as i) (hi : i.lifecycle = .running) (host : Host) (topic payload : String) :
    l.Lives (as ++ i.passing host .messageReceived topic payload) (i.deliver host topic payload).after := by
  unfold Instance.deliver
  rw [if_pos hi]
  exact h.pass host .messageReceived topic payload

theorem trigger (h : l.Lives as i) (hi : i.lifecycle = .running) (host : Host) (identifier payload : String) :
    l.Lives (as ++ i.passing host .directTrigger identifier payload)
      (i.trigger host identifier payload).after := by
  unfold Instance.trigger
  rw [if_pos hi]
  exact h.pass host .directTrigger identifier payload

/-- What lasts holds throughout a life, if it holds after the launch. -/
theorem lasting {I : Instance → Prop} (hI : Instance.Lasting I)
    (hl : ∀ {n bundle connected host i host'}, l.launch n bundle connected host = (.ok i, host') → I i)
    (h : l.Lives as i) : I i := by
  induction h with
  | launch h => exact hl h
  | call _ host e arguments ih => exact hI.call ih host e arguments
  | pass _ host e first payload ih => exact hI.pass ih host e first payload
  | lifecycle _ stage ih => exact hI.lifecycle ih stage

end Launcher.Lives

/-- What it takes to pass two texts to an instance belongs to it. -/
theorem Instance.passing_instanceId (i : Instance) (host : Host) (e : EntryPoint) (first payload : String) :
    ∀ x ∈ i.passing host e first payload, x.instanceId? = some i.surroundings.instanceId := by
  intro x hx
  unfold passing at hx
  split at hx
  · split at hx
    · obtain rfl := List.mem_singleton.1 hx
      rfl
    · cases hx
  · cases hx

namespace Agent

variable {s : AgentSettings} {a : Agent} {acts : List Activity}

/-- **The active instance has lived through its own part of what was done so far**, and the next number
is free. -/
structure Lived (s : AgentSettings) (acts : List Activity) (a : Agent) : Prop where
  below : a.phase = .running → ∀ x ∈ acts, ∀ k ∈ x.instanceId?, k < a.count.attempts
  lives : ∀ i ∈ a.active, s.launcher.Lives (own i.surroundings.instanceId acts) i

/-- Where nothing is active, and nothing runs, there is nothing to tell. -/
theorem Lived.of_none (hp : a.phase ≠ .running) (ha : a.active = none) : Lived s acts a := by
  refine ⟨fun hr => absurd hr hp, fun i hi => ?_⟩
  rw [ha] at hi
  cases hi

/-- The number of a sound agent's instance was given before. -/
theorem Sound.instanceId_lt (hs : Sound s a) : ∀ i ∈ a.active, i.surroundings.instanceId < a.count.attempts := by
  intro i hi
  obtain ⟨k, hk, hserving⟩ := hs.serving i hi
  rw [hserving.instanceId]
  exact hk

/-- The agent's own requests are no part of any life. -/
theorem Lived.requests {a' : Agent} (h : Lived s acts a) {rs : List Activity}
    (hrs : ∀ x ∈ rs, x.instanceId? = none) (hp : a'.phase = a.phase) (hc : a'.count = a.count)
    (ha : a'.active = a.active) : Lived s (acts ++ rs) a' := by
  have hown : ∀ k, own k (acts ++ rs) = own k acts := by
    intro k
    have hnone : own k rs = [] := own_eq_nil fun x hx => by rw [hrs x hx]; simp
    rw [own_append, hnone, List.append_nil]
  refine ⟨fun hr x hx k hk => ?_, fun i hi => ?_⟩
  · rw [hc]
    rcases List.mem_append.1 hx with hx | hx
    · exact h.below (hp ▸ hr) x hx k hk
    · rw [hrs x hx] at hk
      cases hk
  · rw [hown]
    exact h.lives i (ha ▸ hi)

/-- **Work with the active instance** is part of its life. -/
theorem Lived.withActive (hs : Sound s a) (h : Lived s acts a) {work : Instance → Host → Instance.Outcome}
    {done : Instance → Host → List Activity}
    (hown : ∀ i host, ∀ x ∈ done i host, x.instanceId? = some i.surroundings.instanceId)
    (hwork : ∀ i host as, i.lifecycle = .running → s.launcher.Lives as i →
      s.launcher.Lives (as ++ done i host) (work i host).after ∧
        (work i host).after.surroundings = i.surroundings) :
    Lived s (acts ++ serving a done) (a.withActive work) := by
  have hlt := hs.instanceId_lt
  have hrunning := hs.running
  unfold serving Agent.withActive
  cases ha : a.active with
  | none =>
    rw [List.append_nil]
    exact h
  | some i =>
    obtain ⟨hlives, hsurroundings⟩ := hwork i a.host _ (hrunning i ha) (h.lives i ha)
    refine ⟨fun hr x hx k hk => ?_, fun i' hi' => ?_⟩
    · rcases List.mem_append.1 hx with hx | hx
      · exact h.below hr x hx k hk
      · rw [hown i a.host x hx] at hk
        cases hk
        exact hlt i ha
    · obtain rfl := Option.some.inj hi'
      rw [hsurroundings, own_append, own_eq_self (hown i a.host)]
      exact hlives

theorem closing_instanceId (previous : Option Instance) (host : Host) :
    ∀ x ∈ closing previous host, ∃ i ∈ previous, x.instanceId? = some i.surroundings.instanceId := by
  intro x hx
  cases previous with
  | none => cases hx
  | some i =>
    obtain rfl := List.mem_singleton.1 hx
    exact ⟨i, rfl, rfl⟩

/-! ### A candidate takes over -/

section

variable {candidate : Instance} (content : Bytes) (keep : Bool)

/-- Once a candidate has taken over, it is the active instance: started, and told of the connection. -/
theorem promote_active (s : AgentSettings) (candidate : Instance) (a : Agent) :
    ∃ host, promote s candidate content keep a =
      { a with
        active := some ((candidate.start (retired a.active a.host)).after.setConnectionStatus
          (candidate.start (retired a.active a.host)).host a.isConnected).after
        host := host } := by
  unfold promote
  simp only [retire_eq, Agent.withActive]
  cases keep with
  | false => exact ⟨_, rfl⟩
  | true =>
    simp only [if_true]
    rw [persist_eq]
    exact ⟨_, rfl⟩

/-- What a candidate does itself as it takes over. -/
def opening (candidate : Instance) (a : Agent) : List Activity :=
  [candidate.activity (retired a.active a.host) .init [],
    (candidate.start (retired a.active a.host)).after.activity (candidate.start (retired a.active a.host)).host
      .setConnectionStatus (Instance.statusArgument a.isConnected)]

theorem opening_instanceId (hc : candidate.lifecycle = .instantiated) :
    ∀ x ∈ opening candidate a, x.instanceId? = some candidate.surroundings.instanceId := by
  obtain ⟨_, _, -, hy⟩ := Instance.start_yields (Q := none) (h := retired a.active a.host) hc
  intro x hx
  simp only [opening, List.mem_cons, List.not_mem_nil, or_false] at hx
  rcases hx with rfl | rfl
  · rfl
  · exact congrArg (fun σ : Surroundings => some σ.instanceId) hy.continues.surroundings

/-- **A takeover** is a shutdown, what the candidate does itself, and what the agent does in its own name. -/
theorem takeover_parts (s : AgentSettings) (candidate : Instance) (a : Agent) :
    ∃ rest, takeover s candidate content keep a = closing a.active a.host ++ opening candidate a ++ rest ∧
      ∀ x ∈ rest, x.instanceId? = none := by
  refine ⟨(if keep then [.save content] else []) ++ [.request (s.hello candidate.bundle)],
    List.append_assoc _ _ _, fun x hx => ?_⟩
  cases keep with
  | false =>
    obtain rfl := List.mem_singleton.1 hx
    rfl
  | true =>
    simp only [if_true, List.cons_append, List.nil_append, List.mem_cons, List.not_mem_nil, or_false] at hx
    rcases hx with rfl | rfl <;> rfl

/-- What belongs to a guest in a takeover belongs to the candidate or to what was active before. -/
theorem takeover_instanceId (s : AgentSettings) (hc : candidate.lifecycle = .instantiated) :
    ∀ x ∈ takeover s candidate content keep a, ∀ k ∈ x.instanceId?,
      k = candidate.surroundings.instanceId ∨ ∃ i ∈ a.active, k = i.surroundings.instanceId := by
  obtain ⟨rest, htakeover, hrest⟩ := takeover_parts content keep s candidate a
  intro x hx k hk
  rw [htakeover] at hx
  rcases List.mem_append.1 hx with hx | hx
  · rcases List.mem_append.1 hx with hx | hx
    · obtain ⟨i, hi, hx⟩ := closing_instanceId _ _ x hx
      rw [hx] at hk
      exact .inr ⟨i, hi, (Option.some.inj hk).symm⟩
    · rw [opening_instanceId hc x hx] at hk
      exact .inl (Option.some.inj hk).symm
  · rw [hrest x hx] at hk
    cases hk

/-- Only what a candidate does itself belongs to it. -/
theorem own_takeover (s : AgentSettings) (hc : candidate.lifecycle = .instantiated)
    (hother : ∀ i ∈ a.active, i.surroundings.instanceId ≠ candidate.surroundings.instanceId) :
    own candidate.surroundings.instanceId (takeover s candidate content keep a) = opening candidate a := by
  obtain ⟨rest, htakeover, hrest⟩ := takeover_parts content keep s candidate a
  have hclosing : own candidate.surroundings.instanceId (closing a.active a.host) = [] :=
    own_eq_nil fun x hx hk => by
      obtain ⟨i, hi, hx⟩ := closing_instanceId _ _ x hx
      exact hother i hi (Option.some.inj (hx.symm.trans hk))
  have hnone : own candidate.surroundings.instanceId rest = [] := own_eq_nil fun x hx hk => by
    rw [hrest x hx] at hk
    cases hk
  rw [htakeover, own_append, own_append, hclosing, hnone, own_eq_self (opening_instanceId hc)]
  exact List.append_nil _

/-- **A candidate that takes over has lived through its launch**, its start and the announcement of the
connection, and not through the shutdown of what was active before. -/
theorem Lived.promote (hs : Sound s a) (hr : a.phase = .running) (h : Lived s acts a) {bundle : Bundle}
    {host : Host}
    (hl : s.launcher.launch a.count.attempts bundle a.isConnected a.host = (.ok candidate, host))
    (hc : candidate.lifecycle = .instantiated)
    (hsurroundings : candidate.surroundings = s.launcher.surroundings a.count.attempts)
    {next : Agent} (hnext : next = { a with host := host, count := a.count.add true }) :
    Lived s (acts ++ (s.launcher.activities a.count.attempts bundle a.isConnected a.host ++
        takeover s candidate content keep next)) (promote s candidate content keep next) := by
  have hid : candidate.surroundings.instanceId = a.count.attempts := by rw [hsurroundings]; rfl
  have hlaunch : ∀ x ∈ s.launcher.activities a.count.attempts bundle a.isConnected a.host,
      x.instanceId? = some a.count.attempts := fun x hx =>
    (s.launcher.activities_settling _ _ _ _ x hx).instanceId
  have hattempts : next.count.attempts = a.count.attempts + 1 := by rw [hnext]; exact attempts_add _ _
  have hactive : next.active = a.active := by rw [hnext]
  have hlt : ∀ i ∈ next.active, i.surroundings.instanceId < a.count.attempts := fun i hi =>
    hs.instanceId_lt i (hactive ▸ hi)
  obtain ⟨_, he⟩ := promote_active content keep s candidate next
  refine ⟨fun _ x hx k hk => ?_, fun i hi => ?_⟩
  · have hcount : (Agent.promote s candidate content keep next).count = next.count := by rw [he]
    rw [hcount, hattempts]
    rcases List.mem_append.1 hx with hx | hx
    · exact Nat.lt_succ_of_lt (h.below hr x hx k hk)
    · rcases List.mem_append.1 hx with hx | hx
      · rw [hlaunch x hx] at hk
        exact Option.some.inj hk ▸ Nat.lt_succ_self _
      · obtain rfl | ⟨i, hi, rfl⟩ := takeover_instanceId content keep s hc x hx k hk
        · rw [hid]
          exact Nat.lt_succ_self _
        · exact Nat.lt_succ_of_lt (hlt i hi)
  · rw [he] at hi
    obtain rfl := Option.some.inj hi
    obtain ⟨_, _, -, hy⟩ := Instance.start_yields (Q := none) (h := retired next.active next.host) hc
    set started := candidate.start (retired next.active next.host) with hstarted
    obtain ⟨_, _, -, hy'⟩ := Instance.setConnectionStatus_yields (Q := none) (h := started.host)
      hy.lifecycle next.isConnected
    rw [hy'.continues.surroundings, hy.continues.surroundings]
    -- the number was not given before
    have hbefore : own candidate.surroundings.instanceId acts = [] := own_eq_nil fun x hx hk =>
      Nat.lt_irrefl _ (hid ▸ h.below hr x hx _ hk)
    have hother : ∀ i ∈ next.active, i.surroundings.instanceId ≠ candidate.surroundings.instanceId := by
      intro i hi heq
      exact Nat.lt_irrefl _ (hid ▸ heq ▸ hlt i hi)
    rw [own_append, own_append, hbefore, own_eq_self (fun x hx => hid ▸ hlaunch x hx),
      own_takeover content keep s hc hother, List.nil_append]
    have hlived := ((Launcher.Lives.launch hl).start hc (retired next.active next.host)).setConnectionStatus
      hy.lifecycle started.host next.isConnected
    rw [List.append_assoc] at hlived
    exact hlived

end

/-- **A load** ends the life of the active instance or goes by it. -/
theorem Lived.swap (hs : Sound s a) (hr : a.phase = .running) (h : Lived s acts a) (content : Bytes)
    (keep : Bool) : Lived s (acts ++ loading s content keep a) (Agent.swap s content keep a).2 := by
  unfold Agent.swap loading
  cases hb : Bundle.parse content with
  | error e =>
    rw [List.append_nil]
    exact ⟨h.below, h.lives⟩
  | ok bundle =>
    have hlaunch : ∀ x ∈ s.launcher.activities a.count.attempts bundle a.isConnected a.host,
        x.instanceId? = some a.count.attempts := fun x hx =>
      (s.launcher.activities_settling _ _ _ _ x hx).instanceId
    obtain hl | ⟨e, es, host, hl, -⟩ | ⟨candidate, es, host, hl, hac⟩ :=
      Launcher.launch_cases s.launcher none a.count.attempts bundle a.isConnected a.host
    · simp only [hl, List.append_nil]
      exact .of_none (fun hp => nomatch hp) rfl
    · simp only [hl, List.append_nil]
      refine ⟨fun _ x hx k hk => ?_, fun i hi => ?_⟩
      · have hattempts : (a.count.add false).attempts = a.count.attempts + 1 := attempts_add _ _
        show k < (a.count.add false).attempts
        rcases List.mem_append.1 hx with hx | hx
        · have hlt := h.below hr x hx k hk
          omega
        · rw [hlaunch x hx] at hk
          cases hk
          omega
      · have hlt := hs.instanceId_lt i hi
        have hnone : own i.surroundings.instanceId
            (s.launcher.activities a.count.attempts bundle a.isConnected a.host) = [] :=
          own_eq_nil fun x hx hk => by
            rw [hlaunch x hx] at hk
            exact Nat.lt_irrefl _ (Option.some.inj hk ▸ hlt)
        rw [own_append, hnone, List.append_nil]
        exact h.lives i hi
    · simp only [hl]
      exact h.promote bundle.raw keep hs hr hl hac.lifecycle hac.surroundings rfl

theorem Lived.telling (hs : Sound s a) (h : Lived s acts a) (connected : Bool) :
    Lived s (acts ++ telling a connected)
      ({ a with isConnected := connected }.withActive fun i host => i.setConnectionStatus host connected) := by
  set told : Agent := { a with isConnected := connected }
  have hs' : Sound s told := ⟨hs.idle, hs.serving⟩
  have h' : Lived s acts told := ⟨h.below, h.lives⟩
  have htelling : Agent.telling a connected = serving told fun i host =>
      [i.activity host .setConnectionStatus (Instance.statusArgument connected)] := rfl
  rw [htelling]
  refine h'.withActive hs' (fun i host x hx => ?_) fun i host as hi hlives => ⟨?_, ?_⟩
  · obtain rfl := List.mem_singleton.1 hx
    rfl
  · exact hlives.setConnectionStatus hi host connected
  · obtain ⟨_, _, -, hy⟩ := Instance.setConnectionStatus_yields (Q := none) (h := host) hi connected
    exact hy.continues.surroundings

/-- **Each step** adds what is done with the active instance to its life. -/
theorem Lived.step (hs : Sound s a) (h : Lived s acts a) (x : Input) :
    Lived s (acts ++ stepActivities s a x) (Agent.step s a x) := by
  have hhandles := step_handles s a x
  generalize Agent.step s a x = a', stepActivities s a x = as at hhandles ⊢
  cases hhandles with
  | load hr => exact h.swap hs hr _ true
  | flow hr => exact h.swap hs hr _ true
  | stop => exact .of_none (fun hp => nomatch hp) rfl
  | connect =>
    rw [← List.append_assoc]
    refine (h.telling hs true).requests (fun y hy => ?_) rfl rfl rfl
    simp only [List.mem_cons, List.not_mem_nil, or_false] at hy
    rcases hy with rfl | rfl <;> rfl
  | disconnect => exact h.telling hs false
  | @deliver topic payload =>
    refine h.withActive hs (fun i host => i.passing_instanceId host .messageReceived _ _)
      fun i host as hi hlives => ⟨hlives.deliver hi host topic _, ?_⟩
    obtain ⟨_, -, hy⟩ := Instance.deliver_yields (Q := none) (h := host) hi topic (Utf8.decodeLossy payload)
    exact hy.continues.surroundings
  | @trigger identifier payload =>
    refine h.withActive hs (fun i host => i.passing_instanceId host .directTrigger _ _)
      fun i host as hi hlives => ⟨hlives.trigger hi host identifier payload, ?_⟩
    obtain ⟨_, -, hy⟩ := Instance.trigger_yields (Q := none) (h := host) hi identifier payload
    exact hy.continues.surroundings
  | @tick now hr =>
    have hrunning := hs.running
    have hs' : Sound s { a with ticks := a.ticks + 1 } := ⟨hs.idle, hs.serving⟩
    have h' : Lived s acts { a with ticks := a.ticks + 1 } := ⟨h.below, h.lives⟩
    have hserved : Lived s (acts ++ serving a fun i host => [i.activity host .loop [.i64 now.toUInt64]])
        ({ a with ticks := a.ticks + 1 }.withActive fun i host => i.tick host now) := by
      refine h'.withActive hs' (fun i host y hy => ?_) fun i host as hi hlives =>
        ⟨hlives.tick hi host now, ?_⟩
      · obtain rfl := List.mem_singleton.1 hy
        rfl
      · obtain ⟨_, _, -, hy⟩ := Instance.tick_yields (Q := none) (h := host) hi now
        exact hy.continues.surroundings
    unfold Agent.tick
    rw [hr]
    cases ha : a.active with
    | none =>
      simp only [serving, ha, List.append_nil]
      exact h
    | some i =>
      rw [hr, ha] at hserved
      simp only [if_pos (hrunning i ha)]
      exact hserved
  | clock => exact h.requests (fun _ hy => nomatch hy) rfl rfl rfl
  | info =>
    rw [List.append_nil]
    exact h
  | idle =>
    rw [List.append_nil]
    exact h

theorem along_lived (hs : Sound s a) (h : Lived s acts a) (xs : List Input) :
    Lived s (acts ++ along s (stepActivities s) a xs) (xs.foldl (Agent.step s) a) := by
  -- on the inputs to come, for any agent and all that was done so far
  induction xs generalizing a acts with
  | nil =>
    rw [along, List.append_nil]
    exact h
  | cons x xs ih =>
    rw [along, ← List.append_assoc]
    exact ih (hs.step x) (h.step hs x)

theorem begin_lived (s : AgentSettings) (host : Host) :
    Lived s ((keptBundle s host).elim [] fun content => loading s content false (fresh host))
      (begin s (fresh host)) := by
  have hfresh : Lived s [] (fresh host) := ⟨fun _ _ hx => (nomatch hx), fun _ hi => nomatch hi⟩
  have hload : Lived s ((keptBundle s host).elim [] fun content => loading s content false (fresh host))
      (loadPersisted s (fresh host)) := by
    rw [loadPersisted_fresh]
    cases keptBundle s host with
    | none => exact hfresh
    | some content => exact hfresh.swap (sound_fresh host) rfl content false
  unfold begin
  split
  · exact .of_none (fun hp => nomatch hp) rfl
  · exact hload

/-- **The active instance of a run has lived through what the run did under its number.** -/
theorem run_lives (s : AgentSettings) (host : Host) (inputs : List Input) :
    ∀ i ∈ (run s host inputs).active,
      s.launcher.Lives (own i.surroundings.instanceId (activities s host inputs)) i := by
  obtain ⟨hs, -⟩ := begin_does s host
  exact (along_lived hs (begin_lived s host) inputs).lives

end Agent

end FlowHost
