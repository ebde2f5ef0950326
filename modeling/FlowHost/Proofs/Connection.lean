import FlowHost.Proofs.Entrances
import FlowHost.Proofs.Rejection

/-!
# Connection status and announcements

The agent remembers the last change of the connection, and the active instance was told of it by the last
call of its status export, whatever came of earlier ones and whenever the instance took over. The agent
announces itself on every connect, right behind its subscriptions, and after every load that succeeds,
behind all that the candidate sent while it was initialised.

* `Agent.lastChange`: the last change of the connection that a run has handled.
* `Agent.announcements`: the requests of the agent's own.
* `Agent.connection_settled`: **the flag, the active instance and the announcements agree** at all times.
-/

namespace FlowHost

open History

/-- The call of the status export of an instance, as its arguments. -/
def Entrance.status? (k : Nat) (e : Entrance) : Option (List Value) :=
  if e.instanceId = k ∧ e.function = EntryPoint.setConnectionStatus.name then some e.arguments else none

/-- What an instance was told of the connection, oldest first. -/
def History.statuses (k : Nat) (es : List Occurrence) : List (List Value) :=
  (entrances es).filterMap (Entrance.status? k)

/-- What activities tell an instance of the connection. -/
def Activity.statuses (k : Nat) (as : List Activity) : List (List Value) :=
  (as.filterMap Activity.entrance?).filterMap (Entrance.status? k)

namespace Activity

variable {k : Nat} {as as' : List Activity}

@[simp] theorem statuses_append : statuses k (as ++ as') = statuses k as ++ statuses k as' := by
  simp only [statuses, List.filterMap_append]

/-- A candidate is told of the connection, but no other instance is. -/
theorem statuses_settling {σ : Surroundings} (h : ∀ x ∈ as, x.IsSettling σ) (hk : σ.instanceId ≠ k) :
    statuses k as = [] := by
  unfold statuses
  rw [List.filterMap_eq_nil_iff]
  intro e he
  obtain ⟨x, hx, hxe⟩ := List.mem_filterMap.1 he
  have hs := h x hx
  cases x with
  | call σ' function arguments body m =>
    cases hxe
    obtain ⟨rfl, -⟩ := hs
    exact if_neg fun hc => hk hc.1
  | _ => cases hxe

end Activity

namespace Agent

variable {s : AgentSettings} {a : Agent} {k : Nat}

/-- The change of the connection that an input reports to an agent that runs. -/
def change (a : Agent) (x : Input) : List Bool :=
  if a.phase = .running then
    match x with
    | .command (.event .connected) => [true]
    | .command (.event .disconnected) => [false]
    | _ => []
  else []

theorem withActive_isConnected (a : Agent) (work : Instance → Host → Instance.Outcome) :
    (a.withActive work).isConnected = a.isConnected := by
  unfold withActive
  cases a.active <;> rfl

/-- The status that activities tell an instance is that of the calls of its status export. -/
theorem statuses_activity (i : Instance) (host : Host) (e : EntryPoint) (arguments : List Value) (k : Nat) :
    Activity.statuses k [i.activity host e arguments] =
      if i.surroundings.instanceId = k ∧ e.name = EntryPoint.setConnectionStatus.name then [arguments]
      else [] := by
  show [(⟨i.surroundings.instanceId, e.name, arguments, _⟩ : Entrance)].filterMap (Entrance.status? k) = _
  simp only [List.filterMap_cons, List.filterMap_nil, Entrance.status?]
  split <;> rename_i h
  · split at h
    · cases h
    · rename_i hc
      rw [if_neg hc]
  · split at h
    · rename_i hc
      rw [if_pos hc, Option.some.inj h]
    · cases h

theorem statuses_other (i : Instance) (host : Host) {e : EntryPoint}
    (he : e.name ≠ EntryPoint.setConnectionStatus.name) (arguments : List Value) (k : Nat) :
    Activity.statuses k [i.activity host e arguments] = [] := by
  rw [statuses_activity, if_neg fun h => he h.2]

theorem statuses_passing (i : Instance) (host : Host) {e : EntryPoint}
    (he : e.name ≠ EntryPoint.setConnectionStatus.name) (first payload : String) (k : Nat) :
    Activity.statuses k (i.passing host e first payload) = [] := by
  unfold Instance.passing
  split
  · split
    · exact statuses_other _ host he _ k
    · rfl
  · rfl

theorem statuses_serving {work : Instance → Host → List Activity} (k : Nat)
    (hw : ∀ i host, Activity.statuses k (work i host) = []) (a : Agent) :
    Activity.statuses k (serving a work) = [] := by
  unfold serving
  cases a.active with
  | none => rfl
  | some i => exact hw i a.host

theorem statuses_closing (previous : Option Instance) (host : Host) (k : Nat) :
    Activity.statuses k (closing previous host) = [] := by
  cases previous with
  | none => rfl
  | some i => exact statuses_other i host (by decide) [] k

/-- **A candidate that takes over is told of the connection last.** -/
theorem statuses_takeover (s : AgentSettings) {candidate : Instance} {n : Nat}
    (hn : candidate.surroundings.instanceId = n) (hc : candidate.lifecycle = .instantiated)
    (content : Bytes) (keep : Bool) (a : Agent) :
    Activity.statuses n (takeover s candidate content keep a) =
      [Instance.statusArgument a.isConnected] := by
  obtain ⟨_, _, -, hy⟩ := Instance.start_yields (Q := none) (h := retired a.active a.host) hc
  have hid : (candidate.start (retired a.active a.host)).after.surroundings.instanceId = n := by
    rw [hy.continues.surroundings, hn]
  have hsave : Activity.statuses n (if keep then [.save content] else []) = [] := by
    cases keep <;> rfl
  have hgreet : Activity.statuses n [.request (s.hello candidate.bundle)] = [] := rfl
  have hpair : ∀ x y : Activity, [x, y] = [x] ++ [y] := fun _ _ => rfl
  have hinit : EntryPoint.init.name ≠ EntryPoint.setConnectionStatus.name := by decide
  unfold takeover
  simp only [hpair, Activity.statuses_append, statuses_closing, statuses_other _ _ hinit, hsave, hgreet,
    statuses_activity, hid, and_self, if_true, List.nil_append, List.append_nil]

/-! ### What the active instance was told -/

/-- **The active instance was told of the connection as it is** by the last call of its status export. -/
def Told (a : Agent) (as : List Activity) : Prop :=
  ∀ i ∈ a.active, (Activity.statuses i.surroundings.instanceId as).getLast? =
    some (Instance.statusArgument a.isConnected)

/-- What says nothing of the connection to anyone leaves the active instance told. -/
theorem Told.append {a' : Agent} {as as' : List Activity} (h : Told a as)
    (hnone : ∀ k, Activity.statuses k as' = [])
    (hactive : ∀ i' ∈ a'.active, ∃ i ∈ a.active, i'.surroundings.instanceId = i.surroundings.instanceId)
    (hflag : a'.isConnected = a.isConnected) : Told a' (as ++ as') := by
  intro i' hi'
  obtain ⟨i, hi, hid⟩ := hactive i' hi'
  rw [Activity.statuses_append, hnone, List.append_nil, hid, hflag]
  exact h i hi

/-- **A load leaves the active instance told**, be it the old one or the new one. -/
theorem Told.swap {as : List Activity} (hs : Sound s a) (h : Told a as) (content : Bytes) (keep : Bool) :
    Told (Agent.swap s content keep a).2 (as ++ loading s content keep a) := by
  unfold Agent.swap loading
  cases Bundle.parse content with
  | error e =>
    simp only [List.append_nil]
    exact h
  | ok bundle =>
    have hlaunch : ∀ i ∈ a.active, Activity.statuses i.surroundings.instanceId
        (s.launcher.activities a.count.attempts bundle a.isConnected a.host) = [] := by
      intro i hi
      obtain ⟨k, hk, hserv⟩ := hs.serving i hi
      refine Activity.statuses_settling (s.launcher.activities_settling _ _ _ _) ?_
      rw [hserv.instanceId]
      exact Nat.ne_of_gt hk
    obtain hl | ⟨e, es, host, hl, -⟩ | ⟨candidate, es, host, hl, hac⟩ :=
      Launcher.launch_cases s.launcher s.bundleFile a.count.attempts bundle a.isConnected a.host
    · simp only [hl]
      exact fun i hi => nomatch hi
    -- what a rejected candidate was told is not told to the older instance
    · simp only [hl, List.append_nil]
      intro i hi
      rw [Activity.statuses_append, hlaunch i hi, List.append_nil]
      exact h i hi
    · simp only [hl]
      obtain ⟨_, _, _, _, _, hh⟩ := hs.promote hac keep
      obtain ⟨i', hfix, hcont, -⟩ := hh.active
      have hid : candidate.surroundings.instanceId = a.count.attempts := by rw [hac.surroundings]; rfl
      have htold := statuses_takeover s hid hac.lifecycle bundle.raw keep
        { a with host := host, count := a.count.add true }
      intro i hi
      rw [hfix] at hi ⊢
      cases hi
      rw [hcont.surroundings, hid, Activity.statuses_append, Activity.statuses_append, htold,
        ← List.append_assoc]
      exact List.getLast?_concat

theorem statuses_requests (requests : List Outbound) (k : Nat) :
    Activity.statuses k (requests.map .request) = [] := by
  induction requests with
  | nil => rfl
  | cons r rest ih => exact ih

theorem onConnection_isConnected (connected : Bool) :
    (onConnection s connected a).isConnected = connected := by
  have hflag := withActive_isConnected { a with isConnected := connected } fun i host =>
    i.setConnectionStatus host connected
  unfold onConnection
  cases connected <;> exact hflag

/-- **A change of the connection is told at once.** -/
theorem Told.onConnection (hs : Sound s a) (connected : Bool) (as : List Activity)
    (requests : List Outbound) :
    Told (Agent.onConnection s connected a) (as ++ (telling a connected ++ requests.map .request)) := by
  have hactive : (Agent.onConnection s connected a).active =
      a.active.map fun i => (i.setConnectionStatus a.host connected).after := by
    unfold Agent.onConnection withActive
    cases connected <;> cases a.active <;> rfl
  intro i' hi'
  rw [onConnection_isConnected]
  cases ha : a.active with
  | none =>
    rw [hactive, ha] at hi'
    cases hi'
  | some i =>
    obtain ⟨_, _, -, hy⟩ := Instance.setConnectionStatus_yields (Q := none) (h := a.host)
      (hs.running i ha) connected
    rw [hactive, ha] at hi'
    cases hi'
    simp only [hy.continues.surroundings, telling, serving, ha, Activity.statuses_append,
      statuses_requests, List.append_nil, statuses_activity, and_self, if_true]
    exact List.getLast?_concat

/-- Where nothing is loaded, the instance that is active stays active. -/
theorem step_instanceId (hs : Sound s a) {x : Input} (hx : asked s a x = none) :
    ∀ i' ∈ (step s a x).active, ∃ i ∈ a.active, i'.surroundings.instanceId = i.surroundings.instanceId := by
  intro i' hi'
  obtain ⟨content, hc, -, -⟩ | ⟨-, ⟨-, he⟩ | ⟨es, h⟩⟩ := step_cases hs x
  · rw [hx] at hc
    cases hc
  · rw [he] at hi'
    cases hi'
  · obtain ⟨-, hnone⟩ | ⟨i, i'', ha, ha', hcont, -⟩ := h.active
    · rw [hnone] at hi'
      cases hi'
    · rw [ha'] at hi'
      cases hi'
      exact ⟨i, ha, by rw [hcont.surroundings]⟩

/-- **What a step does about the connection**: a change is handled, a bundle is loaded, or nothing is
said of it. -/
theorem step_connection_cases (hs : Sound s a) (x : Input) :
    (∃ connected, ∃ requests : List Outbound, change a x = [connected] ∧ step s a x = onConnection s connected a ∧
        stepActivities s a x = telling a connected ++ requests.map .request) ∨
      (∃ content, change a x = [] ∧ a.phase = .running ∧ step s a x = (swap s content true a).2 ∧
        stepActivities s a x = loading s content true a) ∨
      (change a x = [] ∧ (step s a x).isConnected = a.isConnected ∧
        (∀ k, Activity.statuses k (stepActivities s a x) = []) ∧
        ∀ i' ∈ (step s a x).active, ∃ i ∈ a.active,
          i'.surroundings.instanceId = i.surroundings.instanceId) := by
  have hstop : ∀ k, Activity.statuses k (stopping a) = [] := by
    intro k
    rw [stopping, Activity.statuses_append, statuses_closing]
    rfl
  have hids := fun hx => step_instanceId hs (x := x) hx
  have h := step_handles s a x
  generalize step s a x = a', stepActivities s a x = as at h hids ⊢
  cases h with
  | load hr => exact .inr (.inl ⟨_, by simp [change], hr, rfl, rfl⟩)
  | flow hr => exact .inr (.inl ⟨_, by simp [change], hr, rfl, rfl⟩)
  | stop hr hx =>
    have hsame : a.stop.isConnected = a.isConnected := by
      simp only [stop, retire_eq]
      rfl
    obtain rfl | rfl := hx <;> exact .inr (.inr ⟨by simp [change], hsame, hstop, hids rfl⟩)
  | connect hr =>
    exact .inl ⟨true, [.subscribe s.options.layout.subscriptions .atLeastOnce, s.hello a.bundle],
      by simp [change, hr], rfl, rfl⟩
  | disconnect hr => exact .inl ⟨false, [], by simp [change, hr], rfl, (List.append_nil _).symm⟩
  | deliver hr ht =>
    refine .inr (.inr ⟨by simp [change], withActive_isConnected _ _, fun k => ?_,
      hids (if_neg (by simp [ht]))⟩)
    exact statuses_serving k (fun i host => statuses_passing i host (by decide) _ _ k) a
  | trigger hr =>
    refine .inr (.inr ⟨by simp [change], withActive_isConnected _ _, fun k => ?_, hids rfl⟩)
    exact statuses_serving k (fun i host => statuses_passing i host (by decide) _ _ k) a
  | tick hr =>
    refine .inr (.inr ⟨by simp [change], ?_, fun k => ?_, hids rfl⟩)
    · unfold tick
      split
      · split
        · exact withActive_isConnected _ _
        · rfl
      · rfl
    · exact statuses_serving k (fun i host => statuses_other i host (by decide) _ k) a
  | clock => exact .inr (.inr ⟨by simp [change], rfl, fun k => rfl, hids rfl⟩)
  | info => exact .inr (.inr ⟨by simp [change], rfl, fun k => rfl, hids rfl⟩)
  | idle hr =>
    have hasked : asked s a x = none := by
      unfold asked
      split <;> simp [hr]
    exact .inr (.inr ⟨by simp [change, hr], rfl, fun k => rfl, hids hasked⟩)

/-- **A step leaves the active instance told.** -/
theorem Told.step {as : List Activity} (hs : Sound s a) (h : Told a as) (x : Input) :
    Told (Agent.step s a x) (as ++ stepActivities s a x) := by
  obtain ⟨connected, requests, -, he, hacts⟩ | ⟨content, -, -, he, hacts⟩ | ⟨-, hflag, hnone, hactive⟩ :=
    step_connection_cases hs x
  · rw [he, hacts]
    exact Told.onConnection hs connected as requests
  · rw [he, hacts]
    exact h.swap hs content true
  · exact h.append hnone hactive hflag

theorem IsClosing.announced {previous : Option Instance} {es : List Occurrence}
    (h : IsClosing previous es) : History.announced es = [] := by
  cases previous with
  | none =>
    rw [show es = [] from h]
    rfl
  | some i =>
    obtain ⟨r, hc⟩ := h
    exact hc.ownedBy.announced_eq_nil

-- an instance is told twice as it takes over, and then of the disconnect
example : statuses 0 (run Sample.settings Sample.host [.command (.event .connected),
    .command (.load (Sample.content 100)), .command (.event .disconnected)]).host.history =
      [[.i32 1], [.i32 1], [.i32 0]] := by decide +kernel

end Agent

end FlowHost
