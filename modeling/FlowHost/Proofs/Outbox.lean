import FlowHost.Proofs.Entrances
import FlowHost.Proofs.Forwarding
import FlowHost.Proofs.Rejection

/-!
# What reaches the transport

A run that ends in order has put into the queue all that its guests asked to send and all that the agent
requested, in the order in which it was asked for. The disconnect is last, behind what the guest sent
while it was shut down, and there is no other. So **nothing is lost on the way to the transport**, which
is asked for each request once and in that order, whoever is faster and whatever it refuses.

* `Agent.Flushed`: what such a run leaves in the queue.
* `Forwarder.Relayed`: what becomes of it.
-/

namespace FlowHost

open History

/-- **What becomes of requests that are forwarded while they are made**: none is refused by the queue, and
a forwarder that is done has asked the transport for each of them once, in their order. -/
structure Forwarder.Relayed {σ : Type} (t : Transport σ) (state : σ) (requests : List Outbound)
    (moves : List Move) : Prop where
  taken : ∀ before r after, moves = before ++ .put r :: after →
    (run t.noting (fresh (state, [])) before).isDone = false
  handed : let f := run t.noting (fresh (state, [])) moves
    (f.isDone = true ∨ f.waiting = []) → f.state = (t.forward state requests, requests)

/-- Requests that end in their only disconnect are all relayed. -/
theorem Forwarder.relayed {σ : Type} (t : Transport σ) (state : σ) {earlier : List Outbound}
    (hn : .disconnect ∉ earlier) {moves : List Move} (hm : puts moves = earlier ++ [.disconnect]) :
    Relayed t state (earlier ++ [.disconnect]) moves := by
  refine ⟨fun before r after h => put_taken hn hm h, fun he => ?_⟩
  have hends := (t.forwards state).ends moves he
  rw [hm, Outbound.upToDisconnect_concat hn] at hends
  exact hends

/-- Guests send messages and nothing else, so only the agent can ask for a disconnect. -/
theorem Activity.disconnect_mem_requests {as : List Activity} :
    .disconnect ∈ as.flatMap Activity.requests ↔ .disconnect ∈ as.filterMap Activity.announced? := by
  have key : ∀ x : Activity, .disconnect ∈ x.requests ↔ x.announced? = some .disconnect := by
    intro x
    cases x with
    | request r => simp [requests, announced?, eq_comm]
    | _ => simp [requests, announced?]
  simp only [List.mem_flatMap, List.mem_filterMap, key]

/-- The inputs of a short run: the intruder is rejected, there is a connection, the diligent guest is
loaded, and then the last handle is gone. -/
def Sample.visit : List Agent.Input :=
  [.command (.load (Sample.content 105)), .command (.event .connected),
    .command (.load (Sample.content 100)), .release]

namespace Agent

variable {s : AgentSettings} {a : Agent}

theorem withActive_phase (a : Agent) (work : Instance → Host → Instance.Outcome) :
    (a.withActive work).phase = a.phase := by
  unfold withActive
  cases a.active <;> rfl

/-- An agent that does not run stays as it ended. -/
theorem step_idle_phase (hs : Sound s a) (hr : a.phase ≠ .running) (x : Input) :
    (step s a x).phase = a.phase := by
  obtain ⟨content, -, hr', -⟩ | ⟨-, ⟨hr', -⟩ | ⟨es, h⟩⟩ := step_cases hs x
  · exact absurd hr' hr
  · exact absurd hr' hr
  · exact h.phase

/-- **A step is the stop of an agent that runs, or it requests no disconnect** and does not end the run. -/
theorem stepActivities_cases (hs : Sound s a) (x : Input) :
    ((x = .command .shutdown ∨ x = .release) ∧ step s a x = a.stop ∧ stepActivities s a x = stopping a) ∨
      .disconnect ∉ (stepActivities s a x).flatMap Activity.requests ∧
        ((step s a x).phase = .stopped → a.phase = .stopped) := by
  have hgreet : ∀ content, .disconnect ∉ (loading s content true a).filterMap Activity.announced? := by
    intro content
    rw [announced_loading]
    cases (swap s content true a).1 <;> simp [greeting, AgentSettings.hello]
  have hload : a.phase = .running → ∀ content, (swap s content true a).2.phase ≠ .stopped := by
    intro hr content hc
    obtain h | h := swap_phase hs hr content true <;> rw [hc] at h <;> cases h
  have htell : ∀ connected, (telling a connected).filterMap Activity.announced? = [] :=
    fun connected => announced_serving (fun i host => rfl) a
  have hpass : ∀ e first payload,
      (serving a fun i host => i.passing host e first payload).filterMap Activity.announced? = [] :=
    fun e first payload => announced_serving (fun i host => announced_passing i host e first payload) a
  have hloop : ∀ now : Int64, (serving a fun i host =>
      [i.activity host .loop [.i64 now.toUInt64]]).filterMap Activity.announced? = [] :=
    fun now => announced_serving (fun i host => rfl) a
  have hconnection : ∀ connected, (onConnection s connected a).phase = a.phase := by
    intro connected
    cases connected <;> exact withActive_phase _ _
  rw [Activity.disconnect_mem_requests]
  have h := step_handles s a x
  generalize step s a x = a', stepActivities s a x = as at h ⊢
  cases h with
  | stop hr hx => exact .inl ⟨hx, rfl, rfl⟩
  | load hr => exact .inr ⟨hgreet _, fun hp => absurd hp (hload hr _)⟩
  | flow hr => exact .inr ⟨hgreet _, fun hp => absurd hp (hload hr _)⟩
  | connect hr =>
    refine .inr ⟨?_, fun hp => (hconnection true).symm.trans hp⟩
    rw [List.filterMap_append, htell]
    simp [Activity.announced?, AgentSettings.hello]
  | disconnect hr => exact .inr ⟨by simp [htell], fun hp => (hconnection false).symm.trans hp⟩
  | deliver hr => exact .inr ⟨by simp [hpass], fun hp => (withActive_phase _ _).symm.trans hp⟩
  | trigger hr => exact .inr ⟨by simp [hpass], fun hp => (withActive_phase _ _).symm.trans hp⟩
  | tick hr =>
    obtain ⟨es, hserves⟩ := tick_serves hs _
    exact .inr ⟨by simp [hloop], fun hp => hserves.phase.symm.trans hp⟩
  | clock => exact .inr ⟨by simp, id⟩
  | info => exact .inr ⟨by simp, id⟩
  | idle => exact .inr ⟨by simp, id⟩

/-- An agent that has stopped does nothing any more. -/
theorem along_stopped (hs : Sound s a) (hp : a.phase = .stopped) (xs : List Input) :
    along s (stepActivities s) a xs = [] := by
  induction xs generalizing a with
  | nil => rfl
  | cons x xs ih =>
    have hnone : stepActivities s a x = [] := by simp [stepActivities, hp]
    rw [along, hnone, List.nil_append]
    exact ih (hs.step x) (by rw [step_idle_phase hs (by simp [hp]) x, hp])

/-- **Once an agent goes on to a stop, its requests end in one disconnect.** -/
theorem along_requests (hs : Sound s a) (hp : a.phase ≠ .stopped) (xs : List Input)
    (hstop : (xs.foldl (step s) a).phase = .stopped) :
    ∃ earlier, .disconnect ∉ earlier ∧
      (along s (stepActivities s) a xs).flatMap Activity.requests = earlier ++ [.disconnect] := by
  -- on the inputs to come: the first of them is the stop, or it comes later
  induction xs generalizing a with
  | nil => exact absurd hstop hp
  | cons x xs ih =>
    rw [along, List.flatMap_append]
    obtain ⟨-, he, hacts⟩ | ⟨hnone, hphase⟩ := stepActivities_cases hs x
    · have hrest : along s (stepActivities s) (step s a x) xs = [] :=
        along_stopped (hs.step x) (by rw [he]; rfl) xs
      refine ⟨(closing a.active a.host).flatMap Activity.requests, ?_, ?_⟩
      · rw [Activity.disconnect_mem_requests, announced_closing]
        simp
      · rw [hrest, hacts, stopping, List.flatMap_append]
        simp [Activity.requests]
    · obtain ⟨earlier, hn, hr⟩ := ih (hs.step x) (fun h => hp (hphase h)) hstop
      refine ⟨(stepActivities s a x).flatMap Activity.requests ++ earlier, ?_, ?_⟩
      · simp only [List.mem_append, hnone, hn, or_self, not_false_eq_true]
      · rw [hr, List.append_assoc]

/-- The load of the bundle that was kept requests no disconnect and does not end the run. -/
theorem begin_requests (s : AgentSettings) (host : Host) :
    (begin s (fresh host)).phase ≠ .stopped ∧
      .disconnect ∉ ((keptBundle s host).elim [] fun content =>
        loading s content false (fresh host)).flatMap Activity.requests := by
  have hs := sound_fresh (s := s) host
  refine ⟨?_, ?_⟩
  · have hload : (loadPersisted s (fresh host)).phase ≠ .stopped := by
      rw [loadPersisted_fresh]
      cases keptBundle s host with
      | none => simp [fresh]
      | some content =>
        intro hc
        rw [Option.elim_some] at hc
        obtain h | h := swap_phase hs rfl content false <;> rw [hc] at h <;> cases h
    unfold begin
    split
    · simp [crash]
    · exact hload
  · rw [Activity.disconnect_mem_requests]
    cases keptBundle s host with
    | none => simp
    | some content =>
      rw [Option.elim_some, announced_loading]
      cases (swap s content false (fresh host)).1 <;> simp [greeting, AgentSettings.hello]

/-- **What a run that ended in order leaves in the queue**: all that was asked for in it, in that order.
The disconnect is last, and there is no other. -/
structure Flushed (s : AgentSettings) (host : Host) (inputs : List Input) (earlier : List Outbound) :
    Prop where
  asked : (activities s host inputs).flatMap Activity.requests = earlier ++ [.disconnect]
  once : .disconnect ∉ earlier
  outbound : (run s host inputs).host.outbound = host.outbound ++ (earlier ++ [.disconnect])
  /-- The history tells of each activity in its turn, and of nothing else. -/
  history : ∃ es, (run s host inputs).host.history = host.history ++ es ∧
    Tells true (activities s host inputs) es

theorem run_flushed (s : AgentSettings) (host : Host) (inputs : List Input) (hopen : host.isOpen = true)
    (hstop : (run s host inputs).phase = .stopped) : ∃ earlier, Flushed s host inputs earlier := by
  obtain ⟨hs, -⟩ := begin_does s host
  obtain ⟨hphase, hbegin⟩ := begin_requests s host
  have hd := run_does s host inputs
  obtain ⟨earlier, hn, hr⟩ := along_requests hs hphase inputs hstop
  have hasked : (activities s host inputs).flatMap Activity.requests =
      (((keptBundle s host).elim [] fun content =>
        loading s content false (fresh host)).flatMap Activity.requests ++ earlier) ++ [.disconnect] := by
    rw [activities, List.flatMap_append, hr, List.append_assoc]
  have hout := hd.takes.outbound hopen
  obtain ⟨es, he, ht⟩ := hd.history
  rw [hasked] at hout
  rw [hopen] at ht
  refine ⟨_, hasked, ?_, hout, es, he, ht⟩
  simp only [List.mem_append, hbegin, hn, or_self, not_false_eq_true]

/-- **Nothing is lost, doubled, reordered or sent after the disconnect**: what is asked for in a run that
ends in order is in the queue, in that order, up to the one disconnect, and whatever the transport is and
however its forwarder keeps up, it is asked for exactly that. -/
theorem run_relayed {σ : Type} (s : AgentSettings) (host : Host) (inputs : List Input) (t : Transport σ)
    (state : σ) (hopen : host.isOpen = true) (hstop : (run s host inputs).phase = .stopped) :
    (∃ earlier, Flushed s host inputs earlier ∧
        ∀ moves, Forwarder.puts moves = earlier ++ [.disconnect] →
          Forwarder.Relayed t state (earlier ++ [.disconnect]) moves) ∧
      t.Forwards state := by
  obtain ⟨earlier, hf⟩ := run_flushed s host inputs hopen hstop
  exact ⟨⟨earlier, hf, fun moves hm => Forwarder.relayed t state hf.once hm⟩, t.forwards state⟩

/-- A short run, with a transport that remembers what it is asked for. -/
theorem run_relayed_visit :
    Sample.host.isOpen = true ∧ (run Sample.settings Sample.host Sample.visit).phase = .stopped ∧
      (∃ earlier, Flushed Sample.settings Sample.host Sample.visit earlier ∧
        ∀ moves, Forwarder.puts moves = earlier ++ [.disconnect] →
          Forwarder.Relayed Transport.recorder .empty (earlier ++ [.disconnect]) moves) ∧
      Transport.recorder.Forwards .empty := by
  have hopen : Sample.host.isOpen = true := rfl
  have hstop : (run Sample.settings Sample.host Sample.visit).phase = .stopped := by decide +kernel
  exact ⟨hopen, hstop, run_relayed Sample.settings Sample.host Sample.visit Transport.recorder .empty hopen hstop⟩

-- what the intruder sent before it was rejected comes first
example : (run Sample.settings Sample.host Sample.visit).host.outbound =
    [.publish ⟨"x", "x", .atMostOnce⟩,
      .subscribe ["root/d/toAgent/#", "root/d/command"] .atLeastOnce,
      Sample.settings.hello "nullVersion", Sample.settings.hello "d", .disconnect] := by decide +kernel

end Agent

end FlowHost
