import FlowHost.Proofs.Queueing
import Mathlib.Data.List.Basic
import Mathlib.Data.List.Induction

/-!
# Requests and their answers

Any number of handles lead to an agent, and those who ask, the queue and the agent move in any order. The agent handles
what entered the queue in its order, up to the first shutdown. Each request up to that has the answer that handling it
gave, every other one is refused, and none is answered twice or left behind.

* `Reception.demands`: **what is asked by moves**, whatever becomes of it (`Reception.asked_moves`).
* `Answer.Settled`: **where an answer comes from**, which no move takes back.
* `Reception.Farewell`: what is there before a shutdown is answered.
* `Reception.progress`, `Reception.settles`: nothing that was asked hangs.
* `Reception.requests_agree`: what asking an agent comes to.
-/

namespace FlowHost

open History

variable {s : AgentSettings} {host : Host} {r r' : Reception} {t : Ticket} {e : Answer}

/-- **Where an answer comes from.** -/
inductive Answer.Settled (s : AgentSettings) (host : Host) (r : Reception) : Answer → Prop
  /-- An event has entered the queue. -/
  | noted (t : Ticket) (ht : t ∈ r.entered) (hc : t.command.isRequest = false) :
      Settled s host r (t.answer (.ok .taken))
  /-- A request was handled when all before it in the queue had been. -/
  | handled (before : List Ticket) (t : Ticket) (after : List Ticket) (xs : List Agent.Input)
      (ht : r.taken = before ++ t :: after) (hc : t.command.isRequest = true)
      (hx : xs.filterMap Agent.Input.command? = before.map (·.command))
      (hturn : xs ++ [.command t.command] <+: r.inputs) :
      Settled s host r (t.answer (Agent.handle s t.command (Agent.run s host xs)).1)
  /-- Something was never taken, and the agent has ended. -/
  | refused (t : Ticket) (ht : t ∈ r.asked) (hn : t ∉ r.taken) (hr : r.agent.phase ≠ .running) :
      Settled s host r (t.answer (.error .agentStopped))

namespace Reception

/-! ### What is asked -/

/-- What a move asks for. -/
def Move.command? : Move → Option Command
  | .ask c => some c
  | _ => none

/-- What a move lets happen to the agent that nobody asked for. -/
def Move.passing? : Move → Option Agent.Input
  | .tick now => some (.tick now)
  | .clock now => some (.clock now)
  | _ => none

/-- Whether only time has passed. -/
def isPassing : Agent.Input → Bool
  | .tick _ | .clock _ => true
  | _ => false

/-- **What is asked by moves**, one after the other, each while there is a handle to ask through. -/
def demands (s : AgentSettings) (r : Reception) : List Move → List Command
  | [] => []
  | m :: moves => (if r.handles = 0 then [] else m.command?.toList) ++ demands s (step s r m) moves

/-- **A move that asks is noted**, and no other is. -/
theorem step_asked (s : AgentSettings) (r : Reception) (m : Move) :
    (step s r m).asked.map (·.command) =
      r.asked.map (·.command) ++ if r.handles = 0 then [] else m.command?.toList := by
  have hnone : m.command? = none → (step s r m).asked = r.asked → (step s r m).asked.map (·.command) =
      r.asked.map (·.command) ++ if r.handles = 0 then [] else m.command?.toList := by
    intro hm hsame
    rw [hsame, hm, Option.toList_none, ite_self, List.append_nil]
  cases m with
  | ask c =>
    simp only [step, ask, Move.command?, Option.toList_some]
    split
    · exact (List.append_nil _).symm
    · split <;> exact List.map_append
  | clone => exact hnone rfl (by simp only [step, clone]; split <;> rfl)
  | drop => exact hnone rfl (by simp only [step, drop]; split <;> rfl)
  | enter index => exact hnone rfl (by simp only [step, enter]; split; rfl; split <;> rfl)
  | take => exact hnone rfl (by simp only [step, take]; split <;> rfl)
  | release => exact hnone rfl (by simp only [step, release]; split <;> rfl)
  | close => exact hnone rfl (by simp only [step, close]; split <;> rfl)
  | tick now => exact hnone rfl rfl
  | clock now => exact hnone rfl rfl

/-- **Everything that is asked is noted, in the order in which it is asked**, whatever the interleaving. -/
theorem asked_moves (s : AgentSettings) (moves : List Move) (r : Reception) :
    (moves.foldl (step s) r).asked.map (·.command) = r.asked.map (·.command) ++ demands s r moves := by
  induction moves generalizing r with
  | nil => exact (List.append_nil _).symm
  | cons m moves ih => rw [List.foldl_cons, ih, step_asked, demands, List.append_assoc]

/-- Handles are left where none is given up. -/
theorem step_handles {m : Move} (hm : m ≠ .drop) (h : r.handles ≠ 0) : (step s r m).handles ≠ 0 := by
  cases m with
  | drop => exact absurd rfl hm
  | clone =>
    simp only [step, clone, if_neg h]
    exact Nat.succ_ne_zero _
  | ask c =>
    simp only [step, ask, if_neg h]
    split <;> exact h
  | enter index =>
    simp only [step, enter]
    split
    · exact h
    · split <;> exact h
  | take =>
    simp only [step, take]
    split <;> exact h
  | release =>
    simp only [step, release]
    split <;> exact h
  | close =>
    simp only [step, close]
    split <;> exact h
  | tick now => exact h
  | clock now => exact h

/-- As long as no handle is given up, every move that asks does. -/
theorem demands_eq (h : r.handles ≠ 0) {moves : List Move} (hm : ∀ m ∈ moves, m ≠ .drop) :
    demands s r moves = moves.filterMap Move.command? := by
  induction moves generalizing r with
  | nil => rfl
  | cons m moves ih =>
    obtain ⟨hfirst, hrest⟩ := List.forall_mem_cons.1 hm
    rw [demands, if_neg h, ih (step_handles hfirst h) hrest, List.filterMap_cons]
    cases m.command? <;> rfl

/-- **Time passes for the agent as the moves say.** -/
theorem passing_moves (s : AgentSettings) (moves : List Move) (r : Reception) :
    (moves.foldl (step s) r).inputs.filter isPassing = r.inputs.filter isPassing ++ moves.filterMap Move.passing? := by
  have hstep : ∀ (r : Reception) (m : Move),
      (step s r m).inputs.filter isPassing = r.inputs.filter isPassing ++ m.passing?.toList := by
    intro r m
    have hnone : m.passing? = none → (step s r m).inputs.filter isPassing = r.inputs.filter isPassing →
        (step s r m).inputs.filter isPassing = r.inputs.filter isPassing ++ m.passing?.toList := by
      intro hm hsame
      rw [hsame, hm, Option.toList_none, List.append_nil]
    cases m with
    | tick now => exact List.filter_append ..
    | clock now => exact List.filter_append ..
    | clone => exact hnone rfl (by simp only [step, clone]; split <;> rfl)
    | drop => exact hnone rfl (by simp only [step, drop]; split <;> rfl)
    | ask c => exact hnone rfl (by simp only [step, ask]; split; rfl; split <;> rfl)
    | enter index => exact hnone rfl (by simp only [step, enter]; split; rfl; split <;> rfl)
    | close => exact hnone rfl (by simp only [step, close]; split <;> rfl)
    | take =>
      refine hnone rfl ?_
      simp only [step, take]
      split
      · exact (List.filter_append ..).trans (List.append_nil _)
      · rfl
    | release =>
      refine hnone rfl ?_
      simp only [step, release]
      split
      · exact (List.filter_append ..).trans (List.append_nil _)
      · rfl
  induction moves generalizing r with
  | nil => exact (List.append_nil _).symm
  | cons m moves ih =>
    rw [List.foldl_cons, ih, hstep, List.append_assoc, List.filterMap_cons]
    cases m.passing? <;> rfl

/-! ### Nothing is taken back -/

/-- What was asked, entered, taken or done stays so, and an agent that has ended takes nothing more. -/
structure Grows (r r' : Reception) : Prop where
  asked : r.asked <+: r'.asked
  entered : r.entered <+: r'.entered
  taken : r.taken <+: r'.taken
  inputs : r.inputs <+: r'.inputs
  ended : r.agent.phase ≠ .running → r'.taken = r.taken ∧ ∃ now, r'.agent = r.agent.atTime now

theorem Happens.grows (h : Happens s r r') : Grows r r' := by
  have same : r.agent.phase ≠ .running → r.taken = r.taken ∧ ∃ now, r.agent = r.agent.atTime now :=
    fun _ => ⟨rfl, r.agent.host.clock, rfl⟩
  cases h with
  | nothing => exact ⟨List.prefix_rfl, List.prefix_rfl, List.prefix_rfl, List.prefix_rfl, same⟩
  | handles => exact ⟨List.prefix_rfl, List.prefix_rfl, List.prefix_rfl, List.prefix_rfl, same⟩
  | asks => exact ⟨List.prefix_append _ _, List.prefix_rfl, List.prefix_rfl, List.prefix_rfl, same⟩
  | refuses => exact ⟨List.prefix_append _ _, List.prefix_rfl, List.prefix_rfl, List.prefix_rfl, same⟩
  | enters => exact ⟨List.prefix_rfl, List.prefix_append _ _, List.prefix_rfl, List.prefix_rfl, same⟩
  | takes t rest hr =>
    exact ⟨List.prefix_rfl, List.prefix_rfl, List.prefix_append _ _, List.prefix_append _ _,
      fun hended => absurd hr hended⟩
  | occurs x =>
    exact ⟨List.prefix_rfl, List.prefix_rfl, List.prefix_rfl, List.prefix_append _ _,
      fun hended => ⟨rfl, Agent.step_ended hended x⟩⟩
  | closes => exact ⟨List.prefix_rfl, List.prefix_rfl, List.prefix_rfl, List.prefix_rfl, same⟩

/-- **Whatever is done after an agent has ended**, it takes nothing, and nothing about it changes but the time. -/
theorem moves_over (hr : r.agent.phase ≠ .running) (moves : List Move) :
    (moves.foldl (step s) r).taken = r.taken ∧
      ∃ now, (moves.foldl (step s) r).agent = r.agent.atTime now := by
  induction moves generalizing r with
  | nil => exact ⟨rfl, r.agent.host.clock, rfl⟩
  | cons m moves ih =>
    obtain ⟨htaken, now, hagent⟩ := (step_happens s r m).grows.ended hr
    have hr' : (step s r m).agent.phase ≠ .running := by rwa [hagent]
    obtain ⟨htaken', now', hagent'⟩ := ih hr'
    refine ⟨htaken'.trans htaken, now', ?_⟩
    rw [List.foldl_cons, hagent', hagent]
    rfl

end Reception

namespace Answer

open Reception

/-- Where an answer comes from stays so. -/
theorem Settled.grows (h : Settled s host r e) (hg : Grows r r') : Settled s host r' e := by
  cases h with
  | noted t ht hc => exact .noted t (hg.entered.subset ht) hc
  | handled before t after xs ht hc hx hturn =>
    obtain ⟨more, hmore⟩ := hg.taken
    refine .handled before t (after ++ more) xs ?_ hc hx (hturn.trans hg.inputs)
    rw [← hmore, ht, List.append_assoc, List.cons_append]
  | refused t ht hn hr =>
    obtain ⟨htaken, now, hagent⟩ := hg.ended hr
    refine .refused t (hg.asked.subset ht) (by rwa [htaken]) ?_
    rwa [hagent]

/-- **An answer that a move gives comes from there.** -/
theorem settled_happens (h : Reached s host r) (hm : Happens s r r')
    (hall : ∀ e ∈ r.answers, Settled s host r e) : ∀ e ∈ r'.answers, Settled s host r' e := by
  have hold : ∀ e ∈ r.answers, Settled s host r' e := fun e he => (hall e he).grows hm.grows
  have hfirst : ∀ u ∈ r.taken, u ∈ r.asked := fun u hu =>
    h.ordered.origin u (List.mem_append_left _ (h.ordered.taken.subset hu))
  intro e he
  cases hm with
  | refuses c hh ho =>
    obtain he | he := List.mem_append.1 he
    · exact hold e he
    · obtain rfl := List.mem_singleton.1 he
      refine .refused ⟨r.asked.length, c⟩ (by simp) (fun ht => ?_) (h.ended.closed ho)
      exact absurd (h.ordered.number_lt (hfirst _ ht)) (Nat.lt_irrefl _)
  | enters i t hw =>
    obtain he | he := List.mem_append.1 he
    · exact hold e he
    · split at he
      · cases he
      · rename_i hc
        obtain rfl := List.mem_singleton.1 he
        exact .noted t (by simp) (Bool.eq_false_iff.2 hc)
  | takes t rest hr hq =>
    obtain he | he := List.mem_append.1 he
    · exact hold e he
    · split at he
      · rename_i hc
        obtain rfl := List.mem_singleton.1 he
        have hagent := h.follows.agent
        rw [hagent]
        exact .handled r.taken t [] r.inputs rfl hc h.follows.commands List.prefix_rfl
      · cases he
  | closes hr ho =>
    obtain he | he := List.mem_append.1 he
    · exact hold e he
    · obtain ⟨t, ht, rfl⟩ := List.mem_map.1 he
      -- what was pending is in the queue behind all that was taken, or waits
      have hleft := h.ordered.left ho
      have hplace : t ∈ r.queue ++ r.waiting :=
        (List.mem_append.1 ht).elim (fun hq => List.mem_append_left _ (List.mem_of_mem_filter hq))
          fun hw => List.mem_append_right _ hw
      have hdistinct := h.ordered.distinct
      have horigin := h.ordered.origin t
      rw [hleft, List.append_assoc] at hdistinct horigin
      exact .refused t (horigin (List.mem_append_right _ hplace))
        (fun htaken => (List.nodup_append.1 hdistinct).2.2 t htaken t hplace rfl) hr
  | _ => exact hold e he

end Answer

namespace Reception

theorem run_settled (s : AgentSettings) (host : Host) (moves : List Move) :
    ∀ e ∈ (run s host moves).answers, e.Settled s host (run s host moves) := by
  suffices h : ∀ r, Reached s host r → (∀ e ∈ r.answers, e.Settled s host r) →
      ∀ e ∈ (moves.foldl (step s) r).answers, e.Settled s host (moves.foldl (step s) r) from
    h (start s host) (reached_start s host) nofun
  -- on the moves to come
  induction moves with
  | nil => exact fun r _ hall => hall
  | cons m moves ih =>
    intro r h hall
    have hm := step_happens s r m
    exact ih (step s r m) (h.happens hm) (Answer.settled_happens h hm hall)

/-! ### Nothing hangs -/

/-- Whether the queue or the agent makes a move because of what was asked. -/
def Move.isOwn : Move → Bool
  | .enter _ | .take | .close => true
  | _ => false

/-- How many such moves there are at most until somebody asks for something more. -/
def backlog (r : Reception) : Nat := 2 * r.waiting.length + r.queue.length + if r.isOpen then 1 else 0

/-- **Such a move takes something off the backlog**, or does nothing. -/
theorem own_dwindles {m : Move} (hm : m.isOwn = true) : step s r m = r ∨ (step s r m).backlog < r.backlog := by
  cases m with
  | enter index =>
    show r.enter s index = r ∨ (r.enter s index).backlog < r.backlog
    unfold enter
    split
    · exact .inl rfl
    · rename_i t hw
      split
      · obtain ⟨hi, -⟩ := List.getElem?_eq_some_iff.1 hw
        have hwaiting := List.length_eraseIdx_of_lt hi
        refine .inr ?_
        simp only [backlog, hwaiting, List.length_append, List.length_singleton]
        omega
      · exact .inl rfl
  | take =>
    show r.take s = r ∨ (r.take s).backlog < r.backlog
    unfold take
    split
    · rename_i t rest hr hq
      refine .inr ?_
      simp only [backlog, hq, List.length_cons]
      omega
    · exact .inl rfl
  | close =>
    show r.close = r ∨ r.close.backlog < r.backlog
    unfold close
    split
    · exact .inl rfl
    · rename_i h
      rw [not_or, Bool.not_eq_false] at h
      refine .inr ?_
      simp only [backlog, h.2, List.length_nil, if_true, Bool.false_eq_true, if_false]
      omega
  | _ => cases hm

/-- **As long as something is pending there is such a move to make.** -/
theorem progress (h : Reached s host r) (hp : r.pending ≠ []) :
    ∃ m : Move, m.isOwn = true ∧ (step s r m).backlog < r.backlog := by
  have ho : r.isOpen = true := by
    rw [← Bool.not_eq_false]
    intro hc
    obtain ⟨hq, hw⟩ := h.ordered.closed hc
    exact hp (by rw [pending, hq, hw]; rfl)
  by_cases hr : r.agent.phase = .running
  · cases hq : r.queue with
    | cons t rest =>
      refine ⟨.take, rfl, ?_⟩
      simp only [step, take, hr, hq, backlog, List.length_cons]
      omega
    | nil =>
      cases hw : r.waiting with
      | nil => exact absurd (by rw [pending, hq, hw]; rfl) hp
      | cons t rest =>
        refine ⟨.enter 0, rfl, ?_⟩
        have hroom : 0 < max s.options.capacity 1 := by omega
        simp only [step, enter, hq, hw, List.getElem?_cons_zero, List.length_nil, if_pos hroom, backlog,
          List.eraseIdx_cons_zero, List.length_append, List.length_cons]
        omega
  · have hends : ¬ (r.agent.phase = .running ∨ r.isOpen = false) := by simp [hr, ho]
    have hclosed : (step s r .close).isOpen = false := by simp only [step, close, if_neg hends]
    refine ⟨.close, rfl, (own_dwindles rfl).resolve_left fun hsame => ?_⟩
    rw [hsame, ho] at hclosed
    cases hclosed

/-- **Whatever is pending can be answered without anybody's doing.** -/
theorem settles (h : Reached s host r) : ∃ moves : List Move, (∀ m ∈ moves, m.isOwn = true) ∧
    moves.length ≤ r.backlog ∧ (moves.foldl (step s) r).pending = [] := by
  -- on the backlog
  induction hn : r.backlog using Nat.strong_induction_on generalizing r with
  | _ n ih =>
    by_cases hp : r.pending = []
    · exact ⟨[], nofun, Nat.zero_le n, hp⟩
    · obtain ⟨m, hm, hless⟩ := progress h hp
      obtain ⟨moves, hown, hlength, hdone⟩ := ih _ (hn ▸ hless) (h.happens (step_happens s r m)) rfl
      refine ⟨m :: moves, ?_, ?_, hdone⟩
      · rintro m' (_ | ⟨_, hm'⟩)
        · exact hm
        · exact hown m' hm'
      · rw [List.length_cons]
        omega

/-! ### Places in the queue -/

/-- What comes first and lacks something is before it. -/
theorem prefix_of_not_mem {before after taken : List Ticket} (h : taken <+: before ++ t :: after)
    (ht : t ∉ taken) : taken <+: before := by
  by_cases hlength : taken.length ≤ before.length
  · exact List.prefix_of_prefix_length_le h (List.prefix_append _ _) hlength
  · exfalso
    have hplace : before ++ [t] <+: before ++ t :: after := ⟨after, by simp⟩
    have hmore : before ++ [t] <+: taken := by
      refine List.prefix_of_prefix_length_le hplace h ?_
      rw [List.length_append, List.length_singleton]
      omega
    exact ht (hmore.subset (by simp))

/-- **Nothing behind the first shutdown is taken.** -/
theorem Reached.taken_before (h : Reached s host r) {before after : List Ticket}
    (he : r.entered = before ++ t :: after) (hc : ∃ u ∈ before, u.command = .shutdown) : r.taken <+: before := by
  have htaken := h.ordered.taken
  rw [he] at htaken
  by_cases hlength : r.taken.length ≤ before.length
  · exact List.prefix_of_prefix_length_le htaken (List.prefix_append _ _) hlength
  · -- else the shutdown was taken, and not last
    exfalso
    obtain ⟨u, hu, hshut⟩ := hc
    have hmore : before <+: r.taken.dropLast := by
      refine List.prefix_of_prefix_length_le (List.prefix_append _ _)
        ((List.dropLast_prefix r.taken).trans htaken) ?_
      rw [List.length_dropLast]
      omega
    exact h.ended.first u (hmore.subset hu) hshut

/-- A place in the queue is known by what is there. -/
theorem Reached.before_unique (h : Reached s host r) {before after before' after' : List Ticket}
    (he : r.entered = before ++ t :: after) (ht : r.taken = before' ++ t :: after') : before' = before := by
  obtain ⟨more, hmore⟩ := h.ordered.taken
  have hnodup : r.entered.Nodup := (List.nodup_append.1 h.ordered.distinct).1
  have hsame : before ++ t :: after = before' ++ t :: (after' ++ more) := by
    rw [← he, ← hmore, ht, List.append_assoc, List.cons_append]
  rw [he, List.nodup_middle, List.nodup_cons, List.mem_append, not_or] at hnodup
  exact ((List.append_cons_inj_of_notMem hnodup.1.1 hnodup.1.2).1 hsame).1.symm

/-! ### What an answer says -/

/-- **What is there before a shutdown is answered**: the shutdown of the guest, if there is one, has run, the disconnect
is queued behind all that the guest sent, and nothing has been done since. -/
structure Farewell (a : Agent) (closing : List Occurrence) (r : Reception) : Prop where
  closes : Agent.IsClosing a.active closing
  history : r.agent.host.history =
    a.host.history ++ (closing ++ if a.host.isOpen then [.queued none .disconnect] else [])
  outbound : a.host.isOpen = true → r.agent.host.outbound.getLast? = some .disconnect
  active : r.agent.active = none
  phase : r.agent.phase = .stopped

/-- **What asking an agent has come to after some moves.** -/
structure Agrees (s : AgentSettings) (host : Host) (moves : List Move) (r : Reception) : Prop where
  /-- Everything that is asked while there is a handle is noted as it is asked, -/
  asks : r.asked.map (·.command) = demands s (start s host) moves
  /-- which is everything that the moves ask for, as long as they give up no handle. -/
  asksAll : (∀ m ∈ moves, m ≠ .drop) → r.asked.map (·.command) = moves.filterMap Move.command?
  /-- Time passes as the moves say. -/
  passes : r.inputs.filter isPassing = moves.filterMap Move.passing?
  /-- The agent is what the commands that it took have made of it, one after the other, and the time between them. -/
  agent : r.agent = Agent.run s host r.inputs
  commands : r.inputs.filterMap Agent.Input.command? = r.taken.map (·.command)
  /-- It takes what entered the queue first, -/
  order : r.taken <+: r.entered
  left : r.isOpen = true → r.entered = r.taken ++ r.queue
  /-- and nothing enters twice or unasked. -/
  distinct : r.entered.Nodup
  origin : ∀ t ∈ r.entered, t ∈ r.asked
  numbered : r.asked.map (·.number) = List.range r.asked.length
  /-- Whatever was asked is answered once, or is pending once. -/
  once : ∀ n, r.answers.countP (·.number == n) + r.pending.countP (·.number == n) =
    if n < r.asked.length then 1 else 0
  /-- What is pending can be answered without anybody's doing, -/
  settles : ∃ moves : List Move, (∀ m ∈ moves, m.isOwn = true) ∧ moves.length ≤ r.backlog ∧
    (moves.foldl (step s) r).pending = []
  /-- and as long as anything is pending there is a move that brings this nearer, and none that does not. -/
  goes : r.pending ≠ [] → ∃ m : Move, m.isOwn = true ∧ (step s r m).backlog < r.backlog
  dwindles : ∀ m : Move, m.isOwn = true → step s r m = r ∨ (step s r m).backlog < r.backlog
  /-- A request that is the first shutdown in the queue or before it is answered with what handling it gives, after the
  commands before it and no other. The agent has done so in its turn, unless it crashed on something before. -/
  handled : ∀ before t after, r.entered = before ++ t :: after → t.command.isRequest = true →
    (∀ u ∈ before, u.command ≠ .shutdown) → ∀ result, t.answer result ∈ r.answers →
      ∃ xs, xs.filterMap Agent.Input.command? = before.map (·.command) ∧
        result = (Agent.handle s t.command (Agent.run s host xs)).1 ∧
        ((Agent.run s host xs).phase ≠ .crashed → xs ++ [.command t.command] <+: r.inputs)
  /-- With a shutdown the agent stops. -/
  stops : ∀ t ∈ r.taken, t.command = .shutdown → r.agent.phase = .stopped
  /-- Behind the first shutdown nothing is taken, and all requests are refused. -/
  behind : ∀ before t after, r.entered = before ++ t :: after → (∃ u ∈ before, u.command = .shutdown) →
    r.taken <+: before ∧ (t.command.isRequest = true → ∀ result, t.answer result ∈ r.answers →
      result = .error .agentStopped)
  /-- What never entered the queue is refused, and only when the agent has ended. -/
  outside : ∀ t ∈ r.asked, t ∉ r.entered → ∀ result, t.answer result ∈ r.answers →
    result = .error .agentStopped ∧ r.agent.phase ≠ .running
  farewell : ∀ t ∈ r.asked, t.command = .shutdown → t.answer (.ok .taken) ∈ r.answers →
    ∃ xs closing, xs ++ [.command .shutdown] <+: r.inputs ∧ (Agent.run s host xs).phase = .running ∧
      Farewell (Agent.run s host xs) closing r
  /-- Once the agent has ended nothing about it changes any more but the time. -/
  quiet : r.agent.phase ≠ .running → ∀ moves : List Move, (moves.foldl (step s) r).taken = r.taken ∧
    ∃ now, (moves.foldl (step s) r).agent = r.agent.atTime now

/-- An agent that has ended refuses everything. -/
theorem handle_ended {a : Agent} (hr : a.phase ≠ .running) (c : Command) :
    (Agent.handle s c a).1 = .error .agentStopped := by
  unfold Agent.handle
  rw [if_neg hr]

/-- Where the answer to something that was asked comes from. -/
theorem Reached.answered (h : Reached s host r) (hall : ∀ e ∈ r.answers, e.Settled s host r) (ht : t ∈ r.asked)
    {result : Except Error Reply} (hr : t.answer result ∈ r.answers) :
    (t ∈ r.entered ∧ t.command.isRequest = false) ∨
      (∃ before after xs, r.taken = before ++ t :: after ∧
        xs.filterMap Agent.Input.command? = before.map (·.command) ∧ xs ++ [.command t.command] <+: r.inputs ∧
        result = (Agent.handle s t.command (Agent.run s host xs)).1) ∨
      t ∉ r.taken ∧ r.agent.phase ≠ .running ∧ result = .error .agentStopped := by
  have hsettled := hall _ hr
  have hentered : ∀ u ∈ r.entered, u ∈ r.asked := fun u hu => h.ordered.origin u (List.mem_append_left _ hu)
  generalize hanswer : t.answer result = e at hsettled
  cases hsettled with
  | noted u hu hc =>
    obtain ⟨hnumber, -⟩ := Answer.mk.inj hanswer
    obtain rfl := h.ordered.unique ht (hentered u hu) hnumber
    exact .inl ⟨hu, hc⟩
  | handled before u after xs hu hc hx hturn =>
    obtain ⟨hnumber, hresult⟩ := Answer.mk.inj hanswer
    have hmem : u ∈ r.taken := by simp [hu]
    obtain rfl := h.ordered.unique ht (hentered u (h.ordered.taken.subset hmem)) hnumber
    exact .inr (.inl ⟨before, after, xs, hu, hx, hturn, hresult⟩)
  | refused u hu hn hended =>
    obtain ⟨hnumber, hresult⟩ := Answer.mk.inj hanswer
    obtain rfl := h.ordered.unique ht hu hnumber
    exact .inr (.inr ⟨hn, hended, hresult⟩)

/-- An agent that has ended is the same after all that happens to it, but for the time. -/
theorem agent_over {xs ys : List Agent.Input} (hr : (Agent.run s host xs).phase ≠ .running) (h : xs <+: ys) :
    ∃ now, Agent.run s host ys = (Agent.run s host xs).atTime now := by
  obtain ⟨more, rfl⟩ := h
  induction more using List.reverseRecOn with
  | nil =>
    rw [List.append_nil]
    exact ⟨_, rfl⟩
  | append_singleton more x ih =>
    obtain ⟨now, hsame⟩ := ih
    have hr' : (Agent.run s host (xs ++ more)).phase ≠ .running := by rwa [hsame]
    obtain ⟨now', hnext⟩ := Agent.step_ended (s := s) hr' x
    refine ⟨now', ?_⟩
    rw [← List.append_assoc, Agent.run_concat, hnext, hsame]
    rfl

/-- **What was never taken and is not behind a shutdown** is left over from a crash. -/
theorem Reached.crashed_of_not_taken (h : Reached s host r) {before after : List Ticket}
    (he : r.entered = before ++ t :: after) (hn : t ∉ r.taken) (hnone : ∀ u ∈ before, u.command ≠ .shutdown)
    (hended : r.agent.phase ≠ .running) : r.agent.phase = .crashed := by
  cases hp : r.agent.phase with
  | running => exact absurd hp hended
  | crashed => rfl
  | stopped =>
    -- then a shutdown was taken, and so it is before; or nothing was left
    exfalso
    obtain ⟨u, hu, hshut⟩ | ⟨-, hempty⟩ := h.ended.stopped hp
    · have hbefore := prefix_of_not_mem (he ▸ h.ordered.taken) hn
      exact hnone u (hbefore.subset hu) hshut
    · exact hn (hempty ▸ he ▸ by simp)

/-- **Up to the first shutdown a request is answered with what handling it gives.** -/
theorem Reached.handled (h : Reached s host r) (hall : ∀ e ∈ r.answers, e.Settled s host r)
    {before after : List Ticket} (he : r.entered = before ++ t :: after) (hc : t.command.isRequest = true)
    (hnone : ∀ u ∈ before, u.command ≠ .shutdown) {result : Except Error Reply} (hr : t.answer result ∈ r.answers) :
    ∃ xs, xs.filterMap Agent.Input.command? = before.map (·.command) ∧
      result = (Agent.handle s t.command (Agent.run s host xs)).1 ∧
      ((Agent.run s host xs).phase ≠ .crashed → xs ++ [.command t.command] <+: r.inputs) := by
  have ht : t ∈ r.asked := h.ordered.origin t (List.mem_append_left _ (by simp [he]))
  obtain ⟨-, hevent⟩ | ⟨before', after', xs, htaken, hx, hturn, hresult⟩ | ⟨hn, hended, hresult⟩ :=
    h.answered hall ht hr
  · rw [hc] at hevent
    cases hevent
  · obtain rfl := h.before_unique he htaken
    exact ⟨xs, hx, hresult, fun _ => hturn⟩
  · -- after a crash nothing more is taken, and to handle the rest would give no other answer
    obtain ⟨rest, hrest⟩ := prefix_of_not_mem (he ▸ h.ordered.taken) hn
    have hcrashed := h.crashed_of_not_taken he hn hnone hended
    rw [h.follows.agent] at hended hcrashed
    obtain ⟨now, hsame⟩ := agent_over hended (List.prefix_append r.inputs (rest.map fun u => .command u.command))
    have hphase : (Agent.run s host (r.inputs ++ rest.map fun u => .command u.command)).phase = .crashed := by
      rw [hsame]
      exact hcrashed
    refine ⟨_, ?_, ?_, fun hgoes => absurd hphase hgoes⟩
    · have hcommands : (rest.map fun u => Agent.Input.command u.command).filterMap Agent.Input.command? =
          rest.map (·.command) := by
        rw [List.filterMap_map, ← List.filterMap_eq_map]
        rfl
      rw [List.filterMap_append, h.follows.commands, hcommands, ← List.map_append, hrest]
    · rw [hresult, handle_ended (by simp [hphase])]

/-- **Behind the first shutdown a request is refused.** -/
theorem Reached.behind (h : Reached s host r) (hall : ∀ e ∈ r.answers, e.Settled s host r)
    {before after : List Ticket} (he : r.entered = before ++ t :: after) (hc : t.command.isRequest = true)
    (hshut : ∃ u ∈ before, u.command = .shutdown) {result : Except Error Reply} (hr : t.answer result ∈ r.answers) :
    result = .error .agentStopped := by
  have ht : t ∈ r.asked := h.ordered.origin t (List.mem_append_left _ (by simp [he]))
  obtain ⟨-, hevent⟩ | ⟨before', after', xs, htaken, -⟩ | ⟨-, -, hresult⟩ := h.answered hall ht hr
  · rw [hc] at hevent
    cases hevent
  · -- the shutdown would be among what was taken before it
    exfalso
    obtain rfl := h.before_unique he htaken
    have hlength := (h.taken_before he hshut).length_le
    rw [htaken, List.length_append, List.length_cons] at hlength
    omega
  · exact hresult

/-- **What never entered the queue is refused**, when the agent has ended. -/
theorem Reached.outside (h : Reached s host r) (hall : ∀ e ∈ r.answers, e.Settled s host r) (ht : t ∈ r.asked)
    (hn : t ∉ r.entered) {result : Except Error Reply} (hr : t.answer result ∈ r.answers) :
    result = .error .agentStopped ∧ r.agent.phase ≠ .running := by
  obtain ⟨hentered, -⟩ | ⟨before, after, xs, htaken, -⟩ | ⟨-, hended, hresult⟩ := h.answered hall ht hr
  · exact absurd hentered hn
  · exact absurd (h.ordered.taken.subset (by simp [htaken])) hn
  · exact ⟨hresult, hended⟩

/-- The last that an agent queues is the disconnect. -/
theorem stop_outbound {a : Agent} (hs : a.Sound s) (ho : a.host.isOpen = true) :
    a.stop.host.outbound.getLast? = some .disconnect := by
  have hout := (Agent.stop_does hs).takes.outbound ho
  rw [hout, Agent.stopping, List.flatMap_append, ← List.append_assoc]
  exact List.getLast?_concat

/-- **A shutdown is answered when the agent has said farewell.** -/
theorem Reached.farewell (h : Reached s host r) (hall : ∀ e ∈ r.answers, e.Settled s host r) (ht : t ∈ r.asked)
    (hc : t.command = .shutdown) (hr : t.answer (.ok .taken) ∈ r.answers) :
    ∃ xs closing, xs ++ [.command .shutdown] <+: r.inputs ∧ (Agent.run s host xs).phase = .running ∧
      Farewell (Agent.run s host xs) closing r := by
  obtain ⟨-, hevent⟩ | ⟨before, after, xs, -, -, hturn, hresult⟩ | ⟨-, -, hresult⟩ := h.answered hall ht hr
  · rw [hc] at hevent
    cases hevent
  · set a := Agent.run s host xs with ha
    have hrunning : a.phase = .running := by
      by_contra hended
      rw [handle_ended hended] at hresult
      cases hresult
    rw [hc] at hturn
    have hstop : Agent.run s host (xs ++ [.command .shutdown]) = a.stop := by
      rw [Agent.run_concat, ← ha]
      simp only [Agent.step, Agent.handle, if_pos hrunning]
    have hover : (Agent.run s host (xs ++ [.command .shutdown])).phase ≠ .running := by
      rw [hstop]
      intro hrun
      cases hrun
    obtain ⟨now, hnow⟩ := agent_over hover hturn
    rw [hstop, ← h.follows.agent] at hnow
    have hsound : a.Sound s := Agent.run_sound s host xs
    obtain ⟨closing, hcloses, hleads, hfields⟩ := Agent.stop_leads hsound
    refine ⟨xs, closing, hturn, hrunning, hcloses, ?_, fun ho => ?_, ?_, ?_⟩
    · rw [hnow]
      exact hleads.history
    · rw [hnow]
      exact stop_outbound hsound ho
    · rw [hnow, hfields]
      rfl
    · rw [hnow, hfields]
      rfl
  · cases hresult

/-- **Requests and answers agree**, whatever the interleaving of any number of handles, the queue and the agent. -/
theorem requests_agree (s : AgentSettings) (host : Host) (moves : List Move) :
    Agrees s host moves (run s host moves) := by
  have h := run_reached s host moves
  have hall := run_settled s host moves
  have hasks := asked_moves s moves (start s host)
  exact
    { asks := hasks
      asksAll := fun hkeeps => hasks.trans (demands_eq Nat.one_ne_zero hkeeps)
      passes := passing_moves s moves (start s host)
      agent := h.follows.agent
      commands := h.follows.commands
      order := h.ordered.taken
      left := h.ordered.left
      distinct := (List.nodup_append.1 h.ordered.distinct).1
      origin := fun t ht => h.ordered.origin t (List.mem_append_left _ ht)
      numbered := h.ordered.numbered
      once := h.counted
      settles := settles h
      goes := progress h
      dwindles := fun m hm => own_dwindles hm
      handled := fun before t after he hc hnone result hr => h.handled hall he hc hnone hr
      stops := h.ended.shutdown
      behind := fun before t after he hshut =>
        ⟨h.taken_before he hshut, fun hc result hr => h.behind hall he hc hshut hr⟩
      outside := fun t ht hn result hr => h.outside hall ht hn hr
      farewell := fun t ht hc hr => h.farewell hall ht hc hr
      quiet := fun hr more => moves_over hr more }

-- with room for one: behind a shutdown one request is in the queue, one waits, and one comes too late
example : ((run { Sample.settings with options.capacity := 1 } Sample.host [.clone, .ask .info, .enter 0,
      .ask .shutdown, .ask .info, .ask .shutdown, .enter 0, .take, .enter 0, .take, .enter 0, .close,
      .ask .info]).answers.map fun e => (e.number, e.result.isOk)) =
    [(0, true), (1, true), (2, false), (3, false), (4, false)] := by decide +kernel

end Reception

end FlowHost
