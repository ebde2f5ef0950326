import FlowHost.Agent.Reception
import FlowHost.Proofs.Outbox
import Mathlib.Data.List.Nodup
import Mathlib.Data.List.Perm.Basic

/-!
# The queue before an agent

Whatever the interleaving, the agent takes what entered the queue in its order, and nothing behind the first shutdown.
At every time each number that was given out is answered once, or is pending once.

* `Reception.Happens`: **what a move can come to**, case by case.
* `Reception.Ordered`, `Ended`, `Follows`, `Counted`: what every interleaving keeps (`Reception.run_reached`).
-/

namespace FlowHost

namespace Agent

variable {s : AgentSettings} {host : Host} {a : Agent}

/-- The command that happens to an agent. -/
def Input.command? : Input → Option Command
  | .command c => some c
  | _ => none

theorem run_concat (s : AgentSettings) (host : Host) (xs : List Input) (x : Input) :
    run s host (xs ++ [x]) = step s (run s host xs) x := by
  unfold run
  rw [List.foldl_append]
  rfl

/-- An agent at some time. -/
def atTime (a : Agent) (now : UInt64) : Agent := { a with host := { a.host with clock := now } }

/-- **An agent that has ended only notices the time.** -/
theorem step_ended (hr : a.phase ≠ .running) (x : Input) : ∃ now, step s a x = a.atTime now := by
  have h := step_handles s a x
  generalize step s a x = a', stepActivities s a x = acts at h ⊢
  cases h with
  | @clock now => exact ⟨now, rfl⟩
  | idle => exact ⟨a.host.clock, rfl⟩
  | _ hr' => exact absurd hr' hr

theorem step_ended_phase (hr : a.phase ≠ .running) (x : Input) : (step s a x).phase = a.phase := by
  obtain ⟨now, h⟩ := step_ended (s := s) hr x
  rw [h]
  rfl

/-- Only a shutdown or the loss of the last handle stops an agent. -/
theorem step_stopped (hs : Sound s a) (x : Input) (h : (step s a x).phase = .stopped) :
    a.phase = .stopped ∨ x = .command .shutdown ∨ x = .release := by
  obtain ⟨hx, -⟩ | ⟨-, hstays⟩ := stepActivities_cases hs x
  · exact .inr hx
  · exact .inl (hstays h)

end Agent

namespace Reception

variable {s : AgentSettings} {host : Host} {r r' : Reception} {t : Ticket}

/-- **What a move can come to.** -/
inductive Happens (s : AgentSettings) (r : Reception) : Reception → Prop
  | nothing : Happens s r r
  /-- Handles are made or given up, the last one only if nothing is pending. -/
  | handles (n : Nat) (hn : n = 0 → r.handles = 0 ∨ r.pending = []) (h : r.handles = 0 → n = 0) :
      Happens s r { r with handles := n }
  | asks (c : Command) (hh : r.handles ≠ 0) (ho : r.isOpen = true) :
      Happens s r { r with
        asked := r.asked ++ [⟨r.asked.length, c⟩]
        waiting := r.waiting ++ [⟨r.asked.length, c⟩] }
  | refuses (c : Command) (hh : r.handles ≠ 0) (ho : r.isOpen = false) :
      Happens s r { r with
        asked := r.asked ++ [⟨r.asked.length, c⟩]
        answers := r.answers ++ [⟨r.asked.length, .error .agentStopped⟩] }
  | enters (i : Nat) (t : Ticket) (hw : r.waiting[i]? = some t) :
      Happens s r { r with
        waiting := r.waiting.eraseIdx i
        queue := r.queue ++ [t]
        entered := r.entered ++ [t]
        answers := r.answers ++ if t.command.isRequest then [] else [t.answer (.ok .taken)] }
  | takes (t : Ticket) (rest : List Ticket) (hr : r.agent.phase = .running) (hq : r.queue = t :: rest) :
      Happens s r { r with
        agent := Agent.step s r.agent (.command t.command)
        queue := rest
        taken := r.taken ++ [t]
        inputs := r.inputs ++ [.command t.command]
        answers := r.answers ++
          if t.command.isRequest then [t.answer (Agent.handle s t.command r.agent).1] else [] }
  /-- Something happens to the agent that nobody asked for. -/
  | occurs (x : Agent.Input) (hx : x.command? = none) (hlast : x = .release → r.handles = 0 ∧ r.queue = []) :
      Happens s r { r with agent := Agent.step s r.agent x, inputs := r.inputs ++ [x] }
  | closes (hr : r.agent.phase ≠ .running) (ho : r.isOpen = true) :
      Happens s r { r with
        isOpen := false
        queue := []
        waiting := []
        answers := r.answers ++ r.pending.map (·.answer (.error .agentStopped)) }

theorem clone_happens (s : AgentSettings) (r : Reception) : Happens s r r.clone := by
  unfold clone
  split
  · exact .nothing
  · rename_i hh
    exact .handles _ (fun h => absurd h (Nat.succ_ne_zero _)) fun h => absurd h hh

theorem drop_happens (s : AgentSettings) (r : Reception) : Happens s r r.drop := by
  unfold drop
  split
  · exact .nothing
  · rename_i hlast
    refine .handles _ (fun hn => ?_) fun h => by rw [h]
    by_cases hone : r.handles = 1
    · exact .inr (not_not.1 fun hp => hlast ⟨hone, hp⟩)
    · exact .inl (by omega)

theorem ask_happens (s : AgentSettings) (c : Command) (r : Reception) : Happens s r (r.ask c) := by
  unfold ask
  simp only
  split
  · exact .nothing
  · rename_i hh
    split
    · rename_i ho
      exact .asks c hh ho
    · rename_i ho
      exact .refuses c hh (Bool.eq_false_iff.2 ho)

theorem enter_happens (s : AgentSettings) (index : Nat) (r : Reception) : Happens s r (r.enter s index) := by
  unfold enter
  split
  · exact .nothing
  · rename_i t hw
    split
    · exact .enters index t hw
    · exact .nothing

theorem take_happens (s : AgentSettings) (r : Reception) : Happens s r (r.take s) := by
  unfold take
  split
  · rename_i t rest hr hq
    exact .takes t rest hr hq
  · exact .nothing

theorem release_happens (s : AgentSettings) (r : Reception) : Happens s r (r.release s) := by
  unfold release
  split
  · rename_i hlast
    exact .occurs .release rfl fun _ => hlast
  · exact .nothing

theorem close_happens (s : AgentSettings) (r : Reception) : Happens s r r.close := by
  unfold close
  split
  · exact .nothing
  · rename_i h
    rw [not_or, Bool.not_eq_false] at h
    exact .closes h.1 h.2

/-- **Every move is one of these.** -/
theorem step_happens (s : AgentSettings) (r : Reception) (m : Move) : Happens s r (step s r m) := by
  cases m with
  | clone => exact clone_happens s r
  | drop => exact drop_happens s r
  | ask c => exact ask_happens s c r
  | enter index => exact enter_happens s index r
  | take => exact take_happens s r
  | tick now => exact .occurs (.tick now) rfl fun h => nomatch h
  | clock now => exact .occurs (.clock now) rfl fun h => nomatch h
  | release => exact release_happens s r
  | close => exact close_happens s r

/-! ### The order of the queue -/

/-- **What was asked has one place**: it waits, or has entered the queue, or neither if it was refused. What was taken
is what entered first. -/
structure Ordered (r : Reception) : Prop where
  numbered : r.asked.map (·.number) = List.range r.asked.length
  taken : r.taken <+: r.entered
  left : r.isOpen = true → r.entered = r.taken ++ r.queue
  origin : ∀ t ∈ r.entered ++ r.waiting, t ∈ r.asked
  distinct : (r.entered ++ r.waiting).Nodup
  closed : r.isOpen = false → r.queue = [] ∧ r.waiting = []

namespace Ordered

theorem number_lt (h : Ordered r) (ht : t ∈ r.asked) : t.number < r.asked.length := by
  have hm : t.number ∈ r.asked.map (·.number) := List.mem_map_of_mem ht
  rw [h.numbered] at hm
  exact List.mem_range.1 hm

/-- No two things that were asked have one number. -/
theorem unique (h : Ordered r) {u : Ticket} (ht : t ∈ r.asked) (hu : u ∈ r.asked) (hn : t.number = u.number) :
    t = u := by
  have hnodup : (r.asked.map (·.number)).Nodup := h.numbered ▸ List.nodup_range
  exact List.inj_on_of_nodup_map hnodup ht hu hn

/-- What waits for room has not yet entered. -/
theorem entering {i : Nat} (hw : r.waiting[i]? = some t) :
    (r.entered ++ [t] ++ r.waiting.eraseIdx i).Perm (r.entered ++ r.waiting) := by
  obtain ⟨hi, rfl⟩ := List.getElem?_eq_some_iff.1 hw
  rw [List.append_assoc, List.singleton_append]
  exact (List.getElem_cons_eraseIdx_perm hi).append_left _

theorem isOpen_of_waiting (h : Ordered r) {i : Nat} (hw : r.waiting[i]? = some t) : r.isOpen = true := by
  cases ho : r.isOpen with
  | true => rfl
  | false =>
    rw [(h.closed ho).2] at hw
    cases hw

theorem happens (h : Ordered r) (hm : Happens s r r') : Ordered r' := by
  have hnew : ∀ c : Command, (r.asked ++ [(⟨r.asked.length, c⟩ : Ticket)]).map Ticket.number =
      List.range (r.asked ++ [(⟨r.asked.length, c⟩ : Ticket)]).length := by
    intro c
    rw [List.map_append, h.numbered, List.length_append, List.length_singleton, List.range_succ]
    rfl
  cases hm with
  | nothing => exact h
  | handles n => exact ⟨h.numbered, h.taken, h.left, h.origin, h.distinct, h.closed⟩
  | asks c hh ho =>
    refine ⟨hnew c, h.taken, h.left, ?_, ?_, fun hc => absurd (ho.symm.trans hc) nofun⟩
    · intro t ht
      rw [← List.append_assoc, List.mem_append] at ht
      exact List.mem_append.2 (ht.imp (h.origin t) id)
    · -- the number is a new one
      rw [← List.append_assoc]
      refine h.distinct.append (List.nodup_singleton _) fun t ht hnewest => ?_
      obtain rfl := List.mem_singleton.1 hnewest
      exact absurd (h.number_lt (h.origin _ ht)) (Nat.lt_irrefl _)
  | refuses c hh ho =>
    exact ⟨hnew c, h.taken, h.left, fun t ht => List.mem_append_left _ (h.origin t ht), h.distinct, h.closed⟩
  | enters i t hw =>
    have ho := h.isOpen_of_waiting hw
    refine ⟨h.numbered, h.taken.trans (List.prefix_append _ _), fun _ => ?_, fun u hu => ?_, ?_, ?_⟩
    · rw [h.left ho, List.append_assoc]
    · exact h.origin u ((entering hw).mem_iff.1 hu)
    · exact (entering hw).nodup_iff.2 h.distinct
    · exact fun hc => absurd (ho.symm.trans hc) nofun
  | takes t rest hr hq =>
    have ho : r.isOpen = true := by
      cases ho : r.isOpen with
      | true => rfl
      | false => exact absurd hq (by simp [(h.closed ho).1])
    have hleft : r.entered = (r.taken ++ [t]) ++ rest := by rw [h.left ho, hq, List.append_assoc]; rfl
    exact ⟨h.numbered, ⟨rest, hleft.symm⟩, fun _ => hleft, h.origin, h.distinct,
      fun hc => absurd (ho.symm.trans hc) nofun⟩
  | occurs x => exact ⟨h.numbered, h.taken, h.left, h.origin, h.distinct, h.closed⟩
  | closes hr ho =>
    refine ⟨h.numbered, h.taken, nofun, fun t ht => ?_, ?_, fun _ => ⟨rfl, rfl⟩⟩
    · exact h.origin t (List.mem_append_left _ (by simpa using ht))
    · simpa using h.distinct.of_append_left

end Ordered

/-! ### Counts -/

/-- **Each number that was given out is answered once, or is pending once.** -/
def Counted (r : Reception) : Prop :=
  ∀ n, r.answers.countP (·.number == n) + r.pending.countP (·.number == n) = if n < r.asked.length then 1 else 0

theorem Counted.happens (h : Counted r) (hm : Happens s r r') : Counted r' := by
  have hnew : ∀ n, (if n < r.asked.length then 1 else 0) + (if r.asked.length == n then 1 else 0) =
      if n < r.asked.length + 1 then 1 else 0 := by
    intro n
    rcases Nat.lt_trichotomy n r.asked.length with hn | hn | hn
    · simp [hn, Nat.lt_succ_of_lt hn, Nat.ne_of_gt hn]
    · simp [hn]
    · simp [Nat.not_lt.2 (Nat.le_of_lt hn), Nat.not_lt.2 hn, Nat.ne_of_lt hn]
  intro n
  have hn := h n
  cases hm with
  | nothing => exact hn
  | handles k => exact hn
  | asks c hh ho =>
    have hone := hnew n
    simp only [pending, List.countP_append, List.countP_singleton, List.length_append,
      List.length_singleton] at hn ⊢
    omega
  | refuses c hh ho =>
    have hone := hnew n
    simp only [pending, List.countP_append, List.countP_singleton, List.length_append,
      List.length_singleton] at hn ⊢
    omega
  | enters i t hw =>
    obtain ⟨hi, rfl⟩ := List.getElem?_eq_some_iff.1 hw
    have hperm := (List.getElem_cons_eraseIdx_perm hi).countP_eq (·.number == n)
    rw [List.countP_cons] at hperm
    simp only [pending, List.countP_append, List.filter_append, List.filter_singleton] at hn ⊢
    cases hc : r.waiting[i].command.isRequest <;> simp [Ticket.answer, List.countP_singleton] at hperm ⊢ <;> omega
  | takes t rest hr hq =>
    simp only [pending, hq, List.countP_append, List.filter_cons] at hn ⊢
    cases hc : t.command.isRequest <;> simp [hc, Ticket.answer, List.countP_cons] at hn ⊢ <;> omega
  | occurs x => exact hn
  | closes hr ho =>
    have hmap : (r.pending.map (·.answer (.error .agentStopped))).countP (·.number == n) =
        r.pending.countP (·.number == n) := List.countP_map ..
    rw [List.countP_append, hmap]
    exact hn

/-! ### What happens to the agent -/

/-- **The agent is what its inputs made of it**, and the commands among them are those that it took. -/
structure Follows (s : AgentSettings) (host : Host) (r : Reception) : Prop where
  agent : r.agent = Agent.run s host r.inputs
  commands : r.inputs.filterMap Agent.Input.command? = r.taken.map (·.command)

theorem Follows.happens (h : Follows s host r) (hm : Happens s r r') : Follows s host r' := by
  have hagent : ∀ x, Agent.step s r.agent x = Agent.run s host (r.inputs ++ [x]) := by
    intro x
    rw [Agent.run_concat, ← h.agent]
  cases hm with
  | takes t rest hr hq =>
    refine ⟨hagent (.command t.command), ?_⟩
    rw [List.filterMap_append, h.commands, List.map_append]
    rfl
  | occurs x hx =>
    refine ⟨hagent x, ?_⟩
    rw [List.filterMap_append, h.commands, List.filterMap_cons, hx]
    exact List.append_nil _
  | _ => exact ⟨h.agent, h.commands⟩

/-- **How an agent ends**: with the first shutdown that it takes, and this is the last that it takes; or when nobody is
left who could ask and everything was taken; or by a crash. -/
structure Ended (r : Reception) : Prop where
  closed : r.isOpen = false → r.agent.phase ≠ .running
  alone : r.handles = 0 → r.pending = []
  stopped : r.agent.phase = .stopped →
    (∃ t ∈ r.taken, t.command = .shutdown) ∨ r.handles = 0 ∧ r.entered = r.taken
  shutdown : ∀ t ∈ r.taken, t.command = .shutdown → r.agent.phase = .stopped
  first : ∀ t ∈ r.taken.dropLast, t.command ≠ .shutdown

theorem not_waiting (h : r.pending = []) : r.waiting = [] := (List.append_eq_nil_iff.1 h).2

theorem Ended.happens (h : Ended r) (hs : r.agent.Sound s) (ho : Ordered r) (hm : Happens s r r') : Ended r' := by
  cases hm with
  | nothing => exact h
  | handles n hn h0 =>
    refine ⟨h.closed, fun hz => (hn hz).elim h.alone id, fun hp => ?_, h.shutdown, h.first⟩
    exact (h.stopped hp).imp_right fun hlast => ⟨h0 hlast.1, hlast.2⟩
  | asks c hh => exact ⟨h.closed, fun hz => absurd hz hh, h.stopped, h.shutdown, h.first⟩
  | refuses c hh => exact ⟨h.closed, h.alone, h.stopped, h.shutdown, h.first⟩
  | enters i t hw =>
    -- who waits has a handle
    have hh : r.handles ≠ 0 := by
      intro hz
      rw [not_waiting (h.alone hz)] at hw
      cases hw
    refine ⟨h.closed, fun hz => absurd hz hh, fun hp => ?_, h.shutdown, h.first⟩
    exact (h.stopped hp).imp_right fun hlast => absurd hlast.1 hh
  | takes t rest hr hq =>
    have hnone : ∀ u ∈ r.taken, u.command ≠ .shutdown := by
      intro u hu hc
      rw [h.shutdown u hu hc] at hr
      cases hr
    refine ⟨fun ho => absurd hr (h.closed ho), fun hz => ?_, fun hp => ?_, fun u hu hc => ?_, ?_⟩
    · have hp := h.alone hz
      unfold pending at hp ⊢
      rw [hq, List.filter_cons] at hp
      split at hp
      · simp at hp
      · exact hp
    · obtain hp | hx | hx := Agent.step_stopped hs _ hp
      · rw [hr] at hp
        cases hp
      · exact .inl ⟨t, by simp, by injection hx⟩
      · cases hx
    · obtain hu | hu := List.mem_append.1 hu
      · exact absurd hc (hnone u hu)
      · obtain rfl := List.mem_singleton.1 hu
        simp only [hc, Agent.step, Agent.handle, if_pos hr]
        rfl
    · rw [List.dropLast_concat]
      exact hnone
  | occurs x hx hlast =>
    refine ⟨fun ho => ?_, h.alone, fun hp => ?_, fun t ht hc => ?_, h.first⟩
    · rw [Agent.step_ended_phase (h.closed ho)]
      exact h.closed ho
    · by_cases hp' : r.agent.phase = .stopped
      · exact h.stopped hp'
      · obtain hp | rfl | rfl := Agent.step_stopped hs x hp
        · exact absurd hp hp'
        · cases hx
        · -- nothing was left in the queue
          obtain ⟨hh, hq⟩ := hlast rfl
          have hopen : r.isOpen = true := by
            rw [← Bool.not_eq_false]
            intro hc
            rw [Agent.step_ended_phase (h.closed hc)] at hp
            exact hp' hp
          refine .inr ⟨hh, ?_⟩
          rw [ho.left hopen, hq, List.append_nil]
    · have hstopped := h.shutdown t ht hc
      rw [Agent.step_ended_phase (by simp [hstopped]), hstopped]
  | closes hr =>
    exact ⟨fun _ => hr, fun _ => rfl, h.stopped, h.shutdown, h.first⟩

/-! ### Interleavings -/

/-- **What every interleaving keeps.** -/
structure Reached (s : AgentSettings) (host : Host) (r : Reception) : Prop where
  ordered : Ordered r
  counted : Counted r
  follows : Follows s host r
  ended : Ended r

theorem reached_start (s : AgentSettings) (host : Host) : Reached s host (start s host) where
  ordered := ⟨rfl, List.nil_prefix, fun _ => rfl, (fun _ h => nomatch h), List.nodup_nil, nofun⟩
  counted := fun _ => rfl
  follows := ⟨rfl, rfl⟩
  ended := ⟨nofun, nofun, fun hp => absurd hp (Agent.begin_requests s host).1, nofun, nofun⟩

theorem Reached.sound (h : Reached s host r) : r.agent.Sound s := by
  rw [h.follows.agent]
  exact Agent.run_sound s host r.inputs

theorem Reached.happens (h : Reached s host r) (hm : Happens s r r') : Reached s host r' :=
  ⟨h.ordered.happens hm, h.counted.happens hm, h.follows.happens hm, h.ended.happens h.sound h.ordered hm⟩

theorem Reached.moves (h : Reached s host r) (moves : List Move) : Reached s host (moves.foldl (step s) r) := by
  induction moves generalizing r with
  | nil => exact h
  | cons m moves ih => exact ih (h.happens (step_happens s r m))

/-- **Whatever the interleaving.** -/
theorem run_reached (s : AgentSettings) (host : Host) (moves : List Move) : Reached s host (run s host moves) :=
  (reached_start s host).moves moves

end Reception

end FlowHost
