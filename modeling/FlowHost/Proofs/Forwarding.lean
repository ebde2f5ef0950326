import FlowHost.Transport
import Mathlib.Data.List.TakeWhile

/-!
# How a queue is forwarded

Forwarding goes on beside those who fill the queue. Whatever a transport refuses, it is asked for each
request once, in the order of the queue, up to and including the first disconnect, and for nothing
afterwards.

* `Outbound.upToDisconnect`: what a queue comes to.
* `Transport.forward_noting`: **a transport is asked for exactly that.**
* `Forwarder.Reached`: how far a forwarder has come, whatever the order in which requests are queued and
  taken (`Forwarder.run_reached`).
-/

namespace FlowHost

/-- The requests of a queue up to and including the first disconnect. -/
def Outbound.upToDisconnect (queue : List Outbound) : List Outbound :=
  queue.takeWhile (fun r => decide (r ≠ .disconnect)) ++
    if .disconnect ∈ queue then [.disconnect] else []

namespace Outbound

variable {xs ys : List Outbound}

@[simp] theorem upToDisconnect_nil : upToDisconnect [] = [] := rfl

theorem upToDisconnect_cons_disconnect : upToDisconnect (.disconnect :: xs) = [.disconnect] := by
  simp [upToDisconnect]

theorem upToDisconnect_cons {r : Outbound} (h : r ≠ .disconnect) :
    upToDisconnect (r :: xs) = r :: upToDisconnect xs := by
  simp [upToDisconnect, h, Ne.symm h]

theorem upToDisconnect_append (h : .disconnect ∉ xs) :
    upToDisconnect (xs ++ ys) = xs ++ upToDisconnect ys := by
  induction xs with
  | nil => rfl
  | cons r xs ih =>
    have hr : r ≠ .disconnect := fun he => h (he ▸ List.mem_cons_self ..)
    rw [List.cons_append, upToDisconnect_cons hr, ih fun hm => h (List.mem_cons_of_mem _ hm),
      List.cons_append]

/-- **A queue that ends in its only disconnect is forwarded as a whole.** -/
theorem upToDisconnect_concat (h : .disconnect ∉ xs) :
    upToDisconnect (xs ++ [.disconnect]) = xs ++ [.disconnect] := by
  rw [upToDisconnect_append h, upToDisconnect_cons_disconnect]

/-- What is queued later does not change what was forwarded before. -/
theorem upToDisconnect_mono : upToDisconnect xs <+: upToDisconnect (xs ++ ys) := by
  induction xs with
  | nil => exact List.nil_prefix
  | cons r xs ih =>
    by_cases hr : r = .disconnect
    · subst hr
      exact ⟨[], by simp [upToDisconnect_cons_disconnect]⟩
    · rw [List.cons_append, upToDisconnect_cons hr, upToDisconnect_cons hr]
      exact (List.prefix_cons_inj r).2 ih

end Outbound

namespace Transport

variable {σ : Type} {t : Transport σ} {xs ys : List Outbound}

/-- A transport that notes each request that it is asked for. -/
def noting (t : Transport σ) : Transport (σ × List Outbound) where
  perform request state :=
    let (outcome, after) := t.perform request state.1
    (outcome, after, state.2 ++ [request])

theorem forward_cons {r : Outbound} (h : r ≠ .disconnect) (state : σ) :
    t.forward state (r :: xs) = t.forward (t.perform r state).2 xs := by
  cases r with
  | disconnect => exact absurd rfl h
  | publish m => rfl
  | subscribe topics qos => rfl

theorem forward_append (h : .disconnect ∉ xs) (state : σ) :
    t.forward state (xs ++ ys) = t.forward (t.forward state xs) ys := by
  induction xs generalizing state with
  | nil => rfl
  | cons r xs ih =>
    have hr : r ≠ .disconnect := fun he => h (he ▸ List.mem_cons_self ..)
    rw [List.cons_append, forward_cons hr, forward_cons hr, ih fun hm => h (List.mem_cons_of_mem _ hm)]

/-- **Nothing is forwarded after a disconnect.** -/
theorem forward_disconnect (h : .disconnect ∉ xs) (state : σ) :
    t.forward state (xs ++ .disconnect :: ys) = (t.perform .disconnect (t.forward state xs)).2 := by
  rw [forward_append h]
  rfl

/-- **A transport is asked for each request once**, in the order of the queue, up to and including the first
disconnect, whatever it refuses. -/
theorem forward_noting (t : Transport σ) (state : σ) (noted queue : List Outbound) :
    t.noting.forward (state, noted) queue =
      (t.forward state queue, noted ++ Outbound.upToDisconnect queue) := by
  induction queue generalizing state noted with
  | nil => simp [forward]
  | cons r rest ih =>
    by_cases hr : r = .disconnect
    · subst hr
      rw [Outbound.upToDisconnect_cons_disconnect]
      rfl
    · rw [forward_cons hr, forward_cons hr, Outbound.upToDisconnect_cons hr]
      have hstep : (t.noting.perform r (state, noted)).2 = ((t.perform r state).2, noted ++ [r]) := rfl
      rw [hstep, ih, List.append_assoc, List.singleton_append]

end Transport

/-- A forwarder at work: its transport, what waits for it, and whether it has come to its end. -/
structure Forwarder (σ : Type) where
  state : σ
  waiting : List Outbound
  isDone : Bool

namespace Forwarder

/-- What happens to a forwarder. -/
inductive Move where
  /-- Someone queues a request. A forwarder that is done has closed its queue. -/
  | put (request : Outbound)
  /-- The forwarder takes the next request, if one waits. -/
  | take
  deriving DecidableEq

/-- The request that is queued. -/
def Move.request? : Move → Option Outbound
  | put request => some request
  | take => none

variable {σ : Type}

/-- A forwarder that has not begun. -/
def fresh (state : σ) : Forwarder σ := ⟨state, [], false⟩

/-- The forwarder after it has handed on a request; a disconnect is its last. -/
def hand (t : Transport σ) (f : Forwarder σ) (request : Outbound) (rest : List Outbound) : Forwarder σ :=
  ⟨(t.perform request f.state).2, rest, decide (request = .disconnect)⟩

/-- What happens to a forwarder, done. -/
def step (t : Transport σ) (f : Forwarder σ) : Move → Forwarder σ
  | .put request => if f.isDone then f else { f with waiting := f.waiting ++ [request] }
  | .take =>
    match f.isDone, f.waiting with
    | false, request :: rest => hand t f request rest
    | _, _ => f

/-- Any interleaving of those who queue and of the forwarder. -/
def run (t : Transport σ) (f : Forwarder σ) (moves : List Move) : Forwarder σ := moves.foldl (step t) f

/-- The requests that were queued, by anyone. -/
def puts (moves : List Move) : List Outbound := moves.filterMap Move.request?

variable {t : Transport σ} {state : σ} {f : Forwarder σ} {queued : List Outbound} {moves : List Move}

/-- **How far a forwarder has come**: what it has not handed on waits, until a disconnect was handed on. -/
inductive Reached (t : Transport σ) (state : σ) (queued : List Outbound) (f : Forwarder σ) : Prop
  | going (handed : List Outbound) (hn : .disconnect ∉ handed) (hq : queued = handed ++ f.waiting)
      (hs : f.state = t.forward state handed) (hd : f.isDone = false)
  | done (handed rest : List Outbound) (hn : .disconnect ∉ handed)
      (hq : queued = handed ++ .disconnect :: rest)
      (hs : f.state = t.forward state (handed ++ [.disconnect])) (hd : f.isDone = true)

theorem Reached.put (h : Reached t state queued f) (r : Outbound) :
    Reached t state (queued ++ [r]) (step t f (.put r)) := by
  cases h with
  | going handed hn hq hs hd =>
    refine .going handed hn ?_ ?_ ?_
    · simp [step, hd, hq]
    · simpa [step, hd] using hs
    · simp [step, hd]
  | done handed rest hn hq hs hd =>
    have hstep : step t f (.put r) = f := by simp [step, hd]
    rw [hstep]
    exact .done handed (rest ++ [r]) hn (by simp [hq]) hs hd

theorem Reached.take (h : Reached t state queued f) : Reached t state queued (step t f .take) := by
  cases h with
  | going handed hn hq hs hd =>
    cases hw : f.waiting with
    | nil =>
      have hstep : step t f .take = f := by simp [step, hw, hd]
      rw [hstep]
      exact .going handed hn hq hs hd
    | cons r rest =>
      have hstep : step t f .take = hand t f r rest := by simp [step, hw, hd]
      rw [hw] at hq
      rw [hstep]
      by_cases hr : r = .disconnect
      · subst hr
        refine .done handed rest hn hq ?_ rfl
        rw [Transport.forward_disconnect hn, ← hs]
        rfl
      · refine .going (handed ++ [r]) ?_ (by simp [hq, hand]) ?_ (by simp [hand, hr])
        · simp [hn, Ne.symm hr]
        · rw [Transport.forward_append hn, ← hs, Transport.forward_cons hr]
          rfl
  | done handed rest hn hq hs hd =>
    have hstep : step t f .take = f := by simp [step, hd]
    rw [hstep]
    exact .done handed rest hn hq hs hd

theorem Reached.run (h : Reached t state queued f) (moves : List Move) :
    Reached t state (queued ++ puts moves) (run t f moves) := by
  -- on the moves to come, for any forwarder
  induction moves generalizing f queued with
  | nil =>
    rw [puts, List.filterMap_nil, List.append_nil]
    exact h
  | cons move moves ih =>
    cases move with
    | put r =>
      have hr := ih (h.put r)
      rw [List.append_assoc] at hr
      exact hr
    | take => exact ih h.take

/-- **Whatever the interleaving, a forwarder hands on what was queued in its order.** -/
theorem run_reached (t : Transport σ) (state : σ) (moves : List Move) :
    Reached t state (puts moves) (run t (fresh state) moves) :=
  (Reached.going [] (by simp) rfl rfl rfl : Reached t state [] (fresh state)).run moves

/-- A forwarder at its end, or with nothing left to take, has forwarded the queue. -/
theorem Reached.ends (h : Reached t state queued f) (he : f.isDone = true ∨ f.waiting = []) :
    f.state = t.forward state queued := by
  cases h with
  | going handed hn hq hs hd =>
    rcases he with he | he
    · rw [hd] at he
      cases he
    · rw [hq, he, List.append_nil, hs]
  | done handed rest hn hq hs hd =>
    rw [hs, hq, Transport.forward_disconnect hn, Transport.forward_disconnect hn]

/-- A forwarder has forwarded some first part of the queue. -/
theorem Reached.handed (h : Reached t state queued f) :
    ∃ handed, handed <+: queued ∧ f.state = t.forward state handed := by
  cases h with
  | going handed hn hq hs hd => exact ⟨handed, ⟨f.waiting, hq.symm⟩, hs⟩
  | done handed rest hn hq hs hd => exact ⟨handed ++ [.disconnect], ⟨rest, by simp [hq]⟩, hs⟩

/-- **Who disconnects last is never refused**: as long as a request is to come, the forwarder is not
done. -/
theorem put_taken {queued : List Outbound} (hn : .disconnect ∉ queued)
    (hq : puts moves = queued ++ [.disconnect]) {before after : List Move} {r : Outbound}
    (hm : moves = before ++ .put r :: after) : (run t (fresh state) before).isDone = false := by
  have hputs : puts before ++ r :: puts after = queued ++ [.disconnect] := by
    rw [← hq, hm, puts, puts, puts, List.filterMap_append]
    rfl
  cases run_reached t state before with
  | going handed hn' hq' hs hd => exact hd
  | done handed rest hn' hq' hs hd =>
    -- a disconnect before the last request would be one of the others
    exfalso
    have hmem : Outbound.disconnect ∈ queued := by
      have hlen : (puts before).length ≤ queued.length := by
        have hl := congrArg List.length hputs
        simp only [List.length_append, List.length_cons, List.length_nil] at hl
        omega
      have htake : puts before = queued.take (puts before).length := by
        have ht := congrArg (List.take (puts before).length) hputs
        rw [List.take_left', List.take_append_of_le_length hlen] at ht
        · exact ht
        · rfl
      have hb : Outbound.disconnect ∈ puts before := by simp [hq']
      rw [htake] at hb
      exact List.mem_of_mem_take hb
    exact hn hmem

end Forwarder

/-- **What forwarding a queue comes to, for a transport and whatever it refuses**: it is asked for each
request once and in order, up to and including the first disconnect. While it goes on, whoever fills the
queue meanwhile, it has been asked for a first part of that. -/
structure Transport.Forwards {σ : Type} (t : Transport σ) (state : σ) : Prop where
  whole : ∀ queue, t.noting.forward (state, []) queue =
    (t.forward state queue, Outbound.upToDisconnect queue)
  asked : ∀ moves, (Forwarder.run t.noting (.fresh (state, [])) moves).state.2 <+:
    Outbound.upToDisconnect (Forwarder.puts moves)
  ends : ∀ moves, let f := Forwarder.run t.noting (.fresh (state, [])) moves
    (f.isDone = true ∨ f.waiting = []) →
      f.state = (t.forward state (Forwarder.puts moves), Outbound.upToDisconnect (Forwarder.puts moves))

/-- **Every transport forwards in order.** -/
theorem Transport.forwards {σ : Type} (t : Transport σ) (state : σ) : t.Forwards state := by
  have whole : ∀ queue, t.noting.forward (state, []) queue =
      (t.forward state queue, Outbound.upToDisconnect queue) := fun queue => t.forward_noting state [] queue
  refine ⟨whole, fun moves => ?_, fun moves he => ?_⟩
  · obtain ⟨handed, ⟨rest, hp⟩, hs⟩ := (Forwarder.run_reached t.noting (state, []) moves).handed
    rw [hs, whole, ← hp]
    exact Outbound.upToDisconnect_mono
  · rw [(Forwarder.run_reached t.noting (state, []) moves).ends he, whole]

end FlowHost
