import FlowHost.Proofs.Chronicle

/-!
# Calls and requests of a run

Two readings of what an agent does, which are also readings of the history that it leaves: the exports
that are entered (`Entrance`), and the requests that the agent makes on its own account.

* `History.Tells.entrances`, `Tells.announced`: **the history has exactly these**, in their order.
* `Launcher.activities_settling`: a launch enters setters and announces the connection, nothing else.
* `Agent.announced_loading`, `announced_stepActivities`: which requests of its own an agent makes.
-/

namespace FlowHost

open History

/-- An export that is entered, with the memory as it is then. -/
structure Entrance where
  instanceId : Nat
  function : String
  arguments : List Value
  memory : Memory

/-- The export that an occurrence enters. -/
def Occurrence.entrance? : Occurrence → Option Entrance
  | entered k f arguments memory => some ⟨k, f, arguments, memory⟩
  | _ => none

/-- The request that an occurrence queues for the agent itself. -/
def Occurrence.announced? : Occurrence → Option Outbound
  | queued none r => some r
  | _ => none

namespace Activity

/-- The export that an activity enters. -/
def entrance? : Activity → Option Entrance
  | call σ function arguments _ m =>
    some ⟨σ.instanceId, function, arguments, m.guest.memory.getD (Memory.filled 0 0)⟩
  | _ => none

/-- The request that an activity of the agent's own makes. -/
def announced? : Activity → Option Outbound
  | request r => some r
  | _ => none

end Activity

namespace History

/-- The exports that were entered, oldest first. -/
def entrances (es : List Occurrence) : List Entrance := es.filterMap Occurrence.entrance?

/-- The requests that were queued for the agent itself, oldest first. -/
def announced (es : List Occurrence) : List Outbound := es.filterMap Occurrence.announced?

variable {isOpen : Bool} {as : List Activity} {es es' : List Occurrence} {k : Nat}

@[simp] theorem entrances_append : entrances (es ++ es') = entrances es ++ entrances es' :=
  List.filterMap_append

@[simp] theorem announced_append : announced (es ++ es') = announced es ++ announced es' :=
  List.filterMap_append

theorem IsWork.entrances_eq_nil (h : IsWork k es) : entrances es = [] := by
  simp only [entrances, List.filterMap_eq_nil_iff]
  intro e he
  have hw := h e he
  cases e <;> simp_all [Occurrence.IsWork, Occurrence.entrance?]

/-- A call enters the export that it is of. -/
theorem IsCall.entrances_function {f : String} {r : Option UInt32} (h : IsCall k f r es) :
    (entrances es).map (·.function) = [f] := by
  obtain ⟨arguments, memory, work, hwork, rfl⟩ := h
  have hnone := hwork.entrances_eq_nil
  have hlist : entrances (.entered k f arguments memory :: (work ++ [.left k f r])) =
      ⟨k, f, arguments, memory⟩ :: entrances (work ++ [.left k f r]) := rfl
  rw [hlist, entrances_append, hnone]
  rfl

theorem OwnedBy.announced_eq_nil (h : OwnedBy k es) : announced es = [] := by
  simp only [announced, List.filterMap_eq_nil_iff]
  intro e he
  have ho := h e he
  cases e with
  | queued sender r =>
    cases sender with
    | none => cases ho
    | some j => rfl
  | _ => rfl

/-- **The exports that were entered are those of the activities.** -/
theorem Tells.entrances (h : Tells isOpen as es) : entrances es = as.filterMap Activity.entrance? := by
  induction h with
  | nil => rfl
  | @cons a as es es' ha _ ih =>
    rw [entrances_append, ih, ← List.singleton_append, List.filterMap_append]
    congr 1
    cases a with
    | start σ code m => exact ha.entrances_eq_nil
    | call σ function arguments body m =>
      obtain ⟨r, work, hw, rfl⟩ := ha
      have hnil := hw.entrances_eq_nil
      unfold History.entrances at hnil ⊢
      rw [List.filterMap_cons, List.filterMap_append, hnil]
      rfl
    | request r =>
      rw [show es = _ from ha]
      cases isOpen <;> rfl
    | save content => obtain rfl | rfl := ha <;> rfl

/-- **The agent's own requests are in the history**, if the queue is open. -/
theorem Tells.announced (h : Tells isOpen as es) (ho : isOpen = true) :
    announced es = as.filterMap Activity.announced? := by
  induction h with
  | nil => rfl
  | @cons a as es es' ha _ ih =>
    rw [announced_append, ih, ← List.singleton_append, List.filterMap_append]
    congr 1
    cases a with
    | start σ code m => exact ha.ownedBy.announced_eq_nil
    | call σ function arguments body m =>
      obtain ⟨r, work, hw, rfl⟩ := ha
      have hnil := hw.ownedBy.announced_eq_nil
      unfold History.announced at hnil ⊢
      rw [List.filterMap_cons, List.filterMap_append, hnil]
      rfl
    | request r => rw [show es = _ from ha, ho]; rfl
    | save content => obtain rfl | rfl := ha <;> rfl

end History

namespace Host

/-- The exports that were entered from a host to a later one. -/
def entered (h h' : Host) : List String := (entrances (h'.history.drop h.history.length)).map (·.function)

/-- The exports that were entered are those of the history since. -/
theorem entered_eq {h h' : Host} {es : List Occurrence} (he : h'.history = h.history ++ es) :
    h.entered h' = (entrances es).map (·.function) := by
  rw [entered, he, List.drop_left]

theorem entered_self (h : Host) : h.entered h = [] := entered_eq (List.append_nil _).symm

end Host

/-! ### What a launch is made of -/

/-- Something that a candidate does before it is an instance. -/
def Activity.IsSettling (σ : Surroundings) : Activity → Prop
  | start σ' _ _ => σ' = σ
  | call σ' function _ _ _ => σ' = σ ∧
    ((∃ setter : Setter, function = setter.name) ∨ function = EntryPoint.setConnectionStatus.name)
  | _ => False

theorem Exports.activities_settling (σ : Surroundings) (settings : GuestSettings)
    (setters : List (Setter × Body)) (m : Machine) :
    ∀ x ∈ activities σ settings setters m, x.IsSettling σ := by
  induction setters generalizing m with
  | nil => intro x hx; cases hx
  | cons p rest ih =>
    obtain ⟨setter, body⟩ := p
    intro x hx
    rw [activities, List.mem_cons] at hx
    rcases hx with rfl | hx
    · exact ⟨rfl, .inl ⟨setter, rfl⟩⟩
    · split at hx
      · exact ih _ x hx
      · cases hx

namespace Launcher

theorem settling_settling (l : Launcher) (σ : Surroundings) (M : Module) (connected : Bool) (m : Machine) :
    ∀ x ∈ l.settling σ M connected m, x.IsSettling σ := by
  intro x hx
  rw [settling, List.mem_append] at hx
  rcases hx with hx | hx
  · obtain ⟨code, -, rfl⟩ := by simpa using hx
    rfl
  · split at hx
    · cases hx
    · split at hx
      · rw [List.mem_append] at hx
        rcases hx with hx | hx
        · exact Exports.activities_settling _ _ _ _ x hx
        · split at hx
          · obtain rfl := List.mem_singleton.1 hx
            exact ⟨rfl, .inr rfl⟩
          · cases hx
      · cases hx

/-- **A launch enters setters and announces the connection**, all on the candidate. -/
theorem activities_settling (l : Launcher) (n : Nat) (bundle : Bundle) (connected : Bool) (host : Host) :
    ∀ x ∈ l.activities n bundle connected host, x.IsSettling (l.surroundings n) := by
  intro x hx
  unfold activities at hx
  split at hx
  · cases hx
  · split at hx
    · cases hx
    · exact l.settling_settling _ _ _ _ x hx

/-- A candidate makes no request in the agent's name. -/
theorem announced_activities (l : Launcher) (n : Nat) (bundle : Bundle) (connected : Bool) (host : Host) :
    (l.activities n bundle connected host).filterMap Activity.announced? = [] := by
  rw [List.filterMap_eq_nil_iff]
  intro x hx
  have hs := l.activities_settling n bundle connected host x hx
  cases x with
  | start σ code m => rfl
  | call σ function arguments body m => rfl
  | request r => cases hs
  | save content => cases hs

end Launcher

/-! ### Along a run -/

namespace Agent

variable {s : AgentSettings} {a : Agent} {content : Bytes} {keep : Bool} {α β : Type}

theorem filterMap_along (f : α → Option β) (tell : Agent → Input → List α) (a : Agent) (xs : List Input) :
    (along s tell a xs).filterMap f = along s (fun a x => (tell a x).filterMap f) a xs := by
  induction xs generalizing a with
  | nil => rfl
  | cons x xs ih => rw [along, along, List.filterMap_append, ih]

/-! ### The agent's own requests -/

/-- The announcement of a bundle that was loaded. -/
def greeting (s : AgentSettings) : Except Error String → List Outbound
  | .ok bundle => [s.hello bundle]
  | .error _ => []

/-- **The requests that an input makes the agent queue on its own account**: on every connect the
subscriptions and an announcement of the active bundle, after every load that succeeds an announcement
of the new one, and on a stop the disconnect. -/
def announcing (s : AgentSettings) (a : Agent) (x : Input) : List Outbound :=
  if a.phase = .running then
    match x with
    | .command (.event .connected) =>
      [.subscribe s.options.layout.subscriptions .atLeastOnce, s.hello a.bundle]
    | .command .shutdown | .release => [.disconnect]
    | x => (asked s a x).elim [] fun content => greeting s (swap s content true a).1
  else []

/-- The requests of the agent's own in a run, from the bundle that was kept from before on. -/
def announcements (s : AgentSettings) (host : Host) (inputs : List Input) : List Outbound :=
  ((keptBundle s host).elim [] fun content => greeting s (swap s content false (fresh host)).1) ++
    along s (announcing s) (begin s (fresh host)) inputs

theorem announced_closing (previous : Option Instance) (host : Host) :
    (closing previous host).filterMap Activity.announced? = [] := by
  cases previous <;> rfl

theorem announced_takeover (s : AgentSettings) (candidate : Instance) (content : Bytes) (keep : Bool)
    (a : Agent) : (takeover s candidate content keep a).filterMap Activity.announced? =
      [s.hello candidate.bundle] := by
  simp only [takeover, List.filterMap_append, announced_closing]
  cases keep <;> rfl

/-- **A load that succeeds announces the new bundle once**, and one that fails announces nothing. -/
theorem announced_loading (s : AgentSettings) (content : Bytes) (keep : Bool) (a : Agent) :
    (loading s content keep a).filterMap Activity.announced? = greeting s (swap s content keep a).1 := by
  unfold loading swap
  cases hb : Bundle.parse content with
  | error e => rfl
  | ok bundle =>
    simp only [List.filterMap_append, Launcher.announced_activities, List.nil_append]
    obtain h | ⟨e, es, host, h, -⟩ | ⟨candidate, es, host, h, hac⟩ :=
      Launcher.launch_cases s.launcher none a.count.attempts bundle a.isConnected a.host
    · simp only [h]
      rfl
    · simp only [h]
      rfl
    · simp only [h, announced_takeover, hac.identifier]
      rfl

/-- Calls of entry points on the active instance are no requests of the agent. -/
theorem announced_serving {work : Instance → Host → List Activity}
    (h : ∀ i host, (work i host).filterMap Activity.announced? = []) (a : Agent) :
    (serving a work).filterMap Activity.announced? = [] := by
  unfold serving
  cases a.active with
  | none => rfl
  | some i => exact h i a.host

theorem announced_passing (i : Instance) (host : Host) (e : EntryPoint) (first payload : String) :
    (i.passing host e first payload).filterMap Activity.announced? = [] := by
  unfold Instance.passing
  split
  · split <;> rfl
  · rfl

/-- **What an input makes the agent request on its own account.** -/
theorem announced_stepActivities (s : AgentSettings) (a : Agent) (x : Input) :
    (stepActivities s a x).filterMap Activity.announced? = announcing s a x := by
  have htell : ∀ connected, (telling a connected).filterMap Activity.announced? = [] :=
    fun connected => announced_serving (fun i host => rfl) a
  have hstop : (stopping a).filterMap Activity.announced? = [.disconnect] := by
    rw [stopping, List.filterMap_append, announced_closing]
    rfl
  have h := step_handles s a x
  generalize step s a x = a', stepActivities s a x = as at h ⊢
  unfold announcing
  cases h with
  | load hr => simp only [announced_loading, asked, if_pos hr, Option.elim_some]
  | flow hr ht =>
    simp only [announced_loading, asked, if_pos hr, if_pos (And.intro hr ht), Option.elim_some]
  | stop hr hx =>
    rw [hstop, if_pos hr]
    obtain rfl | rfl := hx <;> rfl
  | connect hr =>
    rw [List.filterMap_append, htell, if_pos hr]
    rfl
  | disconnect hr =>
    rw [htell, if_pos hr]
    rfl
  | deliver hr ht =>
    rw [announced_serving (fun i host => announced_passing i host _ _ _) a]
    simp [asked, ht]
  | trigger hr =>
    rw [announced_serving (fun i host => announced_passing i host _ _ _) a]
    simp [asked]
  | tick hr =>
    rw [announced_serving (fun i host => rfl) a]
    simp [asked]
  | clock => simp [asked]
  | info => simp [asked]
  | idle hr => rw [if_neg hr, List.filterMap_nil]

/-- **The requests of the agent's own in a run.** -/
theorem announced_activities (s : AgentSettings) (host : Host) (inputs : List Input) :
    (activities s host inputs).filterMap Activity.announced? = announcements s host inputs := by
  have hsteps : (fun a x => (stepActivities s a x).filterMap Activity.announced?) = announcing s := by
    funext a x
    exact announced_stepActivities s a x
  rw [activities, announcements, List.filterMap_append, filterMap_along, hsteps]
  cases keptBundle s host with
  | none => rfl
  | some content =>
    simp only [Option.elim_some]
    rw [announced_loading]

end Agent

end FlowHost
