import FlowHost.Proofs.Launch
import FlowHost.Proofs.Sending

/-!
# What is done with guests, one after another

An `Activity` is guest code that is entered, on the machine as it is then, or work of the agent's own.
`Host.Does` says that activities, in their order, lead from a host to a later one: what the queue
takes is what they ask for, and the history has a stretch for each of them.

* `MachineM.enter_does`, `Instance.call_does`: a call of an export is one activity.
* `Launcher.settle_tracks`: what is told of guest code entry by entry can be told of a guest that is settled.
* `Launcher.launch_does`: **what a launch does**, up to the first failure.
-/

namespace FlowHost

open History

/-- Something that an agent does. -/
inductive Activity where
  /-- Runs what a module starts with. -/
  | start (σ : Surroundings) (code : Behaviour) (m : Machine)
  /-- Calls an export. -/
  | call (σ : Surroundings) (function : String) (arguments : List Value) (body : Body) (m : Machine)
  /-- Makes a request of the agent's own. -/
  | request (r : Outbound)
  /-- Saves a bundle. -/
  | save (content : Bytes)

namespace Activity

/-- **The requests that an activity makes**, in their order: a guest's are the messages that it sends. -/
def requests : Activity → List Outbound
  | start σ code m => (code.sent σ m).map .publish
  | call σ function arguments body m =>
    ((body arguments).sent σ (MachineM.recordEntry σ function arguments m)).map .publish
  | request r => [r]
  | save _ => []

/-- The stretch of history that an activity leaves, with an open queue or a closed one. -/
def Leaves (isOpen : Bool) : Activity → List Occurrence → Prop
  | start σ _ _, es => IsWork σ.instanceId es
  | call σ function arguments _ m, es => ∃ r work, IsWork σ.instanceId work ∧
      es = .entered σ.instanceId function arguments (m.guest.memory.getD (Memory.filled 0 0)) ::
        (work ++ [.left σ.instanceId function r])
  | request r, es => es = if isOpen then [.queued none r] else []
  | save content, es => es = [] ∨ es = [.persisted content]

end Activity

/-- The history that activities leave is that of the first and then that of the others. -/
inductive History.Tells (isOpen : Bool) : List Activity → List Occurrence → Prop
  | nil : Tells isOpen [] []
  | cons {a : Activity} {as : List Activity} {es es' : List Occurrence} (h : a.Leaves isOpen es)
      (h' : Tells isOpen as es') : Tells isOpen (a :: as) (es ++ es')

namespace History

variable {isOpen : Bool} {as as' : List Activity} {es es' : List Occurrence}

theorem Tells.single {a : Activity} (h : a.Leaves isOpen es) : Tells isOpen [a] es := by
  rw [← List.append_nil es]
  exact .cons h .nil

theorem Tells.append (h : Tells isOpen as es) (h' : Tells isOpen as' es') :
    Tells isOpen (as ++ as') (es ++ es') := by
  induction h with
  | nil => exact h'
  | cons ha _ ih =>
    rw [List.append_assoc]
    exact .cons ha ih

/-- A history goes to pieces as its activities do. -/
theorem Tells.split (h : Tells isOpen (as ++ as') es) :
    ∃ es₁ es₂, es = es₁ ++ es₂ ∧ Tells isOpen as es₁ ∧ Tells isOpen as' es₂ := by
  induction as generalizing es with
  | nil => exact ⟨[], es, rfl, .nil, h⟩
  | cons a as ih =>
    cases h with
    | cons ha h' =>
      obtain ⟨es₁, es₂, rfl, h1, h2⟩ := ih h'
      exact ⟨_, es₂, (List.append_assoc _ _ _).symm, .cons ha h1, h2⟩

end History

/-- **Activities lead from a host to a later one.** -/
structure Host.Does (h : Host) (as : List Activity) (h' : Host) : Prop where
  takes : Host.Takes h (as.flatMap Activity.requests) h'
  history : ∃ es, h'.history = h.history ++ es ∧ Tells h.isOpen as es

namespace Host

variable {h h' h'' : Host} {as as' : List Activity}

theorem Does.refl : Does h [] h := ⟨.refl, [], (List.append_nil _).symm, .nil⟩

theorem Does.trans (hd : Does h as h') (hd' : Does h' as' h'') : Does h (as ++ as') h'' := by
  obtain ⟨es, he, ht⟩ := hd.history
  obtain ⟨es', he', ht'⟩ := hd'.history
  refine ⟨?_, es ++ es', by rw [he', he, List.append_assoc], ht.append (hd.takes.isOpen ▸ ht')⟩
  rw [List.flatMap_append]
  exact hd.takes.trans hd'.takes

/-- Work that touches neither the history nor the queue. -/
theorem Does.of_eq (h1 : h'.history = h.history) (h2 : h'.outbound = h.outbound)
    (h3 : h'.isOpen = h.isOpen) : Does h [] h' :=
  ⟨.of_eq h3 h2, [], by rw [h1, List.append_nil], .nil⟩

theorem does_queue (r : Outbound) : Does h [.request r] (h.queue none r) := by
  refine ⟨takes_queue none r, if h.isOpen then [.queued none r] else [], ?_, .single rfl⟩
  unfold queue
  split <;> simp

end Host

namespace MachineM

variable {σ : Surroundings} {α : Type}

/-- The machine after work, failed or not. -/
def after : EStateM.Result Error Machine α → Machine
  | .ok _ m => m
  | .error _ m => m

/-- **A call of an export is one activity**, whatever the guest does. -/
theorem enter_does (σ : Surroundings) (function : String) (body : Body) (arguments : List Value)
    (m : Machine) :
    Host.Does m.host [.call σ function arguments body m] (after (enter σ function body arguments m)).host := by
  have ht := Behaviour.run_takes σ (body arguments) (recordEntry σ function arguments m)
  obtain ⟨work, hw⟩ := Behaviour.run_works σ none (body arguments) (recordEntry σ function arguments m)
  -- a trap, a result code and an error code end a call in the same way
  have hafter : ∃ r, (after (enter σ function body arguments m)).host =
      (recordExit σ function r
        ((body arguments).run σ (recordEntry σ function arguments m)).2).host := by
    unfold enter
    cases (body arguments).run σ (recordEntry σ function arguments m) with
    | mk r m1 =>
      cases r with
      | none => exact ⟨none, rfl⟩
      | some code =>
        refine ⟨some code, ?_⟩
        simp only
        cases checkCode function code.toInt32 <;> rfl
  obtain ⟨r, hr⟩ := hafter
  rw [hr]
  refine ⟨?_, _, ?_, .single ⟨r, work, hw.work, rfl⟩⟩
  · refine ⟨ht.isOpen, fun ho => ?_⟩
    rw [List.flatMap_cons, List.flatMap_nil, List.append_nil]
    exact ht.outbound ho
  · have hl := hw.leads.history
    simp only [recordEntry, recordExit, Host.record] at hl ⊢
    rw [hl]
    simp

/-- To forgive a result code changes nothing of the machine. -/
theorem after_tolerant (x : MachineM Unit) (m : Machine) : after (tolerant x m) = after (x m) := by
  unfold tolerant
  cases x m with
  | ok u m => rfl
  | error e m =>
    simp only
    cases tolerateCode (.error e) <;> rfl

end MachineM

/-- **What can be told of guest code entry by entry**: of machines on the way from one to another, and of what
is done in between. -/
structure Machine.Tracks (T : Machine → List Activity → Machine → Prop) : Prop where
  refl : ∀ m, T m [] m
  trans : ∀ {m m' m'' as as'}, T m as m' → T m' as' m'' → T m (as ++ as') m''
  start : ∀ σ code m, T m [.start σ code m] (code.run σ m).2
  enter : ∀ σ function body arguments m, T m [.call σ function arguments body m]
    (MachineM.after (MachineM.enter σ function body arguments m))

/-- **What guest code does to the host** can be told so. -/
theorem Host.does_tracks : Machine.Tracks fun m as m' => Host.Does m.host as m'.host where
  refl _ := .refl
  trans h h' := h.trans h'
  start σ code m := by
    have ht := Behaviour.run_takes σ code m
    obtain ⟨work, hw⟩ := Behaviour.run_works σ none code m
    refine ⟨?_, work, hw.leads.history, .single hw.work⟩
    simpa [Activity.requests] using ht
  enter σ function body arguments m := MachineM.enter_does σ function body arguments m

namespace Exports

/-- The calls of setters, up to the first that traps. -/
def activities (σ : Surroundings) (settings : GuestSettings) :
    List (Setter × Body) → Machine → List Activity
  | [], _ => []
  | (setter, body) :: rest, m =>
    .call σ setter.name (setter.arguments settings) body m ::
      match MachineM.tolerant (MachineM.enter σ setter.name body (setter.arguments settings)) m with
      | .ok _ m => activities σ settings rest m
      | .error _ _ => []

theorem configure_tracks {T : Machine → List Activity → Machine → Prop} (hT : Machine.Tracks T)
    (σ : Surroundings) (settings : GuestSettings) (setters : List (Setter × Body)) (m : Machine) :
    T m (activities σ settings setters m) (MachineM.after (configure σ settings setters m)) := by
  induction setters generalizing m with
  | nil => exact hT.refl m
  | cons p rest ih =>
    obtain ⟨setter, body⟩ := p
    have hd := hT.enter σ setter.name body (setter.arguments settings) m
    rw [← MachineM.after_tolerant] at hd
    simp only [configure, activities, bind, EStateM.bind]
    cases ht : MachineM.tolerant (MachineM.enter σ setter.name body (setter.arguments settings)) m with
    | error e m1 => rw [ht] at hd; exact hd
    | ok u m1 => rw [ht] at hd; exact hT.trans hd (ih m1)

end Exports

namespace Launcher

/-- **What is done with a prepared guest**, up to the first failure: its start, its setters and the
announcement of the connection. -/
def settling (l : Launcher) (σ : Surroundings) (M : Module) (connected : Bool) (m : Machine) :
    List Activity :=
  (M.start.map fun code => Activity.start σ code m).toList ++
    match M.runStart σ m with
    | .error _ _ => []
    | .ok _ m =>
      match Module.requireMemory m, Exports.resolve M with
      | .ok _ m, .ok exports =>
        Exports.activities σ l.config.settings exports.setters m ++
          match Exports.configure σ l.config.settings exports.setters m with
          | .ok _ m =>
            [.call σ EntryPoint.setConnectionStatus.name (Instance.statusArgument connected)
              (exports.entry .setConnectionStatus) m]
          | .error _ _ => []
      | _, _ => []

/-- What a launch does. -/
def activities (l : Launcher) (n : Nat) (bundle : Bundle) (connected : Bool) (host : Host) :
    List Activity :=
  match l.compile bundle.binary with
  | none => []
  | some M =>
    match M.prepare l.config l.natives l.limits with
    | .error _ => []
    | .ok guest => l.settling (l.surroundings n) M connected ⟨guest, host⟩

/-- **What is told of guest code can be told of a guest that is settled**, whether that succeeds or not. -/
theorem settle_tracks {T : Machine → List Activity → Machine → Prop} (hT : Machine.Tracks T) (l : Launcher)
    (σ : Surroundings) (M : Module) (connected : Bool) (m : Machine) :
    T m (l.settling σ M connected m) (MachineM.after (l.settle σ M connected m)) := by
  have hstart : T m (M.start.map fun code => Activity.start σ code m).toList
      (MachineM.after (M.runStart σ m)) := by
    unfold Module.runStart
    cases hs : M.start with
    | none => exact hT.refl m
    | some code =>
      have hd := hT.start σ code m
      simp only
      cases hr : code.run σ m with
      | mk r m1 =>
        rw [hr] at hd
        cases r <;> exact hd
  unfold settling settle
  simp only [bind, EStateM.bind]
  cases hs : M.runStart σ m with
  | error e m1 =>
    rw [hs] at hstart
    exact (List.append_nil _).symm ▸ hstart
  | ok u m1 =>
    rw [hs] at hstart
    refine hT.trans hstart ?_
    obtain ⟨hm, -⟩ | hm := Module.requireMemory_cases m1
    · cases hr : Exports.resolve M with
      | error e => simp only [hm]; exact hT.refl m1
      | ok exports =>
        have hconf := Exports.configure_tracks hT σ l.config.settings exports.setters m1
        simp only [hm, pure, EStateM.pure, EStateM.bind]
        cases hc : Exports.configure σ l.config.settings exports.setters m1 with
        | error e m2 =>
          rw [hc] at hconf
          exact (List.append_nil _).symm ▸ hconf
        | ok u m2 =>
          rw [hc] at hconf
          refine hT.trans hconf ?_
          have hd := hT.enter σ EntryPoint.setConnectionStatus.name
            (exports.entry .setConnectionStatus) (Instance.statusArgument connected) m2
          rw [← MachineM.after_tolerant] at hd
          simp only [MachineM.after]
          cases ht : MachineM.tolerant (MachineM.enter σ EntryPoint.setConnectionStatus.name
              (exports.entry .setConnectionStatus) (Instance.statusArgument connected)) m2 with
          | ok u m3 => rw [ht] at hd; exact hd
          | error e m3 => rw [ht] at hd; exact hd
    · simp only [hm]
      exact hT.refl m1

/-- **What a launch does to the host**, whether it succeeds or not. -/
theorem launch_does (l : Launcher) (n : Nat) (bundle : Bundle) (connected : Bool) (host : Host) :
    Host.Does host (l.activities n bundle connected host) (l.launch n bundle connected host).2 := by
  unfold launch activities
  cases l.compile bundle.binary with
  | none => exact .refl
  | some M =>
    simp only
    cases M.prepare l.config l.natives l.limits with
    | error abort => exact .refl
    | ok guest =>
      have hd := settle_tracks Host.does_tracks l (l.surroundings n) M connected ⟨guest, host⟩
      simp only
      cases hs : l.settle (l.surroundings n) M connected ⟨guest, host⟩ with
      | ok exports m => rw [hs] at hd; exact hd
      | error e m => rw [hs] at hd; exact hd

end Launcher

namespace Instance

variable {i : Instance}

/-- The call of an entry point as an activity. -/
def activity (i : Instance) (host : Host) (e : EntryPoint) (arguments : List Value) : Activity :=
  .call i.surroundings e.name arguments (i.exports.entry e) ⟨i.guest, host⟩

theorem call_does (i : Instance) (host : Host) (e : EntryPoint) (arguments : List Value) :
    Host.Does host [i.activity host e arguments] (i.call host e arguments).host := by
  have hd := MachineM.enter_does i.surroundings e.name (i.exports.entry e) arguments ⟨i.guest, host⟩
  unfold call onMachine
  cases hr : MachineM.enter i.surroundings e.name (i.exports.entry e) arguments ⟨i.guest, host⟩ with
  | ok u m => rw [hr] at hd; exact hd
  | error e m => rw [hr] at hd; exact hd

theorem start_does (hi : i.lifecycle = .instantiated) (host : Host) :
    Host.Does host [i.activity host .init []] (i.start host).host := by
  unfold start
  rw [if_pos hi]
  exact call_does { i with lifecycle := .running } host .init []

theorem tick_does (hi : i.lifecycle = .running) (host : Host) (now : Int64) :
    Host.Does host [i.activity host .loop [.i64 now.toUInt64]] (i.tick host now).host := by
  unfold tick
  rw [if_pos hi]
  exact call_does i host .loop _

theorem setConnectionStatus_does (hi : i.lifecycle = .running) (host : Host) (connected : Bool) :
    Host.Does host [i.activity host .setConnectionStatus (statusArgument connected)]
      (i.setConnectionStatus host connected).host := by
  unfold setConnectionStatus
  rw [hi]
  exact call_does i host .setConnectionStatus _

theorem shutdown_does (hi : i.lifecycle = .running) (host : Host) :
    Host.Does host [i.activity host .shutdown []] (i.shutdown host).host := by
  unfold shutdown
  rw [hi]
  exact call_does { i with lifecycle := .shuttingDown } host .shutdown []

/-- What it takes to pass two texts: the call, on the memory that holds them, if the guest has
announced its buffers and they take them. -/
def passing (i : Instance) (host : Host) (e : EntryPoint) (first payload : String) : List Activity :=
  match i.guest.buffers.get, i.guest.memory with
  | .ok buffers, some memory =>
    match buffers.write first payload memory with
    | .ok (one, two) memory =>
      [{ i with guest := { i.guest with memory := some memory } }.activity host e
        [.i32 (UInt32.ofNat one.written), .i32 (UInt32.ofNat two.written)]]
    | .error _ _ => []
  | _, _ => []

theorem pass_does (i : Instance) (host : Host) (e : EntryPoint) (first payload : String) :
    Host.Does host (i.passing host e first payload) (i.pass host e first payload).host := by
  unfold pass passing
  cases i.guest.buffers.get with
  | error fault => exact .refl
  | ok buffers =>
    cases i.guest.memory with
    | none => exact .refl
    | some memory =>
      simp only
      cases buffers.write first payload memory with
      | error fault written => exact .refl
      | ok sizes written => exact call_does _ host e _

theorem deliver_does (hi : i.lifecycle = .running) (host : Host) (topic payload : String) :
    Host.Does host (i.passing host .messageReceived topic payload) (i.deliver host topic payload).host := by
  unfold deliver
  rw [if_pos hi]
  exact i.pass_does host .messageReceived topic payload

theorem trigger_does (hi : i.lifecycle = .running) (host : Host) (identifier payload : String) :
    Host.Does host (i.passing host .directTrigger identifier payload)
      (i.trigger host identifier payload).host := by
  unfold trigger
  rw [if_pos hi]
  exact i.pass_does host .directTrigger identifier payload

end Instance

end FlowHost
