import FlowHost.Proofs.Entrances
import FlowHost.Proofs.Lasting
import FlowHost.Proofs.Rejection
import FlowHost.Proofs.Room
import Mathlib.Data.List.Forall2

/-!
# In-order delivery to the guest

Messages that are not bundles go to the guest, and so do direct triggers. `Agent.deliveries` lists what is
due in a run: one delivery for each message and each trigger that is handled while an instance is active
that has announced its buffers. The history has **one call for each of them, in that order, and no other**
(`Agent.deliveries_in_order`), with both texts in the guest's buffers when it is called.

* `Entrance.Delivers`: a call that delivers two texts.
* `Agent.trigger_answer`: what answers a trigger.
-/

namespace FlowHost

open History

/-- What is due to a guest: an instance is to be called with two texts in its buffers. -/
structure Delivery where
  instanceId : Nat
  entry : EntryPoint
  buffers : MessageBuffers
  first : String
  payload : String

namespace Entrance

/-- Whether an export is entered that takes texts. -/
def isPassing (e : Entrance) : Bool :=
  e.function == EntryPoint.messageReceived.name || e.function == EntryPoint.directTrigger.name

/-- **A call that delivers**: it is that of the instance and of the entry point, and its arguments say how
much of the two texts is in the buffers. -/
structure Delivers (e : Entrance) (d : Delivery) : Prop where
  instanceId : e.instanceId = d.instanceId
  function : e.function = d.entry.name
  texts : ∃ one two, e.arguments = [.i32 one, .i32 two] ∧
    d.buffers.Carries d.first d.payload one two e.memory

end Entrance

/-- The exports that are entered with texts. -/
def History.passes (es : List Occurrence) : List Entrance := (entrances es).filter Entrance.isPassing

/-- The exports that activities enter with texts. -/
def Activity.passes (as : List Activity) : List Entrance :=
  (as.filterMap Activity.entrance?).filter Entrance.isPassing

namespace Activity

variable {as as' : List Activity}

@[simp] theorem passes_append : passes (as ++ as') = passes as ++ passes as' := by
  simp only [passes, List.filterMap_append, List.filter_append]

/-- Setters and announcements take no texts. -/
theorem passes_settling {σ : Surroundings} (h : ∀ x ∈ as, x.IsSettling σ) : passes as = [] := by
  have hsetter : ∀ setter : Setter, (setter.name == EntryPoint.messageReceived.name ||
      setter.name == EntryPoint.directTrigger.name) = false := by
    intro setter
    cases setter <;> decide
  have hstatus : (EntryPoint.setConnectionStatus.name == EntryPoint.messageReceived.name ||
      EntryPoint.setConnectionStatus.name == EntryPoint.directTrigger.name) = false := by decide
  unfold passes
  rw [List.filter_eq_nil_iff]
  intro e he
  obtain ⟨x, hx, hxe⟩ := List.mem_filterMap.1 he
  have hs := h x hx
  cases x with
  | call σ' function arguments body m =>
    cases hxe
    obtain ⟨-, ⟨setter, rfl⟩ | rfl⟩ := hs
    · simp [Entrance.isPassing, hsetter setter]
    · simp [Entrance.isPassing, hstatus]
  | _ => cases hxe

end Activity

namespace TopicLayout

variable {l : TopicLayout} {topic : String}

theorem route_artifact : l.route topic = .artifact ↔ topic = l.flows := by
  unfold route
  split <;> simp_all

theorem route_guest : l.route topic = .guest ↔ topic ≠ l.flows := by
  unfold route
  split <;> simp_all

end TopicLayout

namespace Agent

variable {s : AgentSettings} {a : Agent}

/-- The delivery that an input makes due to an instance with announced buffers. -/
def dueTo (s : AgentSettings) (k : Nat) (b : MessageBuffers) : Input → List Delivery
  | .command (.event (.message topic payload)) =>
    if topic = s.options.layout.flows then []
    else [⟨k, .messageReceived, b, topic, Utf8.decodeLossy payload⟩]
  | .command (.trigger identifier payload) => [⟨k, .directTrigger, b, identifier, payload⟩]
  | _ => []

/-- **What an input makes due**: something, if an instance is active that has announced its buffers. -/
def due (s : AgentSettings) (a : Agent) (x : Input) : List Delivery :=
  if a.phase = .running then
    match a.active with
    | none => []
    | some i =>
      match i.guest.buffers.buffers with
      | none => []
      | some b => dueTo s i.surroundings.instanceId b x
  else []

/-- **What is due in a run.** -/
def deliveries (s : AgentSettings) (host : Host) (inputs : List Input) : List Delivery :=
  along s (due s) (begin s (fresh host)) inputs

/-! ### Other calls take no texts -/

theorem passes_closing (previous : Option Instance) (host : Host) :
    Activity.passes (closing previous host) = [] := by
  cases previous <;> rfl

theorem passes_loading (s : AgentSettings) (content : Bytes) (keep : Bool) (a : Agent) :
    Activity.passes (loading s content keep a) = [] := by
  unfold loading
  split
  · rfl
  · rename_i bundle _
    have hlaunch := Activity.passes_settling
      (s.launcher.activities_settling a.count.attempts bundle a.isConnected a.host)
    split
    · rename_i candidate host _
      have htake : Activity.passes (takeover s candidate bundle.raw keep
          { a with host := host, count := a.count.add true }) = [] := by
        simp only [takeover, Activity.passes_append, passes_closing]
        cases keep <;> rfl
      rw [Activity.passes_append, hlaunch, htake]
      rfl
    · rw [Activity.passes_append, hlaunch]
      rfl

/-! ### Steps -/

/-- Instances have room for what is passed to them, and keep it. -/
theorem hasRoom_lasting : Instance.Lasting Instance.HasRoom where
  call h host e arguments := Instance.call_hasRoom h host e arguments
  pass h host e first payload := Instance.pass_hasRoom h host e first payload
  lifecycle h _ := ⟨h.natives, h.fits⟩

theorem hasRoom_launches (hnatives : s.launcher.natives.KeepsSize) : Launches s Instance.HasRoom :=
  Launcher.launch_hasRoom hnatives

/-- **Two texts are passed in one call, if the instance has announced its buffers**, and in none
otherwise. -/
theorem passing_delivers {k : Nat} {i : Instance} (hi : s.Serving k i) (hroom : i.HasRoom) (host : Host)
    (e : EntryPoint) (he : e = .messageReceived ∨ e = .directTrigger) (first payload : String) :
    List.Forall₂ Entrance.Delivers (Activity.passes (i.passing host e first payload))
      (i.guest.buffers.buffers.elim [] fun b => [⟨i.surroundings.instanceId, e, b, first, payload⟩]) := by
  obtain ⟨memory, hm⟩ := Option.isSome_iff_exists.1 hi.memory
  cases hb : i.guest.buffers.buffers with
  | none =>
    rw [(Instance.pass_unannounced hb host e first payload).2]
    exact .nil
  | some b =>
    obtain ⟨one, two, memory', -, hcarries, hpass⟩ := Instance.pass_ok hroom hb hm first payload
    rw [(hpass host e).2]
    have hone : Activity.passes [{ i with guest := { i.guest with memory := some memory' } }.activity host e
        [.i32 one, .i32 two]] = [⟨i.surroundings.instanceId, e.name, [.i32 one, .i32 two], memory'⟩] := by
      rcases he with rfl | rfl <;> rfl
    rw [hone]
    exact .cons ⟨rfl, rfl, one, two, rfl, hcarries⟩ .nil

theorem serving_delivers (hs : Sound s a) (hroom : Active Instance.HasRoom a) (e : EntryPoint)
    (he : e = .messageReceived ∨ e = .directTrigger) (first payload : String) :
    List.Forall₂ Entrance.Delivers
      (Activity.passes (serving a fun i host => i.passing host e first payload))
      (a.active.elim [] fun i => i.guest.buffers.buffers.elim [] fun b =>
        [⟨i.surroundings.instanceId, e, b, first, payload⟩]) := by
  unfold serving
  cases ha : a.active with
  | none => exact .nil
  | some i =>
    obtain ⟨k, -, hi⟩ := hs.serving i ha
    exact passing_delivers hi (hroom i ha) a.host e he first payload

/-- What is due where there may be an instance with announced buffers. -/
theorem due_eq (hr : a.phase = .running) (x : Input) :
    due s a x = a.active.elim [] fun i => i.guest.buffers.buffers.elim [] fun b =>
      dueTo s i.surroundings.instanceId b x := by
  unfold due
  rw [if_pos hr]
  cases a.active with
  | none => rfl
  | some i =>
    simp only [Option.elim_some]
    cases i.guest.buffers.buffers <;> rfl

/-- Most inputs make nothing due to anyone. -/
theorem due_eq_nil {x : Input} (h : ∀ k b, dueTo s k b x = []) : due s a x = [] := by
  unfold due
  split
  · split
    · rfl
    · split
      · rfl
      · exact h _ _
  · rfl

/-- **A step delivers what is due**, and nothing else. -/
theorem stepActivities_delivers (hs : Sound s a) (hroom : Active Instance.HasRoom a) (x : Input) :
    List.Forall₂ Entrance.Delivers (Activity.passes (stepActivities s a x)) (due s a x) := by
  have hstop : Activity.passes (stopping a) = [] := by
    rw [stopping, Activity.passes_append, passes_closing]
    rfl
  have hother : ∀ {e : EntryPoint} {arguments : List Value}, e = .setConnectionStatus ∨ e = .loop →
      Activity.passes (serving a fun i host => [i.activity host e arguments]) = [] := by
    intro e arguments he
    unfold serving
    cases a.active with
    | none => rfl
    | some i => rcases he with rfl | rfl <;> rfl
  have htell : ∀ connected, Activity.passes (telling a connected) = [] := fun _ => hother (.inl rfl)
  have h := step_handles s a x
  generalize step s a x = a', stepActivities s a x = as at h ⊢
  cases h with
  | load =>
    rw [passes_loading, due_eq_nil fun _ _ => rfl]
    exact .nil
  | @flow topic payload hr ht =>
    have hnothing : ∀ k b, dueTo s k b (.command (.event (.message topic payload))) = [] :=
      fun _ _ => if_pos (TopicLayout.route_artifact.1 ht)
    rw [passes_loading, due_eq_nil hnothing]
    exact .nil
  | stop hr hx =>
    have hnothing : ∀ k b, dueTo s k b x = [] := by
      intro k b
      obtain rfl | rfl := hx <;> rfl
    rw [hstop, due_eq_nil hnothing]
    exact .nil
  | connect =>
    rw [Activity.passes_append, htell, due_eq_nil fun _ _ => rfl]
    exact .nil
  | disconnect =>
    rw [htell, due_eq_nil fun _ _ => rfl]
    exact .nil
  | deliver hr ht =>
    rw [due_eq hr]
    simp only [dueTo, if_neg (TopicLayout.route_guest.1 ht)]
    exact serving_delivers hs hroom .messageReceived (.inl rfl) _ _
  | trigger hr =>
    rw [due_eq hr]
    exact serving_delivers hs hroom .directTrigger (.inr rfl) _ _
  | tick =>
    rw [hother (.inr rfl), due_eq_nil fun _ _ => rfl]
    exact .nil
  | clock =>
    rw [due_eq_nil fun _ _ => rfl]
    exact .nil
  | info =>
    rw [due_eq_nil fun _ _ => rfl]
    exact .nil
  | idle hr =>
    rw [due, if_neg hr]
    exact .nil

/-! ### Runs -/

theorem along_delivers (hnatives : s.launcher.natives.KeepsSize) (hs : Sound s a)
    (hroom : Active Instance.HasRoom a) (xs : List Input) :
    List.Forall₂ Entrance.Delivers (Activity.passes (along s (stepActivities s) a xs))
      (along s (due s) a xs) := by
  -- on the inputs to come, for any agent whose instance has room
  induction xs generalizing a with
  | nil => exact .nil
  | cons x xs ih =>
    rw [along, along, Activity.passes_append]
    have hrest := ih (hs.step x) (hroom.step hasRoom_lasting (hasRoom_launches hnatives) x)
    exact List.rel_append (stepActivities_delivers hs hroom x) hrest

/-! ### Answers -/

/-- **A call succeeds if it returned zero**, and fails if it returned anything else or trapped. -/
theorem call_result (i : Instance) (host : Host) (e : EntryPoint) (arguments : List Value) :
    ∃ r es, IsCall i.surroundings.instanceId e.name r es ∧
      (i.call host e arguments).host.history = host.history ++ es ∧
      ((i.call host e arguments).result = .ok () ↔ r = some 0) := by
  obtain ⟨r, es, m', hc, he⟩ := Instance.call_ends none i host e arguments
  rw [he]
  refine ⟨r, es, hc.call, hc.leads.history, ?_⟩
  cases r with
  | none => simp [Instance.answer]
  | some code =>
    have hzero : code.toInt32 = 0 ↔ code = 0 := by
      constructor
      · intro h
        rw [← UInt32.toUInt32_toInt32 code, h]
        rfl
      · rintro rfl
        rfl
    simp only [Instance.answer, checkCode]
    by_cases h0 : code.toInt32 = 0
    · rw [if_pos h0]
      simp [hzero.1 h0]
    · rw [if_neg h0]
      simp [mt hzero.2 h0]

/-- **A trigger is answered with success exactly if the export ran and returned zero.** -/
theorem trigger_answer (hs : Sound s a) (hroom : Active Instance.HasRoom a) (identifier payload : String) :
    ∃ es, (handle s (.trigger identifier payload) a).2.host.history = a.host.history ++ es ∧
      ((handle s (.trigger identifier payload) a).1 = .ok .taken ↔
        ∃ i ∈ a.active, calls es = [⟨i.surroundings.instanceId, EntryPoint.directTrigger.name, some 0⟩]) := by
  unfold handle
  by_cases hr : a.phase = .running
  · rw [if_pos hr]
    simp only [fire]
    cases ha : a.active with
    | none => exact ⟨[], by simp, by simp [Except.map]⟩
    | some i =>
      obtain ⟨k, -, hi⟩ := hs.serving i ha
      obtain ⟨memory, hm⟩ := Option.isSome_iff_exists.1 hi.memory
      simp only [Instance.trigger, if_pos hi.lifecycle]
      cases hb : i.guest.buffers.buffers with
      | none =>
        rw [(Instance.pass_unannounced hb _ _ _ _).1]
        exact ⟨[], by simp, by simp [Except.map]⟩
      | some b =>
        obtain ⟨one, two, memory', -, -, hpass⟩ := Instance.pass_ok (hroom i ha) hb hm identifier payload
        rw [(hpass a.host .directTrigger).1]
        obtain ⟨r, es, hcall, hhistory, hresult⟩ := call_result
          { i with guest := { i.guest with memory := some memory' } } a.host .directTrigger
          [.i32 one, .i32 two]
        refine ⟨es, hhistory, ?_⟩
        have hmap : ∀ x : Except Error Unit, (x.map fun _ => Reply.taken) = .ok .taken ↔ x = .ok () := by
          intro x
          cases x <;> simp [Except.map]
        rw [hmap, hresult, hcall.calls_eq]
        simp
  · rw [if_neg hr]
    exact ⟨[], by simp, by simp [hs.idle hr]⟩

/-- **What is due in a run is delivered, once and in order**: the exports that take texts are entered for
the deliveries that are due and for nothing else, each with its texts in the guest's buffers. A trigger
that comes next is answered with success exactly if its export runs and returns zero. -/
theorem deliveries_in_order (s : AgentSettings) (host : Host) (inputs : List Input)
    (hnatives : s.launcher.natives.KeepsSize) :
    (∃ es, (run s host inputs).host.history = host.history ++ es ∧
        List.Forall₂ Entrance.Delivers (passes es) (deliveries s host inputs)) ∧
      ∀ identifier payload, ∃ es,
        (handle s (.trigger identifier payload) (run s host inputs)).2.host.history =
            (run s host inputs).host.history ++ es ∧
          ((handle s (.trigger identifier payload) (run s host inputs)).1 = .ok .taken ↔
            ∃ i ∈ (run s host inputs).active,
              calls es = [⟨i.surroundings.instanceId, EntryPoint.directTrigger.name, some 0⟩]) := by
  have hroom := run_lasting hasRoom_lasting (hasRoom_launches hnatives) host inputs
  refine ⟨?_, fun identifier payload => trigger_answer (run_sound s host inputs) hroom identifier payload⟩
  obtain ⟨hs, -⟩ := begin_does s host
  obtain ⟨es, he, ht⟩ := (run_does s host inputs).history
  refine ⟨es, he, ?_⟩
  have hbegin : Activity.passes ((keptBundle s host).elim [] fun content =>
      loading s content false (fresh host)) = [] := by
    cases keptBundle s host with
    | none => rfl
    | some content => exact passes_loading s content false (fresh host)
  have hpasses : passes es = Activity.passes (along s (stepActivities s) (begin s (fresh host)) inputs) := by
    rw [passes, ht.entrances, ← Activity.passes, activities, Activity.passes_append, hbegin, List.nil_append]
  rw [hpasses]
  exact along_delivers hnatives hs (begin_lasting hasRoom_lasting (hasRoom_launches hnatives) host) inputs

end Agent

namespace Sample

/-- A guest that announces four octets for topics, and then two for payloads, when it is initialised. -/
def listener : Module :=
  guest [(EntryPoint.init.name, .function EntryPoint.init.signature fun _ =>
    .call "eea_set_message_buffers" [.i32 0, .i32 4, .i32 4, .i32 2] fun _ => .done 0)]

/-- An agent with functions of its own, for which every bundle is a listener. -/
def listening : AgentSettings :=
  { settings with
    launcher := { settings.launcher with compile := fun _ => some listener, natives := agentFunctions } }

/-- Messages before and after the listener is there, and a trigger. -/
def letters : List Agent.Input :=
  [.command (.event (.message "t" [97])), .command (.load (content 108)),
    .command (.event (.message "topic" [97, 98, 99])), .tick 0, .command (.trigger "id" "")]

end Sample

namespace Agent

/-- The listener is called for what comes after it was loaded. -/
theorem deliveries_in_order_letters :
    Sample.listening.launcher.natives.KeepsSize ∧
      (∃ es, (run Sample.listening Sample.host Sample.letters).host.history = Sample.host.history ++ es ∧
        List.Forall₂ Entrance.Delivers (passes es)
          (deliveries Sample.listening Sample.host Sample.letters)) := by
  have hnatives : Sample.listening.launcher.natives.KeepsSize := agentFunctions_keepSize
  exact ⟨hnatives, (deliveries_in_order Sample.listening Sample.host Sample.letters hnatives).1⟩

-- of the message that comes before the listener nothing is seen; the others are cut to its buffers
example : (passes (run Sample.listening Sample.host Sample.letters).host.history).map
    (fun e => (e.function, e.arguments)) =
      [(EntryPoint.messageReceived.name, [.i32 4, .i32 2]),
        (EntryPoint.directTrigger.name, [.i32 2, .i32 0])] := by decide +kernel

end Agent

end FlowHost
