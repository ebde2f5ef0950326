import FlowHost.Proofs.Work

/-!
# Calls of exports

A call of an export is one call in the history, whatever the guest does (`MachineM.enter_calls`),
and each operation on an instance is at most one call. The instance stays what it was: its
surroundings, its bundle and its exports.

* `Instance.start_yields`, `tick_yields`, `setConnectionStatus_yields`, `shutdown_yields`: **exactly one
  call**, where the lifecycle has a place for it.
* `Instance.deliver_yields`, `trigger_yields`: at most one; none if the texts cannot be passed.
-/

namespace FlowHost

open History

/-- **One call of an export**, from a guest on its host to what became of them. -/
structure Machine.Calls (σ : Surroundings) (Q : Option Path) (f : String) (r : Option UInt32)
    (m : Machine) (es : List Occurrence) (m' : Machine) : Prop where
  leads : Host.Leads σ.blobPlace Q m.host es m'.host
  call : IsCall σ.instanceId f r es
  isKnown : m'.guest.isKnown = m.guest.isKnown
  memory : m'.guest.memory.isSome = m.guest.memory.isSome

namespace MachineM

variable {σ : Surroundings} {Q : Option Path} {m m1 : Machine} {f : String}

/-- The guest's run and the two ends of the call around it. -/
theorem calls_of_run {body : Body} {arguments : List Value} {r : Option UInt32}
    (h : (body arguments).run σ (recordEntry σ f arguments m) = (r, m1)) :
    ∃ es, Machine.Calls σ Q f r m es (recordExit σ f r m1) := by
  obtain ⟨es, hw⟩ := Behaviour.run_works σ Q (body arguments) (recordEntry σ f arguments m)
  rw [h] at hw
  refine ⟨_, ((Host.leads_entered f arguments _).trans hw.leads).trans (Host.leads_left f r), ?_,
    hw.isKnown, hw.memory⟩
  exact ⟨_, _, es, hw.work, List.append_assoc [_] es [_]⟩

/-- **Whatever the guest does, to enter an export is one call of it.** A trap is a failed execution. -/
theorem enter_calls (σ : Surroundings) (Q : Option Path) (f : String) (body : Body)
    (arguments : List Value) (m : Machine) : ∃ r es m', Machine.Calls σ Q f r m es m' ∧
      enter σ f body arguments m = match r with
        | none => .error (.execution (f ++ " trapped")) m'
        | some code =>
          match checkCode f code.toInt32 with
          | .ok _ => .ok () m'
          | .error e => .error e m' := by
  cases h : (body arguments).run σ (recordEntry σ f arguments m) with
  | mk r m1 =>
    obtain ⟨es, hc⟩ := calls_of_run (Q := Q) h
    refine ⟨r, es, _, hc, ?_⟩
    unfold enter
    rw [h]
    cases r <;> rfl

/-- Where result codes are forgiven, **only a trap fails a call.** -/
theorem tolerant_enter_calls (σ : Surroundings) (Q : Option Path) (f : String) (body : Body)
    (arguments : List Value) (m : Machine) : ∃ r es m', Machine.Calls σ Q f r m es m' ∧
      tolerant (enter σ f body arguments) m = match r with
        | none => .error (.execution (f ++ " trapped")) m'
        | some _ => .ok () m' := by
  obtain ⟨r, es, m', hc, he⟩ := enter_calls σ Q f body arguments m
  refine ⟨r, es, m', hc, ?_⟩
  unfold tolerant
  rw [he]
  cases r with
  | none => rfl
  | some code =>
    unfold checkCode
    by_cases h0 : code.toInt32 = 0
    · simp [h0]
    · simp [h0, tolerateCode]

end MachineM

namespace Instance

/-- The same instance later on: only the state of its guest and its lifecycle may differ. -/
structure Continues (i i' : Instance) : Prop where
  surroundings : i'.surroundings = i.surroundings
  bundle : i'.bundle = i.bundle
  exports : i'.exports = i.exports
  isKnown : i'.guest.isKnown = i.guest.isKnown
  memory : i'.guest.memory.isSome = i.guest.memory.isSome

/-- What becomes of an instance and its host: the instance goes on, in the state `l`. -/
structure Yields (Q : Option Path) (i : Instance) (h : Host) (es : List Occurrence) (o : Outcome)
    (l : Lifecycle) : Prop where
  leads : Host.Leads i.surroundings.blobPlace Q h es o.host
  continues : i.Continues o.after
  lifecycle : o.after.lifecycle = l

variable {Q : Option Path} {i i' i'' : Instance} {h : Host}

theorem Continues.refl : i.Continues i := ⟨rfl, rfl, rfl, rfl, rfl⟩

theorem Continues.trans (hc : i.Continues i') (hc' : i'.Continues i'') : i.Continues i'' :=
  ⟨hc'.surroundings.trans hc.surroundings, hc'.bundle.trans hc.bundle, hc'.exports.trans hc.exports,
    hc'.isKnown.trans hc.isKnown, hc'.memory.trans hc.memory⟩

/-- What goes on from an instance in some state goes on from it in any. -/
theorem Continues.of_lifecycle {l : Lifecycle} (hc : Continues { i with lifecycle := l } i') :
    i.Continues i' := ⟨hc.surroundings, hc.bundle, hc.exports, hc.isKnown, hc.memory⟩

/-- What is made of the word that an export returned, if it returned one. -/
def answer (f : String) : Option UInt32 → Except Error Unit
  | none => .error (.execution (f ++ " trapped"))
  | some code => checkCode f code.toInt32

/-- **What a call of an entry point comes to**: the call of its export, and its word as the answer. -/
theorem call_ends (Q : Option Path) (i : Instance) (h : Host) (e : EntryPoint) (arguments : List Value) :
    ∃ r es m', Machine.Calls i.surroundings Q e.name r ⟨i.guest, h⟩ es m' ∧
      i.call h e arguments = ⟨answer e.name r, { i with guest := m'.guest }, m'.host⟩ := by
  obtain ⟨r, es, m', hc, he⟩ := MachineM.enter_calls i.surroundings Q e.name (i.exports.entry e)
    arguments ⟨i.guest, h⟩
  refine ⟨r, es, m', hc, ?_⟩
  unfold call onMachine
  rw [he]
  cases r with
  | none => rfl
  | some code =>
    simp only [answer]
    cases checkCode e.name code.toInt32 <;> rfl

/-- **A call of an entry point.** -/
theorem call_yields (e : EntryPoint) (arguments : List Value) :
    ∃ r es, IsCall i.surroundings.instanceId e.name r es ∧
      Yields Q i h es (i.call h e arguments) i.lifecycle := by
  obtain ⟨r, es, m', hc, he⟩ := call_ends Q i h e arguments
  rw [he]
  exact ⟨r, es, hc.call, hc.leads, ⟨rfl, rfl, rfl, hc.isKnown, hc.memory⟩, rfl⟩

/-- **A start is one call**, and the instance runs whatever it reports. -/
theorem start_yields (hi : i.lifecycle = .instantiated) :
    ∃ r es, IsCall i.surroundings.instanceId EntryPoint.init.name r es ∧
      Yields Q i h es (i.start h) .running := by
  obtain ⟨r, es, hc, hy⟩ := call_yields (Q := Q) (i := { i with lifecycle := .running }) (h := h) .init []
  refine ⟨r, es, hc, ?_⟩
  unfold start
  rw [if_pos hi]
  exact ⟨hy.leads, hy.continues.of_lifecycle, hy.lifecycle⟩

theorem tick_yields (hi : i.lifecycle = .running) (now : Int64) :
    ∃ r es, IsCall i.surroundings.instanceId EntryPoint.loop.name r es ∧
      Yields Q i h es (i.tick h now) .running := by
  obtain ⟨r, es, hc, hy⟩ := call_yields (Q := Q) (i := i) (h := h) .loop [.i64 now.toUInt64]
  refine ⟨r, es, hc, ?_⟩
  unfold tick
  rw [if_pos hi]
  exact hi ▸ hy

theorem setConnectionStatus_yields (hi : i.lifecycle = .running) (connected : Bool) :
    ∃ r es, IsCall i.surroundings.instanceId EntryPoint.setConnectionStatus.name r es ∧
      Yields Q i h es (i.setConnectionStatus h connected) .running := by
  obtain ⟨r, es, hc, hy⟩ := call_yields (Q := Q) (i := i) (h := h) .setConnectionStatus
    (statusArgument connected)
  refine ⟨r, es, hc, ?_⟩
  unfold setConnectionStatus
  rw [hi] at hy ⊢
  exact hy

/-- **A shutdown is one call**, and it is over whatever the call reports. -/
theorem shutdown_yields (hi : i.lifecycle = .running) :
    ∃ r es, IsCall i.surroundings.instanceId EntryPoint.shutdown.name r es ∧
      Yields Q i h es (i.shutdown h) .terminated := by
  obtain ⟨r, es, hc, hy⟩ := call_yields (Q := Q) (i := { i with lifecycle := .shuttingDown }) (h := h)
    .shutdown []
  refine ⟨r, es, hc, ?_⟩
  unfold shutdown
  rw [hi]
  exact ⟨hy.leads, hy.continues.of_lifecycle.trans ⟨rfl, rfl, rfl, rfl, rfl⟩, rfl⟩

/-- Two texts are passed with one call, or with none. -/
theorem pass_yields (e : EntryPoint) (first payload : String) :
    ∃ es, (es = [] ∨ ∃ r, IsCall i.surroundings.instanceId e.name r es) ∧
      Yields Q i h es (i.pass h e first payload) i.lifecycle := by
  unfold pass
  cases hb : i.guest.buffers.get with
  | error fault => exact ⟨[], .inl rfl, .refl, .refl, rfl⟩
  | ok buffers =>
    cases hm : i.guest.memory with
    | none => exact ⟨[], .inl rfl, .refl, .refl, rfl⟩
    | some memory =>
      simp only
      have hcont : ∀ written : Memory,
          i.Continues { i with guest := { i.guest with memory := some written } } :=
        fun written => ⟨rfl, rfl, rfl, rfl, by simp [hm]⟩
      cases hw : buffers.write first payload memory with
      | error fault written => exact ⟨[], .inl rfl, .refl, hcont written, rfl⟩
      | ok sizes written =>
        obtain ⟨r, es, hc, hy⟩ := call_yields (Q := Q) (h := h)
          (i := { i with guest := { i.guest with memory := some written } }) e
          [.i32 (UInt32.ofNat sizes.1.written), .i32 (UInt32.ofNat sizes.2.written)]
        exact ⟨es, .inr ⟨r, hc⟩, hy.leads, (hcont written).trans hy.continues, hy.lifecycle⟩

theorem deliver_yields (hi : i.lifecycle = .running) (topic payload : String) :
    ∃ es, (es = [] ∨ ∃ r, IsCall i.surroundings.instanceId EntryPoint.messageReceived.name r es) ∧
      Yields Q i h es (i.deliver h topic payload) .running := by
  unfold deliver
  rw [if_pos hi, ← hi]
  exact pass_yields .messageReceived topic payload

theorem trigger_yields (hi : i.lifecycle = .running) (identifier payload : String) :
    ∃ es, (es = [] ∨ ∃ r, IsCall i.surroundings.instanceId EntryPoint.directTrigger.name r es) ∧
      Yields Q i h es (i.trigger h identifier payload) .running := by
  unfold trigger
  rw [if_pos hi, ← hi]
  exact pass_yields .directTrigger identifier payload

end Instance

end FlowHost
