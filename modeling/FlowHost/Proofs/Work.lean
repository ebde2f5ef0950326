import FlowHost.Proofs.Run
import FlowHost.Proofs.Sized

/-!
# What guest code does to the host

Guest code reaches the host through its imports only. `Machine.Works` says what a stretch of
it does: it queues messages and saves blobs, all in its own name, and the guest's memory is
still there if it was.

* `CoreM.Works`: the same for the work of a core import, piece by piece.
* `Behaviour.Reaches.works`: **up to each of its points a run has done nothing else.**
-/

namespace FlowHost

open History

namespace CoreM

variable {α β : Type} {σ : Surroundings} {Q : Option Path} {st : CoreState}

/-- The state after work, failed or not. -/
def after : EStateM.Result Error CoreState α → CoreState
  | .ok _ st => st
  | .error _ st => st

/-- Work that queues messages and saves blobs in the name of its instance, and nothing else. -/
def Works (σ : Surroundings) (Q : Option Path) (st : CoreState) (x : CoreM α) : Prop :=
  ∃ es, Host.Leads σ.blobPlace Q st.host es (after (x st)).host ∧ IsWork σ.instanceId es

/-- Work that leaves the host alone. -/
theorem Works.of_host {x : CoreM α} (h : (after (x st)).host = st.host) : Works σ Q st x :=
  ⟨[], by rw [h]; exact .refl, .nil⟩

theorem Works.bind {x : CoreM α} {f : α → CoreM β} (hx : Works σ Q st x)
    (hf : ∀ a st', x st = .ok a st' → Works σ Q st' (f a)) : Works σ Q st (x >>= f) := by
  obtain ⟨es, hl, hw⟩ := hx
  unfold Works
  simp only [Bind.bind, EStateM.bind]
  cases hr : x st with
  | error e st' => rw [hr] at hl; exact ⟨es, hl, hw⟩
  | ok a st' =>
    rw [hr] at hl
    obtain ⟨es', hl', hw'⟩ := hf a st' hr
    exact ⟨es ++ es', hl.trans hl', hw.append hw'⟩

theorem works_pure (a : α) : Works σ Q st (pure a : CoreM α) := .of_host rfl

theorem works_throw (e : Error) : Works σ Q st (throw e : CoreM α) := .of_host rfl

theorem works_onMemory (x : MemoryM α) : Works σ Q st (onMemory x) := by
  apply Works.of_host
  unfold onMemory
  cases x st.memory <;> rfl

theorem works_ofExcept (x : Except Error α) : Works σ Q st (ofExcept x) := by
  cases x with
  | ok a => exact works_pure a
  | error e => exact works_throw e

theorem works_get {f : CoreState → CoreM α} (h : Works σ Q st (f st)) :
    Works σ Q st (MonadState.get >>= f) := h

theorem works_set {st' : CoreState} {es : List Occurrence}
    (hl : Host.Leads σ.blobPlace Q st.host es st'.host) (hw : IsWork σ.instanceId es) :
    Works σ Q st (MonadStateOf.set st' : CoreM PUnit) := ⟨es, hl, hw⟩

end CoreM

namespace CoreCall

open FlowHost.CoreM

variable {σ : Surroundings} {Q : Option Path} {st : CoreState}

/-- **A core import does its work in the name of its instance.** -/
theorem attempt_works (c : CoreCall) : Works σ Q st (c.attempt σ) := by
  cases c with
  | deviceId out cap len => exact (works_onMemory _).bind fun _ _ _ => works_pure _
  | time out => exact works_get (works_onMemory _)
  | send t tl p pl qos =>
    refine (works_onMemory _).bind fun topic st1 _ => ?_
    refine (works_onMemory _).bind fun payload st2 _ => works_get ?_
    split
    · rename_i ho
      have hl := Host.leads_queue (P := σ.blobPlace) (Q := Q) (h := st2.host) (some σ.instanceId)
        (.publish ⟨topic, payload, QoS.ofWord qos⟩)
      rw [if_pos ho] at hl
      exact works_set hl (.queued _)
    · exact works_throw _
  | setBuffers t tl p pl =>
    refine (works_onMemory _).bind fun _ st1 _ => ?_
    refine (works_onMemory _).bind fun _ st2 _ => works_get ?_
    exact (works_ofExcept _).bind fun announced st3 h => works_set
      (by
        have : st3 = st2 := by
          cases hn : st2.buffers.negotiate ⟨Region.ofWords t tl, Region.ofWords p pl⟩ with
          | ok a => rw [hn] at h; cases h; rfl
          | error e => rw [hn] at h; cases h
        rw [this]; exact .refl) .nil
  | sleep milliseconds => exact works_pure _
  | storageRead out cap len =>
    refine works_get ((works_ofExcept _).bind fun found st1 _ => ?_)
    cases found with
    | none => exact works_pure _
    | some blob => exact (works_onMemory _).bind fun _ _ _ => works_pure _
  | storageSave ptr len =>
    refine (works_onMemory _).bind fun blob st1 _ => works_get ?_
    cases hs : st1.host.saveBlob σ.blobPlace σ.instanceId blob with
    | mk outcome host =>
      simp only
      refine Works.bind (works_set (Host.leads_saveBlob hs) ?_) fun _ _ _ => works_ofExcept _
      split
      · exact .saved blob
      · exact .nil
  | trace ptr len level =>
    exact (works_onMemory _).bind fun text st1 _ => ⟨[], .of_eq rfl rfl rfl rfl, .nil⟩

theorem run_snd {c : CoreCall} : (c.run σ st).2 = after (c.attempt σ st) := by
  unfold run
  cases c.attempt σ st <;> rfl

end CoreCall

/-- **A stretch of guest code**: what it did is the work of imports, and the memory is still there
if it was. -/
structure Machine.Works (σ : Surroundings) (Q : Option Path) (m : Machine) (es : List Occurrence)
    (m' : Machine) : Prop where
  leads : Host.Leads σ.blobPlace Q m.host es m'.host
  work : IsWork σ.instanceId es
  isKnown : m'.guest.isKnown = m.guest.isKnown
  memory : m'.guest.memory.isSome = m.guest.memory.isSome

namespace Machine

variable {σ : Surroundings} {Q : Option Path} {m m' m'' : Machine} {es es' : List Occurrence}

theorem Works.refl : Works σ Q m [] m := ⟨.refl, .nil, rfl, rfl⟩

theorem Works.trans (h : Works σ Q m es m') (h' : Works σ Q m' es' m'') :
    Works σ Q m (es ++ es') m'' :=
  ⟨h.leads.trans h'.leads, h.work.append h'.work, h'.isKnown.trans h.isKnown, h'.memory.trans h.memory⟩

/-- **What a call of an import makes of a machine**: nothing, where there is no such import or the host does
not know the memory, or else what the work of a core import or of a native function leaves. -/
inductive Called (σ : Surroundings) (m : Machine) : Machine → Prop
  | idle : Called σ m m
  | core {memory : Memory} {st : CoreState} (c : CoreCall) (hm : m.guest.memory = some memory)
      (hst : CoreM.after (c.attempt σ ⟨memory, m.guest.buffers, m.host⟩) = st) :
      Called σ m
        { guest := { m.guest with memory := some st.memory, buffers := st.buffers }
          host := st.host }
  | native {memory : Memory} {f : NativeFunction} {st : CallState} (arguments : List Value)
      (hm : m.guest.memory = some memory) (hf : f ∈ σ.natives.functions)
      (hst : CallM.after (f.invoke σ.deviceId arguments ⟨memory, m.host.output⟩) = st) :
      Called σ m
        { guest := { m.guest with memory := some st.memory }
          host := { m.host with output := st.output } }

/-- **Every call is one of these.** -/
theorem call_called {function : String} {arguments : List Value} {r : Option (List Value)}
    (h : m.call σ function arguments = (r, m')) : Called σ m m' := by
  unfold call at h
  split at h
  · rename_i c _
    unfold callCore at h
    cases hm : m.guest.memory with
    | none =>
      simp only [hm] at h
      cases h
      exact .idle
    | some memory =>
      simp only [hm] at h
      split at h
      · cases h
        exact .core c hm CoreCall.run_snd.symm
      · cases h
        exact .idle
  · split at h
    · rename_i f hf
      have hmem : f ∈ σ.natives.functions := List.mem_of_find?_eq_some hf
      unfold callNative at h
      cases hm : m.guest.memory with
      | none =>
        simp only [hm] at h
        cases h
        exact .idle
      | some memory =>
        simp only [hm] at h
        split at h
        · cases hr : f.invoke σ.deviceId arguments ⟨memory, m.host.output⟩ with
          | ok results st =>
            simp only [hr] at h
            cases h
            exact .native arguments hm hmem (congrArg CallM.after hr)
          | error e st =>
            simp only [hr] at h
            cases h
            exact .native arguments hm hmem (congrArg CallM.after hr)
        · cases h
          exact .idle
    · cases h
      exact .idle

/-- **A call of an import is a stretch of work.** A native function puts nothing out but what is printed and
noted. -/
theorem call_works {function : String} {arguments : List Value} {r : Option (List Value)}
    (h : m.call σ function arguments = (r, m')) : ∃ es, Works σ Q m es m' := by
  cases call_called h with
  | idle => exact ⟨[], .refl⟩
  | core c hm hst =>
    obtain ⟨es, hl, hw⟩ := @CoreCall.attempt_works σ Q _ c
    rw [hst] at hl
    exact ⟨es, hl, hw, rfl, by simp [hm]⟩
  | native arguments hm hf hst => exact ⟨[], .of_eq rfl rfl rfl rfl, .nil, rfl, by simp [hm]⟩

theorem grow_works (limits : Limits) (delta : Nat) : Works σ Q m [] (m.grow limits delta).2 := by
  cases hm : m.guest.memory with
  | none => rw [grow_of_none hm]; exact .refl
  | some memory => rw [grow_of_some hm]; exact ⟨.of_eq rfl rfl rfl rfl, .nil, rfl, by simp [hm]⟩

theorem access_works {limits : Limits} {index : Nat} {a : Access} {answer : Bytes}
    (h : m.access limits index a = some (answer, m')) : Works σ Q m [] m' := by
  obtain ⟨x, x', -, -, rfl⟩ := access_eq_some h
  exact ⟨.of_eq rfl rfl rfl rfl, .nil, rfl, rfl⟩

end Machine

namespace Behaviour

variable {σ : Surroundings} {Q : Option Path} {x y : Behaviour × Machine}

/-- What one step of a run does. -/
theorem Move.works (h : Move σ x y) : ∃ es, Machine.Works σ Q x.2 es y.2 := by
  cases h with
  | pages => exact ⟨[], .refl⟩
  | grow => exact ⟨[], Machine.grow_works _ _⟩
  | load => exact ⟨[], .refl⟩
  | store hm => exact ⟨[], .of_eq rfl rfl rfl rfl, .nil, rfl, by simp [hm]⟩
  | spare ha => exact ⟨[], Machine.access_works ha⟩
  | getGlobal => exact ⟨[], .refl⟩
  | setGlobal => exact ⟨[], .of_eq rfl rfl rfl rfl, .nil, rfl, rfl⟩
  | call hc => exact Machine.call_works hc
  | trapped hc => exact Machine.call_works hc

/-- **Up to each of its points a run has done nothing but the work of its imports.** -/
theorem Reaches.works (h : Reaches σ x y) : ∃ es, Machine.Works σ Q x.2 es y.2 := by
  induction h with
  | refl => exact ⟨[], .refl⟩
  | tail _ hy ih =>
    obtain ⟨es, hw⟩ := ih
    obtain ⟨es', hw'⟩ := hy.works (Q := Q)
    exact ⟨es ++ es', hw.trans hw'⟩

/-- And so has a whole run. -/
theorem run_works (σ : Surroundings) (Q : Option Path) (b : Behaviour) (m : Machine) :
    ∃ es, Machine.Works σ Q m es (b.run σ m).2 := by
  obtain ⟨b', hr⟩ := run_reaches σ b m
  exact hr.works

end Behaviour

end FlowHost
