import FlowHost.Proofs.Accesses
import FlowHost.Proofs.Work

/-!
# What guest code sends

Guest code sends a message by a call of an import, with places for a topic and a payload in its
memory. `ImportCall.message?` says which message a call asks for, whatever becomes of it, and
`Behaviour.sent` lists the messages of a whole run.

* `Behaviour.run_tracks`: what is told of guest code call by call can be told of a run.
* `Behaviour.run_takes`: **an open queue takes the messages of a run in their order**, and nothing
  else from it.
-/

namespace FlowHost

/-- **The message that a core import is asked to send**, if its topic and its payload can be read. -/
def CoreCall.message? (memory : Memory) : CoreCall → Option Message
  | send topic topicLen payload payloadLen qos =>
    match MemoryM.decodeText (address topic) (capacity topicLen) memory,
        MemoryM.decodeText (address payload) (capacity payloadLen) memory with
    | .ok topic _, .ok payload _ => some ⟨topic, payload, QoS.ofWord qos⟩
    | _, _ => none
  | _ => none

/-- A call of an import, on the machine as it is then. -/
structure ImportCall where
  function : String
  arguments : List Value
  machine : Machine

/-- The message that a call asks to send: it is a core import's, and the host knows the memory. -/
def ImportCall.message? (c : ImportCall) : Option Message :=
  ((Machine.words? c.arguments).bind (CoreCall.ofWords? c.function)).bind fun call =>
    c.machine.guest.memory.bind fun memory =>
      if c.machine.guest.isKnown then call.message? memory else none

namespace Behaviour

/-- The calls of imports that a run makes, in their order. -/
def importCalls (σ : Surroundings) : Behaviour → Machine → List ImportCall
  | done _, _ => []
  | trap, _ => []
  | pages next, m =>
    match m.guest.memory with
    | some memory => importCalls σ (next memory.pages) m
    | none => []
  | grow delta next, m => importCalls σ (next (m.grow σ.limits delta).1) (m.grow σ.limits delta).2
  | load start width next, m =>
    match m.guest.memory with
    | some memory =>
      if memory.contains start width then importCalls σ (next (memory.bytesAt start width)) m else []
    | none => []
  | store start content next, m =>
    match m.guest.memory with
    | some memory =>
      if memory.contains start content.length then
        importCalls σ next
          { m with guest := { m.guest with memory := some (memory.overlay start content) } }
      else []
    | none => []
  | spare index access next, m =>
    match m.access σ.limits index access with
    | some (answer, m) => importCalls σ (next answer) m
    | none => []
  | getGlobal index next, m =>
    match m.guest.globals[index]? with
    | some value => importCalls σ (next value) m
    | none => []
  | setGlobal index value next, m =>
    if index < m.guest.globals.length then
      importCalls σ next { m with guest := { m.guest with globals := m.guest.globals.set index value } }
    else []
  | call function arguments next, m =>
    ⟨function, arguments, m⟩ ::
      match m.call σ function arguments with
      | (some results, m) => importCalls σ (next results) m
      | (none, _) => []

end Behaviour

/-- What guest code does without a call of an import: it works on its own memories and globals. -/
structure Machine.Quiet (m m' : Machine) : Prop where
  host : m'.host = m.host
  buffers : m'.guest.buffers = m.guest.buffers
  isKnown : m'.guest.isKnown = m.guest.isKnown
  memory : m'.guest.memory.isSome = m.guest.memory.isSome

/-- **What can be told of guest code call by call**: of machines on the way from one to another, and of the calls of
imports in between. -/
structure ImportCall.Tracks (σ : Surroundings) (T : Machine → List ImportCall → Machine → Prop) : Prop where
  quiet : ∀ {m m'}, m.Quiet m' → T m [] m'
  trans : ∀ {m m' m'' cs cs'}, T m cs m' → T m' cs' m'' → T m (cs ++ cs') m''
  call : ∀ {m m' function arguments r}, m.call σ function arguments = (r, m') →
    T m [⟨function, arguments, m⟩] m'

namespace Behaviour

/-- **What is told of guest code call by call can be told of a run.** -/
theorem run_tracks {σ : Surroundings} {T : Machine → List ImportCall → Machine → Prop}
    (hT : ImportCall.Tracks σ T) (b : Behaviour) (m : Machine) :
    T m (b.importCalls σ m) (b.run σ m).2 := by
  have hrefl : ∀ m, T m [] m := fun m => hT.quiet ⟨rfl, rfl, rfl, rfl⟩
  induction b generalizing m with
  | done r => exact hrefl m
  | trap => exact hrefl m
  | pages next ih =>
    simp only [run, importCalls]
    cases m.guest.memory with
    | none => exact hrefl m
    | some memory => exact ih _ m
  | grow delta next ih =>
    have hg : m.Quiet (m.grow σ.limits delta).2 := by
      cases hm : m.guest.memory with
      | none => rw [Machine.grow_of_none hm]; exact ⟨rfl, rfl, rfl, rfl⟩
      | some memory => rw [Machine.grow_of_some hm]; exact ⟨rfl, rfl, rfl, by simp [hm]⟩
    exact hT.trans (hT.quiet hg) (ih _ _)
  | load start width next ih =>
    simp only [run, importCalls]
    cases m.guest.memory with
    | none => exact hrefl m
    | some memory =>
      by_cases hc : memory.contains start width = true
      · simp only [hc, if_true]
        exact ih _ m
      · simp only [hc]
        exact hrefl m
  | store start content next ih =>
    simp only [run, importCalls]
    cases hm : m.guest.memory with
    | none => exact hrefl m
    | some memory =>
      by_cases hc : memory.contains start content.length = true
      · simp only [hc, if_true]
        set stored : Machine :=
          { m with guest := { m.guest with memory := some (memory.overlay start content) } }
        have hq : m.Quiet stored := ⟨rfl, rfl, rfl, by simp [stored, hm]⟩
        exact hT.trans (hT.quiet hq) (ih stored)
      · simp only [hc]
        exact hrefl m
  | spare index access next ih =>
    simp only [run, importCalls]
    cases ha : m.access σ.limits index access with
    | none => exact hrefl m
    | some p =>
      have hq : m.Quiet p.2 := by
        obtain ⟨_, _, -, -, hp⟩ := Machine.access_eq_some (show _ = some (p.1, p.2) from ha)
        rw [hp]
        exact ⟨rfl, rfl, rfl, rfl⟩
      exact hT.trans (hT.quiet hq) (ih p.1 p.2)
  | getGlobal index next ih =>
    simp only [run, importCalls]
    cases m.guest.globals[index]? with
    | none => exact hrefl m
    | some value => exact ih _ m
  | setGlobal index value next ih =>
    simp only [run, importCalls]
    by_cases hi : index < m.guest.globals.length
    · simp only [hi, if_true]
      set changed : Machine := { m with guest := { m.guest with globals := m.guest.globals.set index value } }
      have hq : m.Quiet changed := ⟨rfl, rfl, rfl, rfl⟩
      exact hT.trans (hT.quiet hq) (ih changed)
    · simp only [hi, if_false]
      exact hrefl m
  | call function arguments next ih =>
    simp only [run, importCalls]
    cases hc : m.call σ function arguments with
    | mk results m' =>
      have hcall := hT.call hc
      cases results with
      | none => exact hcall
      | some results => exact hT.trans hcall (ih results m')

/-- **The messages that a run asks to send**, in the order of its calls. -/
def sent (σ : Surroundings) (b : Behaviour) (m : Machine) : List Message :=
  (b.importCalls σ m).filterMap ImportCall.message?

end Behaviour

/-- The queue takes requests on the way from a host to a later one, if it is open, and stays open. -/
structure Host.Takes (h : Host) (requests : List Outbound) (h' : Host) : Prop where
  isOpen : h'.isOpen = h.isOpen
  outbound : h.isOpen = true → h'.outbound = h.outbound ++ requests

namespace Host

variable {h h' h'' : Host} {rs rs' : List Outbound}

theorem Takes.refl : Takes h [] h := ⟨rfl, fun _ => (List.append_nil _).symm⟩

theorem Takes.trans (ht : Takes h rs h') (ht' : Takes h' rs' h'') : Takes h (rs ++ rs') h'' := by
  refine ⟨ht'.isOpen.trans ht.isOpen, fun ho => ?_⟩
  rw [ht'.outbound (ht.isOpen.trans ho), ht.outbound ho, List.append_assoc]

/-- Work that touches nothing of the queue. -/
theorem Takes.of_eq (h1 : h'.isOpen = h.isOpen) (h2 : h'.outbound = h.outbound) : Takes h [] h' :=
  ⟨h1, fun _ => by rw [h2, List.append_nil]⟩

/-- A queue that is open takes a request, whoever makes it. -/
theorem takes_queue (sender : Option Nat) (r : Outbound) : Takes h [r] (h.queue sender r) := by
  unfold queue
  split
  · exact ⟨rfl, fun _ => rfl⟩
  · rename_i hc
    exact ⟨rfl, fun ho => absurd ho hc⟩

end Host

namespace CoreM

variable {α β : Type} {st : CoreState}

/-- Work that leaves the queue alone. -/
def Quiet (st : CoreState) (x : CoreM α) : Prop := Host.Takes st.host [] (after (x st)).host

theorem Quiet.of_eq {x : CoreM α} (h1 : (after (x st)).host.isOpen = st.host.isOpen)
    (h2 : (after (x st)).host.outbound = st.host.outbound) : Quiet st x := Host.Takes.of_eq h1 h2

theorem Quiet.bind {x : CoreM α} {f : α → CoreM β} (hx : Quiet st x)
    (hf : ∀ a st', x st = .ok a st' → Quiet st' (f a)) : Quiet st (x >>= f) := by
  unfold Quiet at hx ⊢
  simp only [Bind.bind, EStateM.bind]
  cases hr : x st with
  | error e st' => rw [hr] at hx; exact hx
  | ok a st' => rw [hr] at hx; exact hx.trans (hf a st' hr)

theorem quiet_get {f : CoreState → CoreM α} (h : Quiet st (f st)) : Quiet st (get >>= f) := h

theorem quiet_onMemory (x : MemoryM α) : Quiet st (onMemory x) := by
  have h : (after (onMemory x st)).host = st.host := by
    unfold onMemory
    cases x st.memory <;> rfl
  exact .of_eq (by rw [h]) (by rw [h])

theorem ofExcept_state {x : Except Error α} {a : α} {st' : CoreState}
    (h : ofExcept x st = .ok a st') : st' = st := by
  cases x with
  | ok b => cases h; rfl
  | error e => cases h

theorem quiet_ofExcept (x : Except Error α) : Quiet st (ofExcept x) := by
  cases x <;> exact .of_eq rfl rfl

end CoreM

namespace CoreCall

open FlowHost.CoreM

variable {σ : Surroundings} {st : CoreState}

/-- **A core import queues the message that it is asked to send**, and nothing else. -/
theorem attempt_takes (c : CoreCall) :
    Host.Takes st.host ((c.message? st.memory).toList.map .publish) (after (c.attempt σ st)).host := by
  cases c with
  | send t tl p pl qos =>
    simp only [attempt, message?, onMemory, bind, EStateM.bind]
    obtain ⟨topic, -, ht⟩ | ⟨-, e, ht⟩ := MemoryM.decodeText_cases (address t) (capacity tl) st.memory
    · obtain ⟨payload, -, hp⟩ | ⟨-, e, hp⟩ := MemoryM.decodeText_cases (address p) (capacity pl) st.memory
      · simp only [ht, hp, CoreM.get_apply]
        have hq := Host.takes_queue (h := st.host) (some σ.instanceId)
          (.publish ⟨topic, payload, QoS.ofWord qos⟩)
        by_cases ho : st.host.isOpen = true
        · rw [if_pos ho]
          exact hq
        · rw [if_neg ho]
          exact ⟨rfl, fun h => absurd h ho⟩
      · simp only [ht, hp]
        exact .refl
    · simp only [ht]
      exact .refl
  | deviceId out cap len => exact (quiet_onMemory _).bind fun _ _ _ => .of_eq rfl rfl
  | time out => exact quiet_get (quiet_onMemory _)
  | sleep milliseconds => exact Quiet.of_eq rfl rfl
  | setBuffers t tl p pl =>
    refine (quiet_onMemory _).bind fun _ st1 _ => (quiet_onMemory _).bind fun _ st2 _ => quiet_get ?_
    refine (quiet_ofExcept _).bind fun announced st3 h => ?_
    rw [ofExcept_state h]
    exact .of_eq rfl rfl
  | storageRead out cap len =>
    refine quiet_get ((quiet_ofExcept _).bind fun found st1 _ => ?_)
    cases found with
    | none => exact .of_eq rfl rfl
    | some blob => exact (quiet_onMemory _).bind fun _ _ _ => .of_eq rfl rfl
  | storageSave ptr len =>
    refine (quiet_onMemory _).bind fun blob st1 _ => quiet_get ?_
    cases hs : st1.host.saveBlob σ.blobPlace σ.instanceId blob with
    | mk outcome host =>
      have hhost : host.isOpen = st1.host.isOpen ∧ host.outbound = st1.host.outbound := by
        unfold Host.saveBlob at hs
        split at hs <;> cases hs <;> exact ⟨rfl, rfl⟩
      have hset : Quiet st1 (set { st1 with host := host } : CoreM PUnit) := .of_eq hhost.1 hhost.2
      exact hset.bind fun _ _ _ => quiet_ofExcept _
  | trace ptr len level => exact (quiet_onMemory _).bind fun _ _ _ => .of_eq rfl rfl

end CoreCall

namespace Machine

variable {σ : Surroundings} {m m' : Machine}

/-- **A call of an import queues the message that it asks to send**, and nothing else. -/
theorem call_takes {function : String} {arguments : List Value} {r : Option (List Value)}
    (h : m.call σ function arguments = (r, m')) :
    Host.Takes m.host ((ImportCall.message? ⟨function, arguments, m⟩).toList.map .publish) m'.host := by
  unfold call at h
  unfold ImportCall.message?
  cases hw : (words? arguments).bind (CoreCall.ofWords? function) with
  | none =>
    -- a native function has no way to the queue
    simp only [hw] at h
    cases hf : σ.natives.find? function with
    | none => simp only [hf] at h; cases h; exact .refl
    | some f =>
      simp only [hf, callNative] at h
      split at h
      · cases h; exact .refl
      · split at h
        · split at h <;> cases h <;> exact .of_eq rfl rfl
        · cases h; exact .refl
  | some c =>
    simp only [hw, callCore, Option.bind_some] at h ⊢
    cases hm : m.guest.memory with
    | none => simp only [hm] at h; cases h; exact .refl
    | some memory =>
      simp only [hm, Option.bind_some] at h ⊢
      by_cases hk : m.guest.isKnown = true
      · simp only [hk, if_true] at h ⊢
        cases h
        rw [CoreCall.run_snd]
        exact @CoreCall.attempt_takes σ ⟨memory, m.guest.buffers, m.host⟩ c
      · simp only [hk] at h ⊢
        cases h
        exact .refl

end Machine

namespace Behaviour

variable {σ : Surroundings}

/-- **A run puts its messages into the queue**, in the order of its calls, and nothing else. -/
theorem run_takes (σ : Surroundings) (b : Behaviour) (m : Machine) :
    Host.Takes m.host ((b.sent σ m).map .publish) (b.run σ m).2.host := by
  have htracks : ImportCall.Tracks σ fun m cs m' =>
      Host.Takes m.host ((cs.filterMap ImportCall.message?).map .publish) m'.host :=
    { quiet := fun hq => .of_eq (by rw [hq.host]) (by rw [hq.host])
      trans := fun h h' => by
        rw [List.filterMap_append, List.map_append]
        exact h.trans h'
      call := fun {m m' function arguments r} hc => by
        have ht := Machine.call_takes hc
        cases hmsg : ImportCall.message? ⟨function, arguments, m⟩ <;> simpa [hmsg] using ht }
  exact run_tracks htracks b m

end Behaviour

end FlowHost
