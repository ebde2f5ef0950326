import FlowHost.Proofs.Entrances

/-!
# The discipline of an instance

Whatever is asked of an instance, and in whatever order, its lifecycle decides what its guest is entered for. The
lifecycle moves before a start and around a shutdown, so that neither a trap nor a result code holds it up, and
neither can be had twice.

* `Instance.Serves`: what one demand comes to, in one of four ways.
* `Service.IsRegular`: what one demand may do in a state.
* `Instance.services_regular`: **all demands are regular**, along sequences of any length, with hosts of any kind.
-/

namespace FlowHost

open History

/-- Something that is asked of an instance. -/
inductive Demand where
  | start
  | tick (now : Int64)
  | deliver (topic payload : String)
  | trigger (identifier payload : String)
  | connection (connected : Bool)
  | shutdown

/-- The entry point that a demand is for. -/
def Demand.entry : Demand → EntryPoint
  | start => .init
  | tick _ => .loop
  | deliver _ _ => .messageReceived
  | trigger _ _ => .directTrigger
  | connection _ => .setConnectionStatus
  | shutdown => .shutdown

/-- The states in which an entry point may be entered. -/
def EntryPoint.places : EntryPoint → List Lifecycle
  | init => [.instantiated]
  | loop | messageReceived | directTrigger => [.running]
  | setConnectionStatus | shutdown => [.instantiated, .running]

/-- The state that a demand leaves where it has a place. -/
def Demand.leaves : Demand → Lifecycle → Lifecycle
  | start, _ => .running
  | shutdown, _ => .terminated
  | _, l => l

/-- **How a lifecycle moves**: forward, and not at all from its end. -/
inductive Lifecycle.Moves : Lifecycle → Lifecycle → Prop
  | stays (l : Lifecycle) : Moves l l
  | starts : Moves .instantiated .running
  | ends : Moves .running .terminated
  | skips : Moves .instantiated .terminated

namespace Lifecycle.Moves

variable {l l' : Lifecycle}

/-- A demand that has a place moves the lifecycle on. -/
theorem of_leaves {d : Demand} (h : l ∈ d.entry.places) : Moves l (d.leaves l) := by
  cases d with
  | start =>
    rw [List.mem_singleton.1 h]
    exact .starts
  | shutdown =>
    simp only [Demand.entry, EntryPoint.places, List.mem_cons, List.not_mem_nil, or_false] at h
    rcases h with rfl | rfl
    · exact .skips
    · exact .ends
  | _ => exact .stays l

/-- There is no way back to where an instance can be shut down. -/
theorem stays_over (h : Moves l l') (hl : l ∉ EntryPoint.shutdown.places) : l' ∉ EntryPoint.shutdown.places := by
  cases h with
  | stays => exact hl
  | starts => exact absurd (by decide) hl
  | ends => exact absurd (by decide) hl
  | skips => exact absurd (by decide) hl

end Lifecycle.Moves

/-! ### Failures -/

/-- A failure that is no refusal by the lifecycle. -/
def Error.IsNoRefusal (e : Error) : Prop := ∀ refusal, e ≠ .invalidState refusal

namespace MemoryM

variable {α β : Type}

/-- Work that fails over nothing but a range that does not lie inside. -/
def FailsOutside (x : MemoryM α) : Prop :=
  ∀ m e m', x m = .error e m' → ∃ offset size, e = .memoryOutOfBounds offset size

theorem FailsOutside.bind {x : MemoryM α} {f : α → MemoryM β} (hx : FailsOutside x)
    (hf : ∀ a, FailsOutside (f a)) : FailsOutside (x >>= f) := by
  intro m e m' h
  simp only [Bind.bind, EStateM.bind] at h
  cases hr : x m with
  | error e' m1 =>
    simp only [hr] at h
    cases h
    exact hx m e m' hr
  | ok a m1 =>
    simp only [hr] at h
    exact hf a m1 e m' h

theorem failsOutside_pure (a : α) : FailsOutside (pure a : MemoryM α) := by
  intro m e m' h
  cases h

theorem failsOutside_check (ptr : UInt32) (len : Nat) : FailsOutside (check ptr len) := by
  intro m e m' h
  unfold check at h
  split at h
  · cases h
  · cases h
    exact ⟨_, _, rfl⟩

theorem failsOutside_write (ptr : UInt32) (bs : Bytes) : FailsOutside (write ptr bs) := by
  intro m e m' h
  unfold write at h
  split at h
  · cases h
  · cases h
    exact ⟨_, _, rfl⟩

theorem failsOutside_encodeText (text : String) (ptr : UInt32) (capacity : Nat) :
    FailsOutside (encodeText text ptr capacity) :=
  (failsOutside_write _ _).bind fun _ => failsOutside_pure _

end MemoryM

/-- Two texts fail to be passed over their regions only. -/
theorem MessageBuffers.write_failsOutside (b : MessageBuffers) (topic payload : String) :
    MemoryM.FailsOutside (b.write topic payload) := by
  refine (MemoryM.failsOutside_check _ _).bind fun _ => (MemoryM.failsOutside_check _ _).bind fun _ => ?_
  refine (MemoryM.failsOutside_encodeText _ _ _).bind fun first => ?_
  exact (MemoryM.failsOutside_encodeText _ _ _).bind fun second => MemoryM.failsOutside_pure _

namespace Instance

variable {i : Instance} {host : Host}

/-- **A call of an entry point**: one call in the history, and no refusal. The lifecycle stays. -/
theorem call_settles (i : Instance) (host : Host) (e : EntryPoint) (arguments : List Value) :
    ∃ r es, IsCall i.surroundings.instanceId e.name r es ∧
      (i.call host e arguments).host.history = host.history ++ es ∧
      (i.call host e arguments).after.lifecycle = i.lifecycle ∧
      ∀ fault, (i.call host e arguments).result = .error fault → fault.IsNoRefusal := by
  obtain ⟨r, es, m', hc, he⟩ := call_ends none i host e arguments
  rw [he]
  refine ⟨r, es, hc.call, hc.leads.history, rfl, fun fault hfault => ?_⟩
  -- a trap and a result code are no refusals
  cases r with
  | none =>
    cases hfault
    exact fun _ => Error.noConfusion
  | some code =>
    simp only [answer, checkCode] at hfault
    split at hfault
    · cases hfault
    · cases hfault
      exact fun _ => Error.noConfusion

/-! ### One demand -/

/-- What is done with an instance on a demand. -/
def serve (i : Instance) (host : Host) : Demand → Outcome
  | .start => i.start host
  | .tick now => i.tick host now
  | .deliver topic payload => i.deliver host topic payload
  | .trigger identifier payload => i.trigger host identifier payload
  | .connection connected => i.setConnectionStatus host connected
  | .shutdown => i.shutdown host

/-- **What a demand comes to.** Where it has a place, the guest is entered for it, or the texts cannot be passed;
elsewhere a shutdown is over already, and all others are refused. -/
inductive Serves (i : Instance) (host : Host) : Demand → Outcome → Prop
  | entered {d : Demand} {o : Outcome} {r : Option UInt32} {es : List Occurrence}
      (hplace : i.lifecycle ∈ d.entry.places) (hcall : IsCall i.surroundings.instanceId d.entry.name r es)
      (hhistory : o.host.history = host.history ++ es) (hafter : o.after.lifecycle = d.leaves i.lifecycle)
      (hresult : ∀ fault, o.result = .error fault → fault.IsNoRefusal) : Serves i host d o
  | unpassed {d : Demand} {o : Outcome} (hplace : i.lifecycle ∈ d.entry.places)
      (hd : d.entry = .messageReceived ∨ d.entry = .directTrigger) (hhost : o.host = host)
      (hafter : o.after.lifecycle = i.lifecycle)
      (hresult : ∀ fault, o.result = .error fault → fault.IsNoRefusal) : Serves i host d o
  | finished (hover : i.lifecycle ∉ EntryPoint.shutdown.places) : Serves i host .shutdown ⟨.ok (), i, host⟩
  | refused {d : Demand} (operation : Operation) (hplace : i.lifecycle ∉ d.entry.places) (hd : d ≠ .shutdown) :
      Serves i host d (i.refuse host operation)

/-- Texts that are passed to a running guest enter it, or they cannot be passed. -/
theorem pass_serves {d : Demand} (hi : i.lifecycle = .running)
    (hd : d.entry = .messageReceived ∨ d.entry = .directTrigger) (hleaves : d.leaves i.lifecycle = i.lifecycle)
    (first payload : String) : Serves i host d (i.pass host d.entry first payload) := by
  have hplace : i.lifecycle ∈ d.entry.places := by
    rw [hi]
    rcases hd with h | h <;> rw [h] <;> decide
  unfold pass
  cases hb : i.guest.buffers.get with
  | error fault =>
    refine .unpassed hplace hd rfl rfl fun e he refusal => ?_
    cases he
    unfold BufferRegistry.get at hb
    split at hb
    · cases hb
    · cases hb
      exact Error.noConfusion
  | ok buffers =>
    cases hm : i.guest.memory with
    | none =>
      refine .unpassed hplace hd rfl rfl fun e he refusal => ?_
      cases he
      exact Error.noConfusion
    | some memory =>
      simp only
      cases hw : buffers.write first payload memory with
      | error fault written =>
        refine .unpassed hplace hd rfl rfl fun e he refusal => ?_
        cases he
        obtain ⟨offset, size, rfl⟩ := buffers.write_failsOutside first payload _ _ _ hw
        exact Error.noConfusion
      | ok sizes written =>
        obtain ⟨r, es, hcall, hhistory, hafter, hresult⟩ := call_settles
          { i with guest := { i.guest with memory := some written } } host d.entry
          [.i32 (UInt32.ofNat sizes.1.written), .i32 (UInt32.ofNat sizes.2.written)]
        exact .entered hplace hcall hhistory (hafter.trans hleaves.symm) hresult

/-- **Every demand comes to one of these.** -/
theorem serve_serves (i : Instance) (host : Host) (d : Demand) : Serves i host d (i.serve host d) := by
  cases d with
  | start =>
    simp only [serve, start]
    by_cases hi : i.lifecycle = .instantiated
    · rw [if_pos hi]
      obtain ⟨r, es, hcall, hhistory, hafter, hresult⟩ :=
        call_settles { i with lifecycle := .running } host .init []
      exact .entered (List.mem_singleton.2 hi) hcall hhistory hafter hresult
    · rw [if_neg hi]
      exact .refused .start (by simpa [Demand.entry, EntryPoint.places] using hi) Demand.noConfusion
  | tick now =>
    simp only [serve, tick]
    by_cases hi : i.lifecycle = .running
    · rw [if_pos hi]
      obtain ⟨r, es, hcall, hhistory, hafter, hresult⟩ := call_settles i host .loop [.i64 now.toUInt64]
      exact .entered (List.mem_singleton.2 hi) hcall hhistory hafter hresult
    · rw [if_neg hi]
      exact .refused .tick (by simpa [Demand.entry, EntryPoint.places] using hi) Demand.noConfusion
  | deliver topic payload =>
    simp only [serve, deliver]
    by_cases hi : i.lifecycle = .running
    · rw [if_pos hi]
      exact pass_serves (d := .deliver topic payload) hi (.inl rfl) rfl topic payload
    · rw [if_neg hi]
      exact .refused .deliver (by simpa [Demand.entry, EntryPoint.places] using hi) Demand.noConfusion
  | trigger identifier payload =>
    simp only [serve, trigger]
    by_cases hi : i.lifecycle = .running
    · rw [if_pos hi]
      exact pass_serves (d := .trigger identifier payload) hi (.inr rfl) rfl identifier payload
    · rw [if_neg hi]
      exact .refused .trigger (by simpa [Demand.entry, EntryPoint.places] using hi) Demand.noConfusion
  | connection connected =>
    obtain ⟨r, es, hcall, hhistory, hafter, hresult⟩ :=
      call_settles i host .setConnectionStatus (statusArgument connected)
    have hplace : (Demand.connection connected).entry.places = [.instantiated, .running] := rfl
    simp only [serve, setConnectionStatus]
    cases hi : i.lifecycle with
    | instantiated => exact .entered (by rw [hplace, hi]; decide) hcall hhistory hafter hresult
    | running => exact .entered (by rw [hplace, hi]; decide) hcall hhistory hafter hresult
    | shuttingDown => exact .refused .connection (by rw [hplace, hi]; decide) Demand.noConfusion
    | terminated => exact .refused .connection (by rw [hplace, hi]; decide) Demand.noConfusion
  | shutdown =>
    obtain ⟨r, es, hcall, hhistory, -, hresult⟩ :=
      call_settles { i with lifecycle := .shuttingDown } host .shutdown []
    simp only [serve, shutdown]
    cases hi : i.lifecycle with
    | instantiated => exact .entered (by rw [hi]; decide) hcall hhistory rfl hresult
    | running => exact .entered (by rw [hi]; decide) hcall hhistory rfl hresult
    | shuttingDown => exact .finished (by rw [hi]; decide)
    | terminated => exact .finished (by rw [hi]; decide)

end Instance

/-! ### Demands, one after another -/

/-- A demand, the instance and the host that it was made of and on, and what came of them. -/
structure Service where
  demand : Demand
  before : Instance
  host : Host
  outcome : Instance.Outcome

namespace Service

/-- The exports that were entered for a demand. -/
def entered (s : Service) : List String := s.host.entered s.outcome.host

/-- **A demand as the lifecycle has it.** -/
structure IsRegular (s : Service) : Prop where
  /-- The lifecycle only moves on. -/
  moves : s.before.lifecycle.Moves s.outcome.after.lifecycle
  /-- The guest is entered at most once, for what was demanded, and in the states that have a place for it. -/
  entered : s.entered = [] ∨
    (s.entered = [s.demand.entry.name] ∧ s.before.lifecycle ∈ s.demand.entry.places)
  /-- Refusals are those of the lifecycle. -/
  refused : (∃ refusal, s.outcome.result = .error (.invalidState refusal)) ↔
    s.before.lifecycle ∉ s.demand.entry.places ∧ s.demand ≠ .shutdown
  /-- Where there is no place for a demand, nothing changes. -/
  untouched : s.before.lifecycle ∉ s.demand.entry.places → s.outcome.after = s.before ∧ s.outcome.host = s.host
  /-- An instance runs once it was started, whatever its initialisation reports. -/
  started : s.demand = .start → s.before.lifecycle ∈ EntryPoint.init.places →
    s.entered = [EntryPoint.init.name] ∧ s.outcome.after.lifecycle = .running
  /-- It is terminated once it was shut down, whatever its shutdown reports. -/
  ended : s.demand = .shutdown → s.before.lifecycle ∈ EntryPoint.shutdown.places →
    s.entered = [EntryPoint.shutdown.name] ∧ s.outcome.after.lifecycle = .terminated
  /-- It can be shut down again, to no effect. -/
  again : s.demand = .shutdown → s.before.lifecycle ∉ EntryPoint.shutdown.places →
    s.outcome = ⟨.ok (), s.before, s.host⟩

/-- What fails otherwise is not refused. -/
theorem not_refused {result : Except Error Unit} (h : ∀ fault, result = .error fault → fault.IsNoRefusal) :
    ¬ ∃ refusal, result = .error (.invalidState refusal) := by
  rintro ⟨refusal, hr⟩
  exact h _ hr refusal rfl

/-- **Whatever a demand comes to is regular.** -/
theorem isRegular {i : Instance} {host : Host} {d : Demand} {o : Instance.Outcome}
    (h : Instance.Serves i host d o) : IsRegular ⟨d, i, host, o⟩ := by
  cases h with
  | @entered _ _ r es hplace hcall hhistory hafter hresult =>
    have hentered : entered ⟨d, i, host, o⟩ = [d.entry.name] :=
      (Host.entered_eq hhistory).trans hcall.entrances_function
    refine
      { moves := ?_
        entered := .inr ⟨hentered, hplace⟩
        refused := ⟨fun hr => absurd hr (not_refused hresult), fun hno => absurd hplace hno.1⟩
        untouched := fun hno => absurd hplace hno
        started := ?_
        ended := ?_
        again := ?_ }
    · show i.lifecycle.Moves o.after.lifecycle
      rw [hafter]
      exact .of_leaves hplace
    · rintro rfl -
      exact ⟨hentered, hafter⟩
    · rintro rfl -
      exact ⟨hentered, hafter⟩
    · rintro rfl hno
      exact absurd hplace hno
  | unpassed hplace hd hhost hafter hresult =>
    have hentered : entered ⟨d, i, host, o⟩ = [] := hhost ▸ Host.entered_self host
    refine
      { moves := ?_
        entered := .inl hentered
        refused := ⟨fun hr => absurd hr (not_refused hresult), fun hno => absurd hplace hno.1⟩
        untouched := fun hno => absurd hplace hno
        started := ?_
        ended := ?_
        again := ?_ }
    · show i.lifecycle.Moves o.after.lifecycle
      rw [hafter]
      exact .stays _
    · rintro rfl
      rcases hd with h | h <;> cases h
    · rintro rfl
      rcases hd with h | h <;> cases h
    · rintro rfl
      rcases hd with h | h <;> cases h
  | finished hover =>
    exact
      { moves := .stays _
        entered := .inl (Host.entered_self host)
        refused := ⟨fun hr => absurd hr (not_refused fun _ h => by cases h), fun hno => absurd rfl hno.2⟩
        untouched := fun _ => ⟨rfl, rfl⟩
        started := fun h => by cases h
        ended := fun _ hplace => absurd hplace hover
        again := fun _ _ => rfl }
  | refused operation hplace hd =>
    refine
      { moves := .stays _
        entered := .inl (Host.entered_self host)
        refused := ⟨fun _ => ⟨hplace, hd⟩, fun _ => ⟨_, rfl⟩⟩
        untouched := fun _ => ⟨rfl, rfl⟩
        started := ?_
        ended := fun h => absurd h hd
        again := fun h => absurd h hd }
    rintro rfl hstart
    exact absurd hstart hplace

/-- How often an entry point can still be entered that is entered once. -/
def left (e : EntryPoint) (l : Lifecycle) : Nat := if l ∈ e.places then 1 else 0

/-- No place comes back to what is entered once. -/
theorem left_mono {e : EntryPoint} (he : e = .init ∨ e = .shutdown) {l l' : Lifecycle} (h : l.Moves l') :
    left e l' ≤ left e l := by
  have hback : l' ∈ e.places → l ∈ e.places := by
    rcases he with rfl | rfl
    · intro hl'
      rw [List.mem_singleton.1 hl'] at h
      cases h
      exact List.mem_singleton.2 rfl
    · intro hl'
      by_contra hl
      exact h.stays_over hl hl'
  unfold left
  by_cases hl' : l' ∈ e.places
  · exact Nat.le_of_eq ((if_pos hl').trans (if_pos (hback hl')).symm)
  · rw [if_neg hl']
    exact Nat.zero_le _

/-- Entry points have different names. -/
theorem name_injective {e e' : EntryPoint} (h : e.name = e'.name) : e = e' := by
  cases e <;> cases e' <;> first | rfl | exact absurd h (by decide)

/-- **To initialise and to shut down an instance uses up the one time that there is for it**, and nothing brings it
back. -/
theorem IsRegular.count_entered {s : Service} (h : s.IsRegular) {e : EntryPoint} (he : e = .init ∨ e = .shutdown) :
    s.entered.count e.name + left e s.outcome.after.lifecycle ≤ left e s.before.lifecycle := by
  have hmono := left_mono he h.moves
  rcases h.entered with hnone | ⟨hone, hplace⟩
  · rw [hnone, List.count_nil, Nat.zero_add]
    exact hmono
  · by_cases hentry : s.demand.entry = e
    · have hused : left e s.outcome.after.lifecycle = 0 := by
        rcases he with rfl | rfl
        · have hstart : s.demand = .start := by
            cases hd : s.demand with
            | start => rfl
            | _ => rw [hd] at hentry; cases hentry
          rw [hstart] at hplace
          rw [left, (h.started hstart hplace).2]
          decide
        · have hshutdown : s.demand = .shutdown := by
            cases hd : s.demand with
            | shutdown => rfl
            | _ => rw [hd] at hentry; cases hentry
          rw [hshutdown] at hplace
          rw [left, (h.ended hshutdown hplace).2]
          decide
      have hfree : left e s.before.lifecycle = 1 := if_pos (hentry ▸ hplace)
      have hcount : s.entered.count e.name = 1 := by
        rw [hone, hentry]
        exact List.count_singleton_self
      omega
    · have hcount : s.entered.count e.name = 0 := by
        rw [hone, List.count_eq_zero, List.mem_singleton]
        exact fun hname => hentry (name_injective hname.symm)
      omega

end Service

namespace Instance

/-- **What comes of demands**, one after another, each made on the host as it is then. -/
def services (i : Instance) : List (Host × Demand) → List Service
  | [] => []
  | (host, d) :: rest => ⟨d, i, host, i.serve host d⟩ :: (i.serve host d).after.services rest

theorem isRegular_of_mem {i : Instance} {asked : List (Host × Demand)} :
    ∀ s ∈ i.services asked, s.IsRegular := by
  induction asked generalizing i with
  | nil => intro s hs; cases hs
  | cons x rest ih =>
    intro s hs
    rcases List.mem_cons.1 hs with rfl | hs
    · exact Service.isRegular (serve_serves i x.1 x.2)
    · exact ih s hs

/-- **What is entered once is entered once along all demands**, if its time is not over. -/
theorem count_services (i : Instance) (asked : List (Host × Demand)) {e : EntryPoint}
    (he : e = .init ∨ e = .shutdown) :
    ((i.services asked).flatMap Service.entered).count e.name ≤ Service.left e i.lifecycle := by
  -- along the demands, from the instance that those before left
  induction asked generalizing i with
  | nil => exact Nat.zero_le _
  | cons x rest ih =>
    have hfirst := (Service.isRegular (serve_serves i x.1 x.2)).count_entered he
    have hrest := ih (i.serve x.1 x.2).after
    simp only at hfirst
    rw [services, List.flatMap_cons, List.count_append]
    omega

/-- An instance that was shut down is asked for nothing else any more. -/
theorem services_over {i : Instance} (hi : i.lifecycle ∉ EntryPoint.shutdown.places)
    {asked : List (Host × Demand)} :
    ∀ s ∈ i.services asked, s.before.lifecycle ∉ EntryPoint.shutdown.places := by
  induction asked generalizing i with
  | nil => intro s hs; cases hs
  | cons x rest ih =>
    intro s hs
    rcases List.mem_cons.1 hs with rfl | hs
    · exact hi
    · have hmoves := (Service.isRegular (serve_serves i x.1 x.2)).moves
      exact ih (hmoves.stays_over hi) s hs

/-- **Of two shutdowns the second does nothing.** -/
theorem services_shutdown (i : Instance) (asked : List (Host × Demand)) :
    (i.services asked).Pairwise fun s s' =>
      s.demand = .shutdown → s'.demand = .shutdown → s'.outcome = ⟨.ok (), s'.before, s'.host⟩ := by
  induction asked generalizing i with
  | nil => exact .nil
  | cons x rest ih =>
    refine .cons (fun s' hs' hd hd' => ?_) (ih _)
    have hfirst := Service.isRegular (serve_serves i x.1 x.2)
    have hover : (i.serve x.1 x.2).after.lifecycle ∉ EntryPoint.shutdown.places := by
      by_cases hplace : i.lifecycle ∈ EntryPoint.shutdown.places
      · have hended : (i.serve x.1 x.2).after.lifecycle = .terminated := (hfirst.ended hd hplace).2
        rw [hended]
        decide
      · exact hfirst.moves.stays_over hplace
    exact (isRegular_of_mem s' hs').again hd' (services_over hover s' hs')

/-- **The lifecycle of an instance under demands in any order**, each on any host, with guests that do whatever they
like: every demand is regular, the guest is initialised at most once and shut down at most once, and all shutdowns
after the first succeed without the guest. -/
theorem services_regular (i : Instance) (asked : List (Host × Demand)) :
    (∀ s ∈ i.services asked, s.IsRegular) ∧
      ((i.services asked).flatMap Service.entered).count EntryPoint.init.name ≤ 1 ∧
      ((i.services asked).flatMap Service.entered).count EntryPoint.shutdown.name ≤ 1 ∧
      (i.services asked).Pairwise fun s s' =>
        s.demand = .shutdown → s'.demand = .shutdown → s'.outcome = ⟨.ok (), s'.before, s'.host⟩ := by
  have hleft : ∀ e, Service.left e i.lifecycle ≤ 1 := by
    intro e
    unfold Service.left
    split <;> omega
  refine ⟨isRegular_of_mem, ?_, ?_, i.services_shutdown asked⟩
  · exact Nat.le_trans (i.count_services asked (.inl rfl)) (hleft .init)
  · exact Nat.le_trans (i.count_services asked (.inr rfl)) (hleft .shutdown)

end Instance

end FlowHost
