import FlowHost.Proofs.Calls
import FlowHost.Proofs.Preparing

/-!
# What a candidate does before it is an instance

A candidate's own code runs before it is certain that the candidate is any good: what it starts
with, its setters and the first announcement of the connection. `Launcher.launch_cases` says
what a launch comes to, and what the candidate has done to the host by then.

* `Module.configuration`: the exports that are called on a candidate, in their order.
* `Launcher.settle_cases`: **all of them returned, or the last one called trapped** and that is what is
  reported, or none was called and the candidate is rejected.
-/

namespace FlowHost

open History

/-- The exports that are called on a candidate: the setters that it has, in the fixed order, and
then the announcement of the connection. -/
def Module.configuration (m : Module) : List String :=
  ((Setter.all.filter fun s => (m.function? s.name).isSome).map Setter.name) ++
    [EntryPoint.setConnectionStatus.name]

namespace History

variable {names names' : List String} {calls calls' : List (String × Option UInt32)}

/-- The exports were called in this order, and each returned. -/
def Returned (names : List String) (calls : List (String × Option UInt32)) : Prop :=
  calls.map (·.1) = names ∧ ∀ c ∈ calls, c.2.isSome

/-- **The exports were called in this order up to one that trapped**; all before it returned. -/
def Interrupted (names : List String) (calls : List (String × Option UInt32)) : Prop :=
  ∃ done f, calls = done ++ [(f, none)] ∧ (∀ c ∈ done, c.2.isSome) ∧ calls.map (·.1) <+: names

/-- **A failure that reports a call that trapped.** -/
def Reported (e : Error) (calls : List (String × Option UInt32)) : Prop :=
  ∃ f, (f, none) ∈ calls ∧ e = .execution (f ++ " trapped")

theorem Returned.nil : Returned [] [] := ⟨rfl, fun _ h => nomatch h⟩

theorem Returned.single (f : String) (code : UInt32) : Returned [f] [(f, some code)] :=
  ⟨rfl, by simp⟩

theorem Returned.append (h : Returned names calls) (h' : Returned names' calls') :
    Returned (names ++ names') (calls ++ calls') := by
  refine ⟨by rw [List.map_append, h.1, h'.1], fun c hc => ?_⟩
  rcases List.mem_append.1 hc with hc | hc
  · exact h.2 c hc
  · exact h'.2 c hc

theorem Interrupted.single (f : String) : Interrupted [f] [(f, none)] :=
  ⟨[], f, rfl, by simp, List.prefix_rfl⟩

/-- What follows an interruption is never called. -/
theorem Interrupted.append (h : Interrupted names calls) (names' : List String) :
    Interrupted (names ++ names') calls := by
  obtain ⟨done, f, hc, hd, hp⟩ := h
  exact ⟨done, f, hc, hd, hp.trans (List.prefix_append _ _)⟩

theorem Returned.interrupted (h : Returned names calls) (h' : Interrupted names' calls') :
    Interrupted (names ++ names') (calls ++ calls') := by
  obtain ⟨done, f, rfl, hd, hp⟩ := h'
  refine ⟨calls ++ done, f, by rw [List.append_assoc], fun c hc => ?_, ?_⟩
  · rcases List.mem_append.1 hc with hc | hc
    · exact h.2 c hc
    · exact hd c hc
  · rw [List.map_append, h.1]
    exact (List.prefix_append_right_inj _).2 hp

theorem Reported.single (f : String) : Reported (.execution (f ++ " trapped")) [(f, none)] :=
  ⟨f, List.mem_singleton_self _, rfl⟩

theorem Reported.after {e : Error} (h : Reported e calls') (calls : List (String × Option UInt32)) :
    Reported e (calls ++ calls') := by
  obtain ⟨f, hf, he⟩ := h
  exact ⟨f, List.mem_append_right _ hf, he⟩

end History

/-- **What an instance does to a host**, over any number of its calls: all of it is in its own name,
and one call follows another. -/
structure Machine.Proceeds (σ : Surroundings) (Q : Option Path) (m : Machine) (es : List Occurrence)
    (m' : Machine) : Prop where
  leads : Host.Leads σ.blobPlace Q m.host es m'.host
  owned : OwnedBy σ.instanceId es
  orderly : Orderly es
  isKnown : m'.guest.isKnown = m.guest.isKnown
  memory : m'.guest.memory.isSome = m.guest.memory.isSome

variable {σ : Surroundings} {Q : Option Path} {m m' m'' : Machine} {es es' : List Occurrence}

namespace Machine

theorem Proceeds.refl : Proceeds σ Q m [] m := ⟨.refl, .nil, .nil, rfl, rfl⟩

theorem Proceeds.trans (h : Proceeds σ Q m es m') (h' : Proceeds σ Q m' es' m'') :
    Proceeds σ Q m (es ++ es') m'' :=
  ⟨h.leads.trans h'.leads, h.owned.append h'.owned, h.orderly.append h'.orderly,
    h'.isKnown.trans h.isKnown, h'.memory.trans h.memory⟩

theorem Works.proceeds (h : Works σ Q m es m') : Proceeds σ Q m es m' :=
  ⟨h.leads, h.work.ownedBy, h.work.orderly, h.isKnown, h.memory⟩

theorem Calls.proceeds {f : String} {r : Option UInt32} (h : Calls σ Q f r m es m') :
    Proceeds σ Q m es m' := ⟨h.leads, h.call.ownedBy, h.call.orderly, h.isKnown, h.memory⟩

end Machine

namespace Exports

/-- Setters are looked up in the order in which they are asked for, and none is left out. -/
theorem resolveSetters_names {M : Module} {setters : List Setter} {found : List (Setter × Body)}
    (h : resolveSetters M setters = .ok found) :
    found.map (fun p => p.1.name) =
      (setters.filter fun s => (M.function? s.name).isSome).map Setter.name := by
  induction setters generalizing found with
  | nil => cases h; rfl
  | cons s rest ih =>
    simp only [resolveSetters, bind, Except.bind] at h
    cases ho : optional M s.name s.signature with
    | error e => simp [ho] at h
    | ok body? =>
      cases hr : resolveSetters M rest with
      | error e => simp [ho, hr] at h
      | ok others =>
        have hf : found = (body?.toList.map fun body => (s, body)) ++ others := by
          simpa [ho, hr, pure, Except.pure] using h.symm
        have hs : body?.isSome = (M.function? s.name).isSome := by
          unfold optional required at ho
          cases hm : M.function? s.name with
          | none => simp only [hm, Except.ok.injEq] at ho; rw [← ho]; rfl
          | some p =>
            obtain ⟨signature, body⟩ := p
            simp only [hm] at ho
            split at ho
            · cases ho; rfl
            · cases ho
        rw [hf, List.map_append, ih hr]
        cases body? with
        | none => rw [List.filter_cons_of_neg (by simp [← hs])]; rfl
        | some body => rw [List.filter_cons_of_pos (by simp [← hs])]; rfl

/-- The setters of a guest are those of its module. -/
theorem resolve_setters {M : Module} {exports : Exports} (h : resolve M = .ok exports) :
    exports.setters.map (fun p => p.1.name) ++ [EntryPoint.setConnectionStatus.name] =
      M.configuration := by
  suffices hs : resolveSetters M Setter.all = .ok exports.setters by
    rw [Module.configuration, resolveSetters_names hs]
  simp only [resolve, bind, Except.bind] at h
  cases hr : resolveSetters M Setter.all with
  | error e => simp [hr] at h
  | ok setters =>
    simp only [hr] at h
    -- six entry points are looked up after the setters, and none changes them
    repeat (split at h; · cases h)
    cases h
    rfl

/-- What is said of an export that is missing, or that has another signature, rejects the candidate. -/
theorem required_error {M : Module} {name : String} {signature : Signature} {e : Error}
    (h : required M name signature = .error e) : e.rejectsCandidate = true := by
  unfold required at h
  split at h
  · cases h
    rfl
  · split at h
    · cases h
    · cases h
      rfl

theorem optional_error {M : Module} {name : String} {signature : Signature} {e : Error}
    (h : optional M name signature = .error e) : e.rejectsCandidate = true := by
  unfold optional at h
  split at h
  · cases h
  · cases hr : required M name signature with
    | ok body =>
      rw [hr] at h
      cases h
    | error found =>
      rw [hr] at h
      cases h
      exact required_error hr

theorem resolveSetters_error {M : Module} {setters : List Setter} {e : Error}
    (h : resolveSetters M setters = .error e) : e.rejectsCandidate = true := by
  induction setters with
  | nil => cases h
  | cons s rest ih =>
    unfold resolveSetters at h
    obtain h | ⟨_, -, h⟩ := Module.bind_error h
    · exact optional_error h
    obtain h | ⟨_, -, h⟩ := Module.bind_error h
    · exact ih h
    · cases h

/-- **A guest whose exports are not all found** is rejected. -/
theorem resolve_error {M : Module} {e : Error} (h : resolve M = .error e) : e.rejectsCandidate = true := by
  unfold resolve at h
  obtain h | ⟨_, -, h⟩ := Module.bind_error h
  · exact resolveSetters_error h
  -- the entry points, one after another
  obtain h | ⟨_, -, h⟩ := Module.bind_error h
  · exact required_error h
  obtain h | ⟨_, -, h⟩ := Module.bind_error h
  · exact required_error h
  obtain h | ⟨_, -, h⟩ := Module.bind_error h
  · exact required_error h
  obtain h | ⟨_, -, h⟩ := Module.bind_error h
  · exact required_error h
  obtain h | ⟨_, -, h⟩ := Module.bind_error h
  · exact required_error h
  obtain h | ⟨_, -, h⟩ := Module.bind_error h
  · exact required_error h
  · cases h

/-- **Setters are called one after another, up to the first that traps.** -/
theorem configure_calls (σ : Surroundings) (Q : Option Path) (settings : GuestSettings)
    (setters : List (Setter × Body)) (m : Machine) :
    ∃ es m', Machine.Proceeds σ Q m es m' ∧
      (configure σ settings setters m = .ok () m' ∧
          Returned (setters.map fun p => p.1.name) (callsOf σ.instanceId es) ∨
        ∃ e, configure σ settings setters m = .error e m' ∧
          Interrupted (setters.map fun p => p.1.name) (callsOf σ.instanceId es) ∧
          Reported e (callsOf σ.instanceId es)) := by
  induction setters generalizing m with
  | nil => exact ⟨[], m, .refl, .inl ⟨rfl, .nil⟩⟩
  | cons p rest ih =>
    obtain ⟨setter, body⟩ := p
    obtain ⟨r, es, m1, hc, he⟩ := MachineM.tolerant_enter_calls σ Q setter.name body
      (setter.arguments settings) m
    simp only [configure, bind, EStateM.bind, he, List.map_cons]
    cases r with
    | none =>
      refine ⟨es, m1, hc.proceeds, .inr ⟨_, rfl, ?_⟩⟩
      rw [hc.call.callsOf_eq]
      exact ⟨(Interrupted.single setter.name).append _, .single setter.name⟩
    | some code =>
      obtain ⟨es', m2, hp, hcase⟩ := ih m1
      refine ⟨es ++ es', m2, hc.proceeds.trans hp, ?_⟩
      rw [callsOf_append, hc.call.callsOf_eq]
      obtain ⟨hok, hr⟩ | ⟨e, herr, hi, hreported⟩ := hcase
      · exact .inl ⟨hok, (Returned.single setter.name code).append hr⟩
      · exact .inr ⟨e, herr, (Returned.single setter.name code).interrupted hi, hreported.after _⟩

end Exports

namespace Module

/-- What a module starts with is the work of its imports; no export is called. -/
theorem runStart_works (σ : Surroundings) (Q : Option Path) (M : Module) (m : Machine) :
    ∃ es m', Machine.Works σ Q m es m' ∧
    (M.runStart σ m = .ok () m' ∨ ∃ detail, M.runStart σ m = .error (.instantiation detail) m') := by
  unfold runStart
  cases hs : M.start with
  | none => exact ⟨[], m, .refl, .inl rfl⟩
  | some start =>
    obtain ⟨es, hw⟩ := Behaviour.run_works σ Q start m
    refine ⟨es, _, hw, ?_⟩
    simp only
    cases hr : start.run σ m with
    | mk r m1 =>
      cases r with
      | none => exact .inr ⟨_, rfl⟩
      | some code => exact .inl rfl

theorem requireMemory_cases (m : Machine) :
    requireMemory m = .ok () m ∧ m.guest.memory.isSome = true ∧ m.guest.isKnown = true ∨
      requireMemory m = .error (.exportNotFound memoryName) m := by
  have hget : requireMemory m = (if m.guest.memory.isSome && m.guest.isKnown then pure ()
      else throw (Error.exportNotFound memoryName) : MachineM Unit) m := rfl
  by_cases h : (m.guest.memory.isSome && m.guest.isKnown) = true
  · refine .inl ⟨?_, by simpa using h⟩
    rw [hget, if_pos h]
    rfl
  · refine .inr ?_
    rw [hget, if_neg h]
    rfl

end Module

namespace Launcher

variable {l : Launcher} {n : Nat} {bundle : Bundle} {connected : Bool} {host : Host}

/-- **What becomes of a prepared guest**: it is configured and its memory is there, or it is rejected
before its first call, or the last call traps and that is what is reported. -/
theorem settle_cases (σ : Surroundings) (Q : Option Path) (l : Launcher) (M : Module) (connected : Bool)
    (m : Machine) :
    ∃ es m', Machine.Proceeds σ Q m es m' ∧
      ((∃ exports, l.settle σ M connected m = .ok exports m' ∧
          m'.guest.memory.isSome = true ∧ m'.guest.isKnown = true ∧
          Returned M.configuration (callsOf σ.instanceId es)) ∨
        ∃ e, l.settle σ M connected m = .error e m' ∧
          (callsOf σ.instanceId es = [] ∧ e.rejectsCandidate = true ∨
            Interrupted M.configuration (callsOf σ.instanceId es) ∧ Reported e (callsOf σ.instanceId es))) := by
  obtain ⟨es1, m1, hw, hstart⟩ := Module.runStart_works σ Q M m
  have hnone : callsOf σ.instanceId es1 = [] := by simp [callsOf, hw.work.calls_eq_nil]
  simp only [settle, bind, EStateM.bind]
  -- whatever fails before the first setter leaves no call of the candidate
  obtain hs | ⟨detail, hs⟩ := hstart
  · obtain ⟨hm, hsome, hknown⟩ | hm := Module.requireMemory_cases m1
    · cases hr : Exports.resolve M with
      | error e =>
        refine ⟨es1, m1, hw.proceeds, .inr ⟨e, ?_, .inl ⟨hnone, Exports.resolve_error hr⟩⟩⟩
        simp only [hs, hm]; rfl
      | ok exports =>
        -- the last of the configuration is the announcement, and only a trap in it is a failure
        rw [← Exports.resolve_setters hr]
        obtain ⟨es2, m2, hp, hconf⟩ := Exports.configure_calls σ Q l.config.settings exports.setters m1
        have hp2 := hw.proceeds.trans hp
        obtain ⟨hc, hret⟩ | ⟨e, hc, hint, hreported⟩ := hconf
        · obtain ⟨r, es3, m3, hcall, he⟩ := MachineM.tolerant_enter_calls σ Q
            EntryPoint.setConnectionStatus.name (exports.entry .setConnectionStatus)
            (Instance.statusArgument connected) m2
          have hp3 := hp2.trans hcall.proceeds
          refine ⟨es1 ++ es2 ++ es3, m3, hp3, ?_⟩
          rw [callsOf_append, callsOf_append, hnone, List.nil_append, hcall.call.callsOf_eq]
          cases r with
          | none =>
            refine .inr ⟨.execution (EntryPoint.setConnectionStatus.name ++ " trapped"), ?_,
              .inr ⟨hret.interrupted (.single _), (Reported.single _).after _⟩⟩
            simp [hs, hm, hc, he, pure, EStateM.pure, EStateM.bind]
          | some code =>
            refine .inl ⟨exports, ?_, ?_, ?_, hret.append (.single _ code)⟩
            · simp [hs, hm, hc, he, pure, EStateM.pure, EStateM.bind]
            · rw [hcall.memory, hp.memory, hsome]
            · rw [hcall.isKnown, hp.isKnown, hknown]
        · refine ⟨es1 ++ es2, m2, hp2, .inr ⟨e, ?_, .inr ?_⟩⟩
          · simp [hs, hm, hc, pure, EStateM.pure, EStateM.bind]
          · rw [callsOf_append, hnone]
            exact ⟨hint.append _, hreported⟩
    · exact ⟨es1, m1, hw.proceeds, .inr ⟨.exportNotFound memoryName, by simp [hs, hm], .inl ⟨hnone, rfl⟩⟩⟩
  · exact ⟨es1, m1, hw.proceeds, .inr ⟨.instantiation detail, by simp [hs], .inl ⟨hnone, rfl⟩⟩⟩

/-- What a candidate that fails has done: nothing that is not in its own name, and its calls, if
any, end with a trap. -/
structure Rejects (l : Launcher) (Q : Option Path) (n : Nat) (bundle : Bundle) (host : Host)
    (es : List Occurrence) (host' : Host) : Prop where
  leads : Host.Leads l.blobPlace Q host es host'
  owned : OwnedBy n es
  orderly : Orderly es
  calls : callsOf n es = [] ∨
    ∃ M, l.compile bundle.binary = some M ∧ Interrupted M.configuration (callsOf n es)

/-- What a candidate that becomes an instance has done, and what it is then. -/
structure Accepts (l : Launcher) (Q : Option Path) (n : Nat) (bundle : Bundle) (host : Host)
    (es : List Occurrence) (candidate : Instance) (host' : Host) : Prop where
  leads : Host.Leads l.blobPlace Q host es host'
  owned : OwnedBy n es
  orderly : Orderly es
  calls : ∃ M, l.compile bundle.binary = some M ∧ Returned M.configuration (callsOf n es)
  surroundings : candidate.surroundings = l.surroundings n
  identifier : candidate.bundle = bundle.identifier
  lifecycle : candidate.lifecycle = .instantiated
  memory : candidate.guest.memory.isSome = true
  isKnown : candidate.guest.isKnown = true

/-- **What a launch comes to.** -/
theorem launch_cases (l : Launcher) (Q : Option Path) (n : Nat) (bundle : Bundle) (connected : Bool)
    (host : Host) :
    l.launch n bundle connected host = (.error .crashed, host) ∨
      (∃ e es host', l.launch n bundle connected host = (.error (.failed e), host') ∧
        l.Rejects Q n bundle host es host') ∨
      ∃ candidate es host', l.launch n bundle connected host = (.ok candidate, host') ∧
        l.Accepts Q n bundle host es candidate host' := by
  have nothing : l.Rejects Q n bundle host [] host := ⟨.refl, .nil, .nil, .inl rfl⟩
  unfold launch
  cases hc : l.compile bundle.binary with
  | none => exact .inr (.inl ⟨_, [], host, rfl, nothing⟩)
  | some M =>
    simp only
    cases hp : M.prepare l.config l.natives l.limits with
    | error abort =>
      cases abort with
      | crashed => exact .inl rfl
      | failed e => exact .inr (.inl ⟨e, [], host, rfl, nothing⟩)
    | ok guest =>
      obtain ⟨es, m', hm, hcase⟩ := settle_cases (l.surroundings n) Q l M connected ⟨guest, host⟩
      obtain ⟨exports, hs, hsome, hknown, hret⟩ | ⟨e, hs, hcalls⟩ := hcase
      · refine .inr (.inr ⟨_, es, m'.host, by simp only [hs]; rfl, hm.leads, hm.owned, hm.orderly,
          ⟨M, hc, hret⟩, rfl, rfl, rfl, hsome, hknown⟩)
      · refine .inr (.inl ⟨e, es, m'.host, by simp only [hs], hm.leads, hm.owned, hm.orderly, ?_⟩)
        exact hcalls.imp And.left fun h => ⟨M, hc, h.1⟩

end Launcher

end FlowHost
