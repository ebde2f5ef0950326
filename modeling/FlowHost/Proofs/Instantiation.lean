import FlowHost.Proofs.Entrances
import FlowHost.Proofs.Linking

/-!
# Instantiation, stage by stage

Unless the module stops the host, an instance is made exactly if all stages are passed; otherwise the first that fails
is reported. The exports that are called by then are those of the stages up to it, in their order, and result codes do
not matter.

* `Attempt.Performs`: what work with a guest comes to that stands for some stages.
* `Attempt.configure_performs`, `Attempt.settle_performs`: a prepared guest is started, looked at and configured.
* `Attempt.launch_concludes`, `Launcher.launch_stages`: **what a launch comes to**, for all modules that compile and do
  not stop the host.
-/

namespace FlowHost

open History

/-! ### One call -/

namespace Machine

variable {σ : Surroundings} {m : Machine} {c : PlannedCall}

/-- A call that returns a word is over, whatever the word. -/
theorem tolerant_enter_of_returns (h : m.Returns σ c) :
    MachineM.tolerant (MachineM.enter σ c.function c.body c.arguments) m = .ok () (m.afterCall σ c) := by
  unfold Returns at h
  unfold MachineM.tolerant MachineM.enter afterCall
  cases hr : (c.body c.arguments).run σ (MachineM.recordEntry σ c.function c.arguments m) with
  | mk r m' =>
    rw [hr] at h
    cases r with
    | none => cases h
    | some code =>
      simp only [checkCode]
      by_cases h0 : code.toInt32 = 0
      · simp only [h0, if_true]
      · simp only [h0, if_false, tolerateCode]

/-- A call that traps fails, and is over too. -/
theorem tolerant_enter_of_not_returns (h : ¬ m.Returns σ c) :
    MachineM.tolerant (MachineM.enter σ c.function c.body c.arguments) m =
      .error (.execution (c.function ++ " trapped")) (m.afterCall σ c) := by
  unfold Returns at h
  unfold MachineM.tolerant MachineM.enter afterCall
  cases hr : (c.body c.arguments).run σ (MachineM.recordEntry σ c.function c.arguments m) with
  | mk r m' =>
    rw [hr] at h
    cases r with
    | none => rfl
    | some code => exact absurd rfl h

/-- Calls leave their exports in the history, in their order. -/
theorem afterCalls_entered (σ : Surroundings) (cs : List PlannedCall) (m : Machine) :
    ∃ es, (m.afterCalls σ cs).host.history = m.host.history ++ es ∧
      (entrances es).map (·.function) = cs.map (·.function) := by
  induction cs generalizing m with
  | nil => exact ⟨[], (List.append_nil _).symm, rfl⟩
  | cons c rest ih =>
    cases hr : (c.body c.arguments).run σ (MachineM.recordEntry σ c.function c.arguments m) with
    | mk r m' =>
      obtain ⟨es, hcalls⟩ := MachineM.calls_of_run (Q := none) hr
      have hafter : m.afterCall σ c = MachineM.recordExit σ c.function r m' := by rw [afterCall, hr]
      obtain ⟨es', hhistory, hentered⟩ := ih (m.afterCall σ c)
      refine ⟨es ++ es', ?_, ?_⟩
      · rw [afterCalls, List.foldl_cons, ← afterCalls, hhistory, hafter, hcalls.leads.history, List.append_assoc]
      · rw [entrances_append, List.map_append, hcalls.call.entrances_function, hentered, List.map_cons,
          List.singleton_append]

end Machine

theorem Stage.mem_all (st : Stage) : st ∈ Stage.all := by
  cases st with
  | setter s => cases s <;> decide
  | entry e => cases e <;> decide
  | setting s => cases s <;> decide
  | _ => decide

namespace MachineM

variable {α β : Type} {x : MachineM α} {f : α → MachineM β} {m m' : Machine}

theorem bind_of_ok {v : α} (h : x m = .ok v m') : (x >>= f) m = f v m' := by
  simp only [bind, EStateM.bind, h]

theorem bind_of_error {e : Error} (h : x m = .error e m') : (x >>= f) m = .error e m' := by
  simp only [bind, EStateM.bind, h]

end MachineM

/-! ### Stages that run -/

namespace Attempt

variable {a : Attempt} {α β : Type} {m : Machine} {sts sts' : List Stage} {st : Stage} {P : α → Prop}
  {r : EStateM.Result Error Machine α}

/-- **What work with a guest comes to that stands for some stages**: its result after the calls of all of them if they
are passed, and otherwise a report of the first that fails, after the calls up to it. -/
def Performs (a : Attempt) (m : Machine) (sts : List Stage) (r : EStateM.Result Error Machine α) (P : α → Prop) :
    Prop :=
  (∃ v, r = .ok v (m.afterCalls a.surroundings (sts.flatMap a.calls)) ∧ P v ∧ ∀ st ∈ sts, a.Passes st) ∨
    ∃ e before st after, sts = before ++ st :: after ∧
      r = .error e (m.afterCalls a.surroundings ((before ++ [st]).flatMap a.calls)) ∧ a.Report e st ∧
      (∀ other ∈ before, a.Passes other) ∧ ¬ a.Passes st

theorem Performs.done {v : α} (h : P v) : a.Performs m [] (.ok v m) P :=
  .inl ⟨v, rfl, h, fun _ hmem => absurd hmem List.not_mem_nil⟩

theorem Performs.pass (hpass : a.Passes st) (h : a.Performs (m.afterCalls a.surroundings (a.calls st)) sts r P) :
    a.Performs m (st :: sts) r P := by
  obtain ⟨v, rfl, hv, hall⟩ | ⟨e, before, st', after, rfl, rfl, hr, hbefore, hfail⟩ := h
  · refine .inl ⟨v, ?_, hv, List.forall_mem_cons.2 ⟨hpass, hall⟩⟩
    rw [List.flatMap_cons, Machine.afterCalls_append]
  · refine .inr ⟨e, st :: before, st', after, rfl, ?_, hr, List.forall_mem_cons.2 ⟨hpass, hbefore⟩, hfail⟩
    rw [List.cons_append, List.flatMap_cons, Machine.afterCalls_append]

theorem Performs.fail {e : Error} (hfail : ¬ a.Passes st) (hr : a.Report e st) :
    a.Performs m (st :: sts) (.error e (m.afterCalls a.surroundings (a.calls st))) P := by
  refine .inr ⟨e, [], st, sts, rfl, ?_, hr, fun _ hmem => absurd hmem List.not_mem_nil, hfail⟩
  rw [List.nil_append, List.flatMap_singleton]

/-- Stages that were passed come before those of what follows. -/
theorem Performs.after (hpass : ∀ st ∈ sts, a.Passes st)
    (h : a.Performs (m.afterCalls a.surroundings (sts.flatMap a.calls)) sts' r P) : a.Performs m (sts ++ sts') r P := by
  induction sts generalizing m with
  | nil => exact h
  | cons st sts ih =>
    obtain ⟨hfirst, hrest⟩ := List.forall_mem_cons.1 hpass
    rw [List.flatMap_cons, Machine.afterCalls_append] at h
    exact .pass hfirst (ih hrest h)

/-- Work that stands for some stages, and then work that stands for more. -/
theorem Performs.bind {x : MachineM β} {f : β → MachineM α} {Q : β → Prop} (h : a.Performs m sts (x m) Q)
    (hf : ∀ v, Q v → a.Performs (m.afterCalls a.surroundings (sts.flatMap a.calls)) sts'
      (f v (m.afterCalls a.surroundings (sts.flatMap a.calls))) P) :
    a.Performs m (sts ++ sts') ((x >>= f) m) P := by
  simp only [Bind.bind, EStateM.bind]
  obtain ⟨v, hok, hv, hall⟩ | ⟨e, before, st, after, rfl, herr, hr, hbefore, hfail⟩ := h
  · rw [hok]
    exact .after hall (hf v hv)
  · rw [herr]
    refine .inr ⟨e, before, st, after ++ sts', ?_, rfl, hr, hbefore, hfail⟩
    rw [List.append_assoc, List.cons_append]

/-- A failure among stages without calls leaves guest and host alone. -/
theorem Performs.of_failsFirst {e : Error} (hfails : a.FailsFirst sts st) (hr : a.Report e st)
    (hcalls : sts.flatMap a.calls = []) : a.Performs m (sts ++ sts') (.error e m) P := by
  obtain ⟨before, after, rfl, hbefore, hfail⟩ := hfails
  rw [List.append_cons, List.flatMap_append, List.append_eq_nil_iff] at hcalls
  refine .inr ⟨e, before, st, after ++ sts', ?_, ?_, hr, hbefore, hfail⟩
  · rw [List.append_assoc, List.cons_append]
  · rw [hcalls.1]
    rfl

/-- A stage that is one call fails exactly if the call traps. -/
theorem runs_iff {before after : List Stage} {c : PlannedCall} (hm : a.started = some m)
    (hall : Stage.all = before ++ st :: after) (hcalls : a.calls st = [c]) :
    a.Runs st ↔ (m.afterCalls a.surroundings (before.flatMap a.calls)).Returns a.surroundings c := by
  unfold Runs
  rw [hm, hcalls, Stage.earlier_eq hall]
  simp

/-- **A stage that is one call**, whatever the word that it returns. -/
theorem call_performs {c : PlannedCall} (hcalls : a.calls st = [c])
    (hpasses : a.Passes st ↔ m.Returns a.surroundings c)
    (hr : a.Report (.execution (c.function ++ " trapped")) st) :
    a.Performs m [st] (MachineM.tolerant (MachineM.enter a.surroundings c.function c.body c.arguments) m)
      fun _ => True := by
  have hafter : m.afterCalls a.surroundings (a.calls st) = m.afterCall a.surroundings c := by rw [hcalls]; rfl
  by_cases hreturns : m.Returns a.surroundings c
  · rw [Machine.tolerant_enter_of_returns hreturns, ← hafter]
    exact .pass (hpasses.2 hreturns) (.done trivial)
  · rw [Machine.tolerant_enter_of_not_returns hreturns, ← hafter]
    exact .fail (mt hpasses.1 hreturns) hr

/-- **Setters are called one after another**, as far as they are there. -/
theorem configure_performs (hm : a.started = some m) {setters : List Setter} {before after : List Stage}
    (hall : Stage.all = before ++ (setters.map .setting ++ after)) :
    a.Performs (m.afterCalls a.surroundings (before.flatMap a.calls)) (setters.map .setting)
      (Exports.configure a.surroundings a.launcher.config.settings (Exports.present a.source setters)
        (m.afterCalls a.surroundings (before.flatMap a.calls))) fun _ => True := by
  -- along the setters, with all stages before them
  induction setters generalizing before with
  | nil => exact .done trivial
  | cons s rest ih =>
    rw [List.map_cons, List.cons_append] at hall
    have hnext : Stage.all = (before ++ [.setting s]) ++ (rest.map .setting ++ after) := by
      rw [hall, List.append_assoc, List.singleton_append]
    have hrest := ih hnext
    rw [List.flatMap_append, List.flatMap_singleton, Machine.afterCalls_append] at hrest
    rw [Exports.present, List.filterMap_cons]
    cases hf : a.source.function? s.name with
    | none =>
      have hcalls : a.calls (.setting s) = [] := by rw [calls, hf]; rfl
      have hpass : a.Passes (.setting s) := by
        intro m' _ c hc
        rw [hcalls] at hc
        cases hc
      exact .pass hpass (by rw [hcalls] at hrest ⊢; exact hrest)
    | some f =>
      have hcalls : a.calls (.setting s) = [⟨s.name, f.2, s.arguments a.launcher.config.settings⟩] := by
        rw [calls, hf]
        rfl
      have hfirst := call_performs hcalls (runs_iff hm hall hcalls) rfl
      refine hfirst.bind fun _ _ => ?_
      rw [List.flatMap_singleton]
      exact hrest

/-- **What the module starts with is run**, and no export is entered by that. -/
theorem runStart_performs {m : Machine} (hm : a.prepared = some m) :
    ∃ m', a.started = some m' ∧
      ((a.source.runStart a.surroundings m = .ok () m' ∧ a.Passes .start) ∨
        ∃ detail, a.source.runStart a.surroundings m = .error (.instantiation detail) m' ∧ ¬ a.Passes .start) ∧
      ∃ es, Machine.Works a.surroundings none m es m' := by
  unfold started Module.runStart
  rw [hm, Option.map_some]
  cases hstart : a.source.start with
  | none =>
    refine ⟨m, rfl, .inl ⟨rfl, ?_⟩, [], .refl⟩
    intro m' _ code hcode
    rw [hstart] at hcode
    cases hcode
  | some code =>
    have hpasses : a.Passes .start ↔ (code.run a.surroundings m).1.isSome = true := by
      unfold Passes
      rw [hm, hstart]
      simp
    obtain ⟨es, hworks⟩ := Behaviour.run_works a.surroundings none code m
    refine ⟨_, rfl, ?_, es, hworks⟩
    rw [hpasses]
    simp only
    cases code.run a.surroundings m with
    | mk r m' =>
      cases r with
      | none => exact .inr ⟨_, rfl, Bool.false_ne_true⟩
      | some word => exact .inl ⟨rfl, rfl⟩

/-- The stages without a call of an export, which come before all others. -/
def checking : List Stage :=
  [.memory, .imports, .limits, .segments, .start, .sharing] ++
    (Setter.all.map .setter ++ EntryPoint.all.map .entry)

theorem flatMap_calls_checking (a : Attempt) : checking.flatMap a.calls = [] := rfl

/-- **A memory of the guest has to be known**, and nothing is done for it. -/
theorem requireMemory_performs {m : Machine}
    (h : m.guest.memory.isSome = true ∧ m.guest.isKnown = true ↔ a.Passes .sharing) :
    a.Performs m [.sharing] (Module.requireMemory m) fun _ => True := by
  have hrequire : Module.requireMemory m = (if m.guest.memory.isSome && m.guest.isKnown then pure ()
      else throw (Error.exportNotFound memoryName) : MachineM Unit) m := rfl
  rw [← Bool.and_eq_true] at h
  by_cases hshared : a.Passes .sharing
  · rw [hrequire, if_pos (h.2 hshared)]
    exact .pass hshared (.done trivial)
  · rw [hrequire, if_neg (mt h.1 hshared)]
    exact .fail hshared rfl

/-- **A guest whose exports were found is configured** and told of the connection. -/
theorem introduce_performs {exports : Exports} (hm : a.started = some m)
    (hsetters : exports.setters = Exports.present a.source Setter.all)
    (hentry : ∀ e, a.source.function? e.name = some (e.signature, exports.entry e)) :
    a.Performs m (Setter.all.map .setting ++ [.announcement])
      ((do
        Exports.configure a.surroundings a.launcher.config.settings exports.setters
        MachineM.tolerant (MachineM.enter a.surroundings EntryPoint.setConnectionStatus.name
          (exports.entry .setConnectionStatus) (Instance.statusArgument a.connected))
        return exports : MachineM Exports) m) fun _ => True := by
  have hsettings : Stage.all = checking ++ (Setter.all.map .setting ++ [.announcement]) := rfl
  have hlast : Stage.all = (checking ++ Setter.all.map .setting) ++ .announcement :: [] := rfl
  have hconfigure := a.configure_performs hm hsettings
  rw [flatMap_calls_checking] at hconfigure
  have hcalls : a.calls .announcement = [⟨EntryPoint.setConnectionStatus.name, exports.entry .setConnectionStatus,
      Instance.statusArgument a.connected⟩] := by
    rw [calls, hentry]
    rfl
  have hpasses := runs_iff hm hlast hcalls
  rw [List.flatMap_append, flatMap_calls_checking, List.nil_append] at hpasses
  rw [hsetters]
  refine hconfigure.bind fun _ _ => ?_
  exact (call_performs hcalls hpasses rfl).bind fun _ _ => .done trivial

/-- The stages of what is done with a prepared guest. -/
def settling : List Stage :=
  .start :: .sharing :: ((Setter.all.map .setter ++ EntryPoint.all.map .entry) ++
    (Setter.all.map .setting ++ [.announcement]))

/-- **A prepared guest is settled** stage by stage. -/
theorem settle_performs {guest : GuestState}
    (h : a.source.prepare a.launcher.config a.launcher.natives a.launcher.limits = .ok guest) :
    ∃ m es, Machine.Works a.surroundings none ⟨guest, a.host⟩ es m ∧
      a.Performs m settling (a.launcher.settle a.surroundings a.source a.connected ⟨guest, a.host⟩) fun _ => True := by
  have hprepared : a.prepared = some ⟨guest, a.host⟩ := by rw [prepared, h]
  obtain ⟨m, hm, hstart, es, hworks⟩ := a.runStart_performs hprepared
  refine ⟨m, es, hworks, ?_⟩
  unfold Launcher.settle
  obtain ⟨hstart, hpass⟩ | ⟨detail, hstart, hfail⟩ := hstart
  · rw [MachineM.bind_of_ok hstart]
    have hsharing : m.guest.memory.isSome = true ∧ m.guest.isKnown = true ↔ a.Passes .sharing := by
      rw [hworks.memory, hworks.isKnown]
      exact a.sharing_iff h
    refine .pass hpass ((a.requireMemory_performs hsharing).bind fun _ _ => ?_)
    obtain ⟨exports, hresolve, ⟨hsetters, hentry⟩, hfound⟩ | ⟨e, st, hresolve, hr, hfails⟩ := a.resolve_yields
    · simp only [hresolve]
      exact .after hfound (a.introduce_performs hm hsetters hentry)
    · simp only [hresolve]
      exact .of_failsFirst hfails hr rfl
  · rw [MachineM.bind_of_error hstart]
    exact .fail hfail ⟨detail, rfl⟩

/-! ### Whole attempts -/

/-- **A stage that is the first to fail** of all. -/
structure FailsAt (a : Attempt) (st : Stage) : Prop where
  earlier : ∀ other ∈ st.earlier, a.Passes other
  fails : ¬ a.Passes st

/-- The exports that are called in some stages. -/
def called (a : Attempt) (sts : List Stage) : List String := (sts.flatMap a.calls).map (·.function)

/-- The stages before anything runs. -/
def preparing : List Stage := [.memory, .imports, .limits, .segments]

theorem called_preparing (a : Attempt) (sts : List Stage) : a.called (preparing ++ sts) = a.called sts := by
  rw [called, List.flatMap_append]
  rfl

/-- What the exports were that are called on a guest that was started. -/
theorem entered_afterCalls {guest : GuestState} {es : List Occurrence} (cs : List PlannedCall)
    (h : Machine.Works a.surroundings none ⟨guest, a.host⟩ es m) :
    a.host.entered (m.afterCalls a.surroundings cs).host = cs.map (·.function) := by
  obtain ⟨es', hhistory, hcalls⟩ := Machine.afterCalls_entered a.surroundings cs m
  rw [h.leads.history, List.append_assoc] at hhistory
  rw [Host.entered_eq hhistory, entrances_append, h.work.entrances_eq_nil, List.nil_append, hcalls]

/-- **What an attempt comes to**: an instance after the calls of all stages, or else a report of the first that
fails, after the calls up to it. -/
theorem launch_concludes {bundle : Bundle} (ha : a.Spared)
    (hc : a.launcher.compile bundle.binary = some a.source) :
    let outcome := a.launcher.launch a.instanceId bundle a.connected a.host
    ((∃ i, outcome.1 = .ok i) ∧ (∀ st ∈ Stage.all, a.Passes st) ∧ a.host.entered outcome.2 = a.called Stage.all) ∨
      ∃ e before st after, Stage.all = before ++ st :: after ∧ outcome.1 = .error (.failed e) ∧
        (∀ other ∈ before, a.Passes other) ∧ ¬ a.Passes st ∧ st.Reports a.source e ∧
        a.host.entered outcome.2 = a.called (before ++ [st]) := by
  have hall : Stage.all = preparing ++ settling := rfl
  have hprepared : a.Yields a.Aborts preparing _ _ := prepare_yields ha
  obtain ⟨guest, hprepare, -, hpassed⟩ | ⟨abort, st, hprepare, ⟨e, rfl, hr⟩, before, after, hstages, hbefore, hfail⟩ :=
    hprepared
  · obtain ⟨m, es, hworks, hsettle⟩ := a.settle_performs hprepare
    have hsurroundings : a.launcher.surroundings a.instanceId = a.surroundings := rfl
    simp only [Launcher.launch, hc, hprepare, hsurroundings]
    obtain ⟨exports, hok, -, hrest⟩ | ⟨e, before, st, after, hstages, herr, hr, hbefore, hfail⟩ := hsettle
    · rw [hok, hall, called_preparing]
      exact .inl ⟨⟨_, rfl⟩, List.forall_mem_append.2 ⟨hpassed, hrest⟩, entered_afterCalls _ hworks⟩
    · have hearlier := List.forall_mem_append.2 ⟨hpassed, hbefore⟩
      refine .inr ⟨e, preparing ++ before, st, after, ?_, ?_, hearlier, hfail, hr, ?_⟩
      · rw [hall, hstages, List.append_assoc]
      · rw [herr]
      · rw [herr, List.append_assoc, called_preparing]
        exact entered_afterCalls _ hworks
  · rw [Launcher.launch_of_prepare_error hc hprepare]
    refine .inr ⟨e, before, st, after ++ settling, ?_, rfl, hbefore, hfail, hr, ?_⟩
    · rw [hall, hstages, List.append_assoc, List.cons_append]
    · have hquiet : preparing.flatMap a.calls = [] := rfl
      rw [hstages, List.append_cons, List.flatMap_append, List.append_eq_nil_iff] at hquiet
      rw [called, hquiet.1]
      exact a.host.entered_self

/-- Up to the last lookup no export is called. -/
theorem called_checking {st : Stage} (h : st ∈ checking) : a.called (st.earlier ++ [st]) = [] := by
  have hmem : ∀ st ∈ checking, ∀ other ∈ st.earlier ++ [st], other ∈ checking := by decide
  have hnone : (st.earlier ++ [st]).flatMap a.calls = [] := by
    rw [List.flatMap_eq_nil_iff]
    intro other hother
    exact List.flatMap_eq_nil_iff.1 a.flatMap_calls_checking other (hmem st h other hother)
  rw [called, hnone]
  rfl

end Attempt

namespace Launcher

/-- **What a launch comes to**, for all modules that compile, all functions of the host's and all configurations
whose pages are in order, unless the module stops the host; no import of a plain memory does. There is an instance
exactly if every stage is passed. Otherwise the first stage that fails is reported, and the exports that were called
by then are those of the stages up to it. -/
theorem launch_stages {l : Launcher} {M : Module} {bundle : Bundle}
    (hpages : l.config.memoryPages ≤ l.config.maxMemoryPages) (hmost : l.config.maxMemoryPages.toNat ≤ maxPages)
    (hc : l.compile bundle.binary = some M) (n : Nat) (connected : Bool) (host : Host) :
    let a : Attempt := ⟨l, M, n, connected, host⟩
    let outcome := l.launch n bundle connected host
    (l.StoppedBy bundle → outcome = (.error .crashed, host)) ∧
      (∀ declared, M.memory = .imported hostSpace memoryName declared → declared.IsValid →
        ¬ l.StoppedBy bundle) ∧
      (¬ l.StoppedBy bundle →
        ((∃ i, outcome.1 = .ok i) ↔ ∀ st, a.Passes st) ∧
          (∀ i, outcome.1 = .ok i → host.entered outcome.2 = a.called Stage.all) ∧
          ∀ abort, outcome.1 = .error abort → ∃ e st, abort = .failed e ∧ a.FailsAt st ∧ st.Reports M e ∧
            host.entered outcome.2 = a.called (st.earlier ++ [st]) ∧
            (st ∈ Attempt.checking → host.entered outcome.2 = [])) := by
  intro a outcome
  refine ⟨fun hstops => launch_stopped hstops n connected host, fun declared hM hvalid hstops => ?_, fun hgoes => ?_⟩
  · obtain ⟨hover, -⟩ := (stoppedBy_iff_of_isValid hc hM hvalid hpages).1 hstops
    exact absurd hmost (Nat.not_le.2 hover)
  · have hspared : a.Spared := ⟨hmost, fun declared form hM hover => hgoes ⟨M, declared, form, hc, hM, hover⟩⟩
    obtain ⟨hok, hpassed, hcalled⟩ | ⟨e, before, st, after, hstages, herr, hbefore, hfail, hr, hcalled⟩ :=
      Attempt.launch_concludes hspared hc
    · refine ⟨iff_of_true hok fun st => hpassed st st.mem_all, fun _ _ => hcalled, fun abort habort => ?_⟩
      obtain ⟨i, hi⟩ := hok
      cases hi.symm.trans habort
    · rw [← Stage.earlier_eq hstages] at hbefore hcalled
      refine ⟨iff_of_false ?_ fun hpassed => hfail (hpassed st), fun i hi => ?_, fun abort habort => ?_⟩
      · rintro ⟨i, hi⟩
        cases hi.symm.trans herr
      · cases hi.symm.trans herr
      · refine ⟨e, st, Except.error.inj (habort.symm.trans herr), ⟨hbefore, hfail⟩, hr, hcalled, fun hst => ?_⟩
        exact hcalled.trans (Attempt.called_checking hst)

/-- The intruder fails at its only setter, and passes what comes before. -/
theorem launch_stages_intruder :
    let l := Sample.settings.launcher
    let bundle : Bundle := ⟨Sample.content 105, Sample.content 105, "1.0.0", "i"⟩
    let outcome := l.launch 0 bundle false Sample.host
    l.config.memoryPages ≤ l.config.maxMemoryPages ∧ l.config.maxMemoryPages.toNat ≤ maxPages ∧
      l.compile bundle.binary = some Sample.intruder ∧ ¬ l.StoppedBy bundle ∧
      outcome.1 = .error (.failed (.execution "eea_config_set_trace_level trapped")) ∧
      Attempt.FailsAt ⟨l, Sample.intruder, 0, false, Sample.host⟩ (.setting .traceLevel) ∧
      Sample.host.entered outcome.2 = ["eea_config_set_trace_level"] := by
  intro l bundle outcome
  have hc : l.compile bundle.binary = some Sample.intruder := rfl
  have hgoes : ¬ l.StoppedBy bundle := by
    -- the intruder has a memory of its own
    rintro ⟨M, declared, form, hc', hM, -⟩
    obtain rfl := Option.some.inj (hc.symm.trans hc')
    cases hM
  have herr : outcome.1 = .error (.failed (.execution "eea_config_set_trace_level trapped")) := by
    have hmap : outcome.1.map (fun _ => ()) =
        .error (.failed (.execution "eea_config_set_trace_level trapped")) := by decide +kernel
    exact Module.error_of_map hmap
  obtain ⟨-, -, hstages⟩ := launch_stages (by decide) (by decide) hc 0 false Sample.host
  obtain ⟨e, st, habort, hfails, hr, hcalled, -⟩ := (hstages hgoes).2.2 _ herr
  cases habort
  -- no other stage reports a trap of this setter
  have hst : st = .setting .traceLevel := by
    cases st with
    | setting s =>
      have htrapped : Error.execution "eea_config_set_trace_level trapped" = .execution (s.name ++ " trapped") := hr
      cases s <;> first | rfl | exact absurd htrapped (by decide)
    | announcement =>
      have htrapped : Error.execution "eea_config_set_trace_level trapped" =
        .execution (EntryPoint.setConnectionStatus.name ++ " trapped") := hr
      exact absurd htrapped (by decide)
    | memory | imports | limits | segments | start =>
      obtain ⟨detail, hr⟩ := hr
      cases hr
    | _ => cases hr
  subst hst
  exact ⟨by decide, by decide, hc, hgoes, herr, hfails, hcalled⟩

end Launcher

namespace Sample

/-- A binary that imports the shared memory with long addresses: one page, and a maximum that words do not reach. -/
def outgrowing : Bytes := importing [5, 1, 0xf0, 0xa2, 4]

end Sample

namespace Launcher

/-- **A module whose first stage to fail is not reported**: its import of a memory with long addresses does not link,
and it stops the host, which has the standard pages. -/
theorem outgrowing_crashes :
    let l := Sample.binaryLauncher
    let bundle : Bundle := ⟨Sample.outgrowing, Sample.outgrowing, "1.0.0", "g"⟩
    Bundle.parse Sample.outgrowing = .ok bundle ∧ l.config.memoryPages ≤ l.config.maxMemoryPages ∧
      l.config.maxMemoryPages.toNat ≤ maxPages ∧
      (∃ M, l.compile bundle.binary = some M ∧ Attempt.FailsAt ⟨l, M, 0, false, Sample.host⟩ .imports) ∧
      l.launch 0 bundle false Sample.host = (.error .crashed, Sample.host) := by
  intro l bundle
  have hread : (Module.ofBinary? Sample.outgrowing).map (·.memory) =
      some (.importedAs hostSpace memoryName ⟨1, some 70000⟩ ⟨true, false⟩) := by decide +kernel
  obtain ⟨M, hc, hM⟩ := Option.map_eq_some_iff.1 hread
  refine ⟨by decide +kernel, by decide, by decide, ⟨M, hc, ?_, ?_⟩, ?_⟩
  · intro other hother
    obtain rfl : other = .memory := List.mem_singleton.1 hother
    -- the host would start with its eight pages
    intro provided hprovided
    rw [Attempt.hostMemory?_of_shared hM] at hprovided
    cases hprovided
    have hstart : (Module.hostMemoryType Sample.binaryLauncher.config ⟨1, some 70000⟩).minimum ≤
        Sample.binaryLauncher.config.maxMemoryPages.toNat := by decide
    exact hstart
  · intro hlinks
    have himport : (⟨hostSpace, memoryName, ⟨1, some 70000⟩, ⟨true, false⟩⟩ : MemoryImport) ∈ M.memoryImports := by
      unfold Module.memoryImports
      rw [hM]
      exact List.mem_cons_self
    obtain ⟨-, hplain, -⟩ := hlinks.memories _ himport
    cases hplain
  · exact launch_stopped ⟨M, _, _, hc, hM, .inr (.inr (by decide))⟩ 0 false Sample.host

end Launcher

end FlowHost
