import FlowHost.Instance.Launch
import Mathlib.Data.List.Basic

/-!
# The stages of an instantiation

What an attempt to make an instance has to pass, stage by stage, in words that do not depend on how it is made; and
what is said of the stage that fails first. Stages before the setters are called look at the module and at the
configuration only, but for what the module starts with.

* `Stage.all`: the stages, in their order.
* `Attempt.Passes`: what it takes to pass a stage.
* `Stage.Reports`: what is said of a stage that fails.
* `Attempt.Yields`: what work comes to that stands for some stages.
* `Attempt.resolve_yields`: **the exports of a guest are found exactly if their stages are passed**; otherwise the
  first that fails is reported.
-/

namespace FlowHost

/-- The stages of an instantiation. -/
inductive Stage where
  /-- The host provides the memory that the module shares with it. -/
  | memory
  | imports
  | limits
  | segments
  /-- What the module starts with is run. -/
  | start
  /-- The host knows a memory of the instance. -/
  | sharing
  /-- A setter is looked up. -/
  | setter (s : Setter)
  /-- An entry point is looked up. -/
  | entry (e : EntryPoint)
  /-- A setter is called. -/
  | setting (s : Setter)
  /-- The instance is told of the connection. -/
  | announcement
  deriving DecidableEq

namespace Stage

/-- **The stages in their order**: all exports are looked up before the first of them is called. -/
def all : List Stage :=
  [memory, imports, limits, segments, start, sharing] ++
    (Setter.all.map setter ++ (EntryPoint.all.map entry ++ (Setter.all.map setting ++ [announcement])))

/-- The stages before one. -/
def earlier (st : Stage) : List Stage := all.takeWhile fun other => decide (other ≠ st)

theorem nodup_all : all.Nodup := by decide

/-- The stages before one are those that come before it. -/
theorem earlier_eq {before after : List Stage} {st : Stage} (h : all = before ++ st :: after) :
    st.earlier = before := by
  have hnodup := nodup_all
  rw [h, List.nodup_append] at hnodup
  obtain ⟨-, -, hapart⟩ := hnodup
  have hbefore : ∀ other ∈ before, decide (other ≠ st) = true := by
    intro other hother
    exact decide_eq_true (hapart other hother st List.mem_cons_self)
  rw [earlier, h, List.takeWhile_append_of_pos hbefore, List.takeWhile_cons_of_neg (by simp), List.append_nil]

end Stage

/-! ### What modules are made of -/

namespace Module

/-- The memories that a module imports. -/
def memoryImports (M : Module) : List MemoryImport :=
  (match M.memory with
    | .importedAs space name type form => [⟨space, name, type, form⟩]
    | _ => []) ++ M.further

/-- The memories of a module's own, with what is put into them. -/
def ownMemories (M : Module) : List SpareSource :=
  (match M.memory with
    | .ownAs type _ form => [⟨type, form, M.data⟩]
    | _ => []) ++ M.spares

end Module

/-- Whether data fit into a memory as it is at first. -/
def MemoryType.Holds (type : MemoryType) (data : List (Nat × Bytes)) : Prop :=
  ∀ segment ∈ data, segment.1 + segment.2.length ≤ type.minimum * pageSize

/-- Sizes that can be had below a cap. -/
def MemoryType.Below (type : MemoryType) (cap : Nat) : Prop :=
  type.minimum ≤ cap ∧ ∀ most ∈ type.maximum, type.minimum ≤ most

/-- A call that is planned: an export, what it does, and what it is given. -/
structure PlannedCall where
  function : String
  body : Body
  arguments : List Value

namespace Machine

/-- The guest and its host after a call, whatever it returned. -/
def afterCall (σ : Surroundings) (m : Machine) (c : PlannedCall) : Machine :=
  match (c.body c.arguments).run σ (MachineM.recordEntry σ c.function c.arguments m) with
  | (r, m') => MachineM.recordExit σ c.function r m'

/-- The guest and its host after calls. -/
def afterCalls (σ : Surroundings) (m : Machine) (cs : List PlannedCall) : Machine := cs.foldl (afterCall σ) m

@[simp] theorem afterCalls_nil (σ : Surroundings) (m : Machine) : m.afterCalls σ [] = m := rfl

theorem afterCalls_append (σ : Surroundings) (m : Machine) (cs cs' : List PlannedCall) :
    m.afterCalls σ (cs ++ cs') = (m.afterCalls σ cs).afterCalls σ cs' := List.foldl_append

/-- Whether a call returns a word, rather than trap. -/
def Returns (σ : Surroundings) (m : Machine) (c : PlannedCall) : Prop :=
  ((c.body c.arguments).run σ (MachineM.recordEntry σ c.function c.arguments m)).1.isSome = true

end Machine

/-! ### Attempts -/

/-- An attempt to make an instance. -/
structure Attempt where
  launcher : Launcher
  source : Module
  instanceId : Nat
  connected : Bool
  host : Host

namespace Attempt

/-- What the imports of the candidate know of it. -/
def surroundings (a : Attempt) : Surroundings := a.launcher.surroundings a.instanceId

/-- The memory that the host provides, if the module imports the shared one. -/
def hostMemory? (a : Attempt) : Option MemoryType :=
  match a.source.memory with
  | .importedAs space name declared _ =>
    if space = hostSpace ∧ name = memoryName then some (Module.hostMemoryType a.launcher.config declared) else none
  | _ => none

/-- The signature of a function that the host provides: a core import, or else a native function. -/
def provided? (a : Attempt) (name : String) : Option Signature :=
  (CoreCall.signature? name).or ((a.launcher.natives.find? name).map (·.signature))

/-- **All imports are provided**, each with its type. The host has functions and one memory, which is a plain one, and
nothing else. -/
structure Links (a : Attempt) : Prop where
  functions : ∀ i ∈ a.source.imports, i.space = hostSpace ∧ a.provided? i.name = some i.signature
  memories : ∀ i ∈ a.source.memoryImports, (i.space = hostSpace ∧ i.name = memoryName) ∧ i.form = .plain ∧
    ∃ provided ∈ a.hostMemory?, i.type.minimum ≤ provided.minimum ∧
      ∀ most ∈ i.type.maximum, ∃ own ∈ provided.maximum, own ≤ most
  others : a.source.foreign = []

/-- **The limits let all memories and tables start.** The host makes no memory that is shared between threads. -/
structure Starts (a : Attempt) : Prop where
  memories : ∀ x ∈ a.source.ownMemories, x.form.isShared = false ∧
    x.type.Below a.launcher.config.maxMemoryPages.toNat
  tables : ∀ type ∈ a.source.tables, type.Below Limits.standard.tableElements

/-- **All segments fit.** -/
structure Fills (a : Attempt) : Prop where
  shared : ∀ provided ∈ a.hostMemory?, provided.Holds a.source.data
  own : ∀ x ∈ a.source.ownMemories, x.type.Holds x.data
  tables : ∀ segment ∈ a.source.elements, ∃ type, a.source.tables[segment.table]? = some type ∧
    segment.start + segment.count ≤ type.minimum

/-- The guest on its host before anything of it runs, if it can be prepared. -/
def prepared (a : Attempt) : Option Machine :=
  match a.source.prepare a.launcher.config a.launcher.natives a.launcher.limits with
  | .ok guest => some ⟨guest, a.host⟩
  | .error _ => none

/-- The guest and its host after what the module starts with. -/
def started (a : Attempt) : Option Machine :=
  a.prepared.map fun m =>
    match a.source.start with
    | none => m
    | some code => (code.run a.surroundings m).2

/-- The calls of a stage: that of a setter that is there, and the announcement of the connection. -/
def calls (a : Attempt) : Stage → List PlannedCall
  | .setting s => (a.source.function? s.name).toList.map fun f =>
      ⟨s.name, f.2, s.arguments a.launcher.config.settings⟩
  | .announcement => (a.source.function? EntryPoint.setConnectionStatus.name).toList.map fun f =>
      ⟨EntryPoint.setConnectionStatus.name, f.2, Instance.statusArgument a.connected⟩
  | _ => []

/-- The calls of a stage return, after the calls of all stages before it. -/
def Runs (a : Attempt) (st : Stage) : Prop :=
  ∀ m ∈ a.started, ∀ c ∈ a.calls st, (m.afterCalls a.surroundings (st.earlier.flatMap a.calls)).Returns a.surroundings c

/-- **What it takes to pass a stage.** -/
def Passes (a : Attempt) : Stage → Prop
  | .memory => ∀ provided ∈ a.hostMemory?, provided.minimum ≤ a.launcher.config.maxMemoryPages.toNat
  | .imports => a.Links
  | .limits => a.Starts
  | .segments => a.Fills
  | .start => ∀ m ∈ a.prepared, ∀ code ∈ a.source.start, (code.run a.surroundings m).1.isSome = true
  | .sharing => (∃ declared form, a.source.memory = .importedAs hostSpace memoryName declared form) ∨
      ∃ type form, a.source.memory = .ownAs type (some memoryName) form
  | .setter s => ∀ signature body, a.source.function? s.name = some (signature, body) → signature = s.signature
  | .entry e => ∃ body, a.source.function? e.name = some (e.signature, body)
  | .setting s => a.Runs (.setting s)
  | .announcement => a.Runs .announcement

end Attempt

/-- **What is said of a stage that fails**: the instantiation failed, an export is missing or has another signature,
or an export trapped. -/
def Stage.Reports (M : Module) (e : Error) : Stage → Prop
  | memory | imports | limits | segments | start => ∃ detail, e = .instantiation detail
  | sharing => e = .exportNotFound memoryName
  | setter s => e = .exportNotFound (s.name ++ ": signature")
  | entry x => e = .exportNotFound (if (M.function? x.name).isSome then x.name ++ ": signature" else x.name)
  | setting s => e = .execution (s.name ++ " trapped")
  | announcement => e = .execution (EntryPoint.setConnectionStatus.name ++ " trapped")

namespace Attempt

variable {a : Attempt} {ε α β : Type} {R : ε → Stage → Prop} {P : α → Prop} {sts sts' : List Stage} {st : Stage}
  {x : Except ε α}

/-- **The first stage that fails** among some. -/
def FailsFirst (a : Attempt) (sts : List Stage) (st : Stage) : Prop :=
  ∃ before after, sts = before ++ st :: after ∧ (∀ other ∈ before, a.Passes other) ∧ ¬ a.Passes st

theorem FailsFirst.head (h : ¬ a.Passes st) : a.FailsFirst (st :: sts) st :=
  ⟨[], sts, rfl, fun _ hmem => absurd hmem List.not_mem_nil, h⟩

theorem FailsFirst.tail {other : Stage} (hpass : a.Passes other) (h : a.FailsFirst sts st) :
    a.FailsFirst (other :: sts) st := by
  obtain ⟨before, after, rfl, hbefore, hfail⟩ := h
  exact ⟨other :: before, after, rfl, List.forall_mem_cons.2 ⟨hpass, hbefore⟩, hfail⟩

/-- **What work yields that stands for some stages**: its result if all of them are passed, and otherwise a report of
the first that fails. -/
def Yields (a : Attempt) (R : ε → Stage → Prop) (sts : List Stage) (x : Except ε α) (P : α → Prop) : Prop :=
  (∃ v, x = .ok v ∧ P v ∧ ∀ st ∈ sts, a.Passes st) ∨ ∃ e st, x = .error e ∧ R e st ∧ a.FailsFirst sts st

theorem Yields.done {v : α} (h : P v) : a.Yields R [] (.ok v) P :=
  .inl ⟨v, rfl, h, fun _ hmem => absurd hmem List.not_mem_nil⟩

theorem Yields.pass (hpass : a.Passes st) (h : a.Yields R sts x P) : a.Yields R (st :: sts) x P := by
  obtain ⟨v, hx, hv, hall⟩ | ⟨e, st', hx, hr, hfails⟩ := h
  · exact .inl ⟨v, hx, hv, List.forall_mem_cons.2 ⟨hpass, hall⟩⟩
  · exact .inr ⟨e, st', hx, hr, hfails.tail hpass⟩

theorem Yields.fail {e : ε} (hfail : ¬ a.Passes st) (hr : R e st) : a.Yields R (st :: sts) (.error e) P :=
  .inr ⟨e, st, rfl, hr, .head hfail⟩

/-- A check that stands for a stage, alone or with others. -/
theorem Yields.require {holds : Bool} {detail : String} {rest : Unit → Except Abort α} {R : Abort → Stage → Prop}
    (hr : R (.failed (.instantiation detail)) st) (hfail : holds = false → ¬ a.Passes st)
    (hrest : holds = true → a.Yields R (st :: sts) (rest ()) P) :
    a.Yields R (st :: sts) (Module.require holds detail >>= rest) P := by
  cases holds with
  | false => exact .fail (hfail rfl) hr
  | true => exact hrest rfl

/-- What is made of the result of work changes nothing of its stages. -/
theorem Yields.last {Q : β → Prop} {f : α → β} (h : a.Yields R sts x P) (hf : ∀ v, P v → Q (f v)) :
    a.Yields R sts (x >>= fun v => pure (f v)) Q := by
  obtain ⟨v, rfl, hv, hall⟩ | ⟨e, st, rfl, hr, hfails⟩ := h
  · exact .inl ⟨f v, rfl, hf v hv, hall⟩
  · exact .inr ⟨e, st, rfl, hr, hfails⟩

theorem Yields.bind {Q : β → Prop} {f : α → Except ε β} (h : a.Yields R sts x P)
    (hf : ∀ v, P v → a.Yields R sts' (f v) Q) : a.Yields R (sts ++ sts') (x >>= f) Q := by
  obtain ⟨v, rfl, hv, hall⟩ | ⟨e, st, rfl, hr, before, after, rfl, hbefore, hfail⟩ := h
  · have hnext := hf v hv
    clear hv
    -- along the stages that are passed
    induction sts with
    | nil => exact hnext
    | cons st sts ih =>
      obtain ⟨hpass, hrest⟩ := List.forall_mem_cons.1 hall
      exact .pass hpass (ih hrest)
  · refine .inr ⟨e, st, rfl, hr, before, after ++ sts', ?_, hbefore, hfail⟩
    rw [List.append_assoc, List.cons_append]

end Attempt

/-! ### Exports are looked up -/

namespace Exports

/-- The setters that a module has, with what they do. -/
def present (M : Module) (setters : List Setter) : List (Setter × Body) :=
  setters.filterMap fun s => (M.function? s.name).map fun f => (s, f.2)

end Exports

namespace Attempt

variable {a : Attempt}

/-- What is said of a failing stage of this attempt. -/
abbrev Report (a : Attempt) (e : Error) (st : Stage) : Prop := st.Reports a.source e

/-- **A setter is looked up.** -/
theorem optional_yields (a : Attempt) (s : Setter) :
    a.Yields a.Report [.setter s] (Exports.optional a.source s.name s.signature)
      fun found => found = (a.source.function? s.name).map (·.2) := by
  unfold Exports.optional Exports.required
  cases hf : a.source.function? s.name with
  | none =>
    refine .pass ?_ (.done rfl)
    intro signature body hfound
    rw [hf] at hfound
    cases hfound
  | some f =>
    obtain ⟨signature, body⟩ := f
    simp only
    by_cases hsignature : signature = s.signature
    · rw [if_pos hsignature]
      refine .pass ?_ (.done rfl)
      intro signature' body' hfound
      rw [hf] at hfound
      cases hfound
      exact hsignature
    · rw [if_neg hsignature]
      exact .fail (fun hpass => hsignature (hpass signature body hf)) rfl

theorem resolveSetters_yields (a : Attempt) (setters : List Setter) :
    a.Yields a.Report (setters.map .setter) (Exports.resolveSetters a.source setters)
      fun found => found = Exports.present a.source setters := by
  induction setters with
  | nil => exact .done rfl
  | cons s rest ih =>
    refine (a.optional_yields s).bind fun found hfound => ?_
    refine ih.last fun others hothers => ?_
    rw [hfound, hothers, Exports.present, Exports.present, List.filterMap_cons]
    cases a.source.function? s.name <;> rfl

/-- **An entry point is looked up.** -/
theorem resolveEntry_yields (a : Attempt) (e : EntryPoint) :
    a.Yields a.Report [.entry e] (Exports.resolveEntry a.source e)
      fun body => a.source.function? e.name = some (e.signature, body) := by
  unfold Exports.resolveEntry Exports.required
  cases hf : a.source.function? e.name with
  | none =>
    refine .fail ?_ ?_
    · rintro ⟨body, hfound⟩
      rw [hf] at hfound
      cases hfound
    · simp only [Report, Stage.Reports, hf]
      rfl
  | some f =>
    obtain ⟨signature, body⟩ := f
    simp only
    by_cases hsignature : signature = e.signature
    · rw [if_pos hsignature]
      subst hsignature
      exact .pass ⟨body, hf⟩ (.done rfl)
    · rw [if_neg hsignature]
      refine .fail ?_ ?_
      · rintro ⟨body', hfound⟩
        rw [hf] at hfound
        cases hfound
        exact hsignature rfl
      · simp only [Report, Stage.Reports, hf]
        rfl

/-- **All exports are looked up**, setters before entry points. -/
theorem resolve_yields (a : Attempt) :
    a.Yields a.Report (Setter.all.map .setter ++ EntryPoint.all.map .entry) (Exports.resolve a.source)
      fun found => found.setters = Exports.present a.source Setter.all ∧
        ∀ e, a.source.function? e.name = some (e.signature, found.entry e) := by
  unfold Exports.resolve
  refine (a.resolveSetters_yields Setter.all).bind fun setters hsetters => ?_
  refine (a.resolveEntry_yields .init).bind fun init hinit => ?_
  refine (a.resolveEntry_yields .loop).bind fun loop hloop => ?_
  refine (a.resolveEntry_yields .messageReceived).bind fun messageReceived hmessage => ?_
  refine (a.resolveEntry_yields .directTrigger).bind fun directTrigger htrigger => ?_
  refine (a.resolveEntry_yields .setConnectionStatus).bind fun setConnectionStatus hstatus => ?_
  refine (a.resolveEntry_yields .shutdown).last fun shutdown hshutdown => ⟨hsetters, fun e => ?_⟩
  cases e with
  | init => exact hinit
  | loop => exact hloop
  | messageReceived => exact hmessage
  | directTrigger => exact htrigger
  | setConnectionStatus => exact hstatus
  | shutdown => exact hshutdown

end Attempt

end FlowHost
