import FlowHost.Proofs.Activity

/-!
# What guest code keeps

Some properties of a guest no move of guest code ends (`GuestState.Stable`). They hold at every point of a
run then, and after every call; and where they hold of a prepared guest, they hold of the instance that is
made of it.

* `Behaviour.Reaches.keeps`, `MachineM.enter_keeps`: **a stable property goes on to hold.**
* `Launcher.settle_keeps`, `Instance.call_keeps`: so it does while a guest is settled, and afterwards.
* `Launcher.launch_ok`: what a launch that succeeds has gone through.
-/

namespace FlowHost

/-- **A property of guests that no move of guest code ends.** -/
def GuestState.Stable (σ : Surroundings) (P : GuestState → Prop) : Prop :=
  ∀ x y : Behaviour × Machine, Behaviour.Move σ x y → P x.2.guest → P y.2.guest

variable {σ : Surroundings} {P : GuestState → Prop}

namespace Behaviour

/-- What is stable holds at every point of a run. -/
theorem Reaches.keeps (hP : GuestState.Stable σ P) {x y : Behaviour × Machine} (h : Reaches σ x y)
    (hx : P x.2.guest) : P y.2.guest := by
  induction h with
  | refl => exact hx
  | tail _ hmove ih => exact hP _ _ hmove ih

theorem run_keeps (hP : GuestState.Stable σ P) (b : Behaviour) (m : Machine) (h : P m.guest) :
    P (b.run σ m).2.guest := by
  obtain ⟨b', hreach⟩ := run_reaches σ b m
  exact hreach.keeps hP h

end Behaviour

namespace MachineM

variable {α β : Type}

/-- Work with a guest that goes on to have a property, failed or not. -/
def Keeps (P : GuestState → Prop) (x : MachineM α) : Prop := ∀ m, P m.guest → P (after (x m)).guest

theorem Keeps.bind {x : MachineM α} {f : α → MachineM β} (hx : Keeps P x) (hf : ∀ a, Keeps P (f a)) :
    Keeps P (x >>= f) := by
  intro m h
  have h1 := hx m h
  simp only [Bind.bind, EStateM.bind]
  cases hr : x m with
  | error e m' => rw [hr] at h1; exact h1
  | ok a m' =>
    rw [hr] at h1
    exact hf a m' h1

/-- **A call of an export** keeps what is stable. -/
theorem enter_keeps (hP : GuestState.Stable σ P) (function : String) (body : Body)
    (arguments : List Value) : Keeps P (enter σ function body arguments) := by
  intro m h
  have hrun := Behaviour.run_keeps hP (body arguments) (recordEntry σ function arguments m) h
  unfold enter
  cases hr : (body arguments).run σ (recordEntry σ function arguments m) with
  | mk r m1 =>
    rw [hr] at hrun
    cases r with
    | none => exact hrun
    | some code =>
      simp only
      cases checkCode function code.toInt32 <;> exact hrun

theorem tolerant_keeps {x : MachineM Unit} (hx : Keeps P x) : Keeps P (tolerant x) := by
  intro m h
  rw [after_tolerant]
  exact hx m h

end MachineM

theorem Exports.configure_keeps (hP : GuestState.Stable σ P) (settings : GuestSettings)
    (setters : List (Setter × Body)) : MachineM.Keeps P (configure σ settings setters) := by
  induction setters with
  | nil => exact fun _ h => h
  | cons p rest ih =>
    exact (MachineM.tolerant_keeps (MachineM.enter_keeps hP _ _ _)).bind fun _ => ih

theorem Module.runStart_keeps (hP : GuestState.Stable σ P) (M : Module) :
    MachineM.Keeps P (M.runStart σ) := by
  intro m h
  unfold runStart
  cases M.start with
  | none => exact h
  | some code =>
    have hrun := Behaviour.run_keeps hP code m h
    simp only
    cases hr : code.run σ m with
    | mk r m1 =>
      rw [hr] at hrun
      cases r <;> exact hrun

theorem Module.requireMemory_keeps : MachineM.Keeps P Module.requireMemory := by
  intro m h
  obtain ⟨he, -⟩ | he := Module.requireMemory_cases m <;> rw [he] <;> exact h

namespace Launcher

variable {l : Launcher} {n : Nat} {bundle : Bundle} {connected : Bool} {host host' : Host}

/-- **What is done with a prepared guest** keeps what is stable. -/
theorem settle_keeps (hP : GuestState.Stable σ P) (l : Launcher) (M : Module) (connected : Bool) :
    MachineM.Keeps P (l.settle σ M connected) := by
  refine (Module.runStart_keeps hP M).bind fun _ => Module.requireMemory_keeps.bind fun _ => ?_
  cases Exports.resolve M with
  | error e => exact fun _ h => h
  | ok exports =>
    exact (Exports.configure_keeps hP _ _).bind fun _ =>
      (MachineM.tolerant_keeps (MachineM.enter_keeps hP _ _ _)).bind fun _ _ h => h

/-- A guest that was settled has all exports. -/
theorem settle_exports {M : Module} {m m' : Machine} {exports : Exports}
    (h : l.settle σ M connected m = .ok exports m') : Exports.resolve M = .ok exports := by
  unfold settle at h
  simp only [bind, EStateM.bind] at h
  cases hs : M.runStart σ m with
  | error e m1 => simp [hs] at h
  | ok u m1 =>
    obtain ⟨hm, -⟩ | hm := Module.requireMemory_cases m1
    · cases hr : Exports.resolve M with
      | error e =>
        simp only [hs, hm, hr] at h
        cases h
      | ok found =>
        simp only [hs, hm, hr, pure, EStateM.pure, EStateM.bind] at h
        split at h
        · split at h
          · cases h
            rfl
          · cases h
        · cases h
    · simp [hs, hm] at h

/-- **What a launch that succeeds has gone through.** -/
theorem launch_ok {candidate : Instance}
    (h : l.launch n bundle connected host = (.ok candidate, host')) :
    ∃ M guest exports m', l.compile bundle.binary = some M ∧
      M.prepare l.config l.natives l.limits = .ok guest ∧
      l.settle (l.surroundings n) M connected ⟨guest, host⟩ = .ok exports m' ∧
      candidate = ⟨l.surroundings n, bundle.identifier, exports, .instantiated, m'.guest⟩ ∧
      host' = m'.host := by
  unfold launch at h
  cases hc : l.compile bundle.binary with
  | none => simp [hc] at h
  | some M =>
    simp only [hc] at h
    cases hp : M.prepare l.config l.natives l.limits with
    | error abort => simp [hp] at h
    | ok guest =>
      simp only [hp] at h
      cases hs : l.settle (l.surroundings n) M connected ⟨guest, host⟩ with
      | error e m' => simp [hs] at h
      | ok exports m' =>
        simp only [hs] at h
        obtain ⟨hcandidate, hhost⟩ := Prod.mk.inj h
        exact ⟨M, guest, exports, m', rfl, hp, hs, (Except.ok.inj hcandidate).symm, hhost.symm⟩

end Launcher

/-- **A call of an entry point** keeps what is stable. -/
theorem Instance.call_keeps {i : Instance} (hP : GuestState.Stable i.surroundings P) (h : P i.guest)
    (host : Host) (e : EntryPoint) (arguments : List Value) : P (i.call host e arguments).after.guest := by
  have hcall := MachineM.enter_keeps hP e.name (i.exports.entry e) arguments ⟨i.guest, host⟩ h
  unfold call onMachine
  cases hr : MachineM.enter i.surroundings e.name (i.exports.entry e) arguments ⟨i.guest, host⟩ with
  | ok u m => rw [hr] at hcall; exact hcall
  | error err m => rw [hr] at hcall; exact hcall

end FlowHost
