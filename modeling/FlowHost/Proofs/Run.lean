import FlowHost.Proofs.Leads
import Mathlib.Logic.Relation

/-!
# Points of a guest's run

A run of a guest's function goes from point to point: what is still to be done, on the machine
as it is then. `Behaviour.Move` is one such step, and `Behaviour.Reaches` any number of them.

* `run_eq_of_reaches`: a run goes on from each of its points to the same end.
* `run_reaches`: the machine at the end of a run is that of one of its points.
-/

namespace FlowHost

namespace Machine

variable {limits : Limits} {m m' : Machine}

theorem grow_of_some {memory : Memory} (hm : m.guest.memory = some memory) (delta : Nat) :
    m.grow limits delta = ((memory.grow limits m.guest.maximum delta).1,
      { m with
        guest := { m.guest with memory := some (memory.grow limits m.guest.maximum delta).2 } }) := by
  unfold grow
  rw [hm]

theorem grow_of_none (hm : m.guest.memory = none) (delta : Nat) :
    m.grow limits delta = (none, m) := by
  unfold grow
  rw [hm]

/-- **A request to another memory** changes that memory and nothing else. -/
theorem access_eq_some {index : Nat} {a : Access} {answer : Bytes}
    (h : m.access limits index a = some (answer, m')) :
    ∃ x x', m.guest.spares[index]? = some x ∧ x.access limits a = some (answer, x') ∧
      m' = { m with guest := { m.guest with spares := m.guest.spares.set index x' } } := by
  simp only [access, Option.bind_eq_bind, Option.bind_eq_some_iff] at h
  obtain ⟨x, hx, ⟨answer', x'⟩, ha, h⟩ := h
  obtain ⟨rfl, rfl⟩ := Prod.mk.inj (Option.some.inj h)
  exact ⟨x, x', hx, ha, rfl⟩

end Machine

namespace Behaviour

/-- **One step of a run.** A run that can make none is at its end. -/
inductive Move (σ : Surroundings) : Behaviour × Machine → Behaviour × Machine → Prop
  | pages {m : Machine} {memory : Memory} {next : Nat → Behaviour}
      (hm : m.guest.memory = some memory) :
      Move σ (.pages next, m) (next memory.pages, m)
  | grow {m : Machine} {delta : Nat} {next : Option Nat → Behaviour} :
      Move σ (.grow delta next, m) (next (m.grow σ.limits delta).1, (m.grow σ.limits delta).2)
  | load {m : Machine} {memory : Memory} {start width : Nat} {next : Bytes → Behaviour}
      (hm : m.guest.memory = some memory) (hc : memory.contains start width = true) :
      Move σ (.load start width next, m) (next (memory.bytesAt start width), m)
  | store {m : Machine} {memory : Memory} {start : Nat} {content : Bytes} {next : Behaviour}
      (hm : m.guest.memory = some memory) (hc : memory.contains start content.length = true) :
      Move σ (.store start content next, m)
        (next, { m with guest := { m.guest with memory := some (memory.overlay start content) } })
  | spare {m m' : Machine} {index : Nat} {access : Access} {answer : Bytes} {next : Bytes → Behaviour}
      (ha : m.access σ.limits index access = some (answer, m')) :
      Move σ (.spare index access next, m) (next answer, m')
  | getGlobal {m : Machine} {index : Nat} {value : Value} {next : Value → Behaviour}
      (hg : m.guest.globals[index]? = some value) :
      Move σ (.getGlobal index next, m) (next value, m)
  | setGlobal {m : Machine} {index : Nat} {value : Value} {next : Behaviour}
      (hi : index < m.guest.globals.length) :
      Move σ (.setGlobal index value next, m)
        (next, { m with guest := { m.guest with globals := m.guest.globals.set index value } })
  | call {m m' : Machine} {function : String} {arguments results : List Value}
      {next : List Value → Behaviour} (hc : m.call σ function arguments = (some results, m')) :
      Move σ (.call function arguments next, m) (next results, m')
  /-- What a call did before it trapped stays done. -/
  | trapped {m m' : Machine} {function : String} {arguments : List Value}
      {next : List Value → Behaviour} (hc : m.call σ function arguments = (none, m')) :
      Move σ (.call function arguments next, m) (.trap, m')

/-- A run comes from one point to another. -/
def Reaches (σ : Surroundings) : Behaviour × Machine → Behaviour × Machine → Prop :=
  Relation.ReflTransGen (Move σ)

variable {σ : Surroundings} {x y : Behaviour × Machine}

/-- A run goes on from the next point to the same end. -/
theorem run_eq_of_move (h : Move σ x y) : x.1.run σ x.2 = y.1.run σ y.2 := by
  cases h with
  | pages hm => simp only [run, hm]
  | grow => simp only [run]
  | load hm hc => simp only [run, hm, hc, if_true]
  | store hm hc => simp only [run, hm, hc, if_true]
  | spare ha => simp only [run, ha]
  | getGlobal hg => simp only [run, hg]
  | setGlobal hi => simp only [run, hi, if_true]
  | call hc => simp only [run, hc]
  | trapped hc => simp only [run, hc]

/-- **A run goes on from each of its points to the same end.** -/
theorem run_eq_of_reaches (h : Reaches σ x y) : x.1.run σ x.2 = y.1.run σ y.2 := by
  induction h with
  | refl => rfl
  | tail _ hy ih => rw [ih, run_eq_of_move hy]

/-- **The machine at the end of a run is that of one of its points.** -/
theorem run_reaches (σ : Surroundings) (b : Behaviour) (m : Machine) :
    ∃ b', Reaches σ (b, m) (b', (b.run σ m).2) := by
  -- a run that is not at its end has a next point, and ends where that one ends
  have key : ∀ {b b' : Behaviour} {m m' : Machine}, Move σ (b, m) (b', m') →
      (∃ b'', Reaches σ (b', m') (b'', (b'.run σ m').2)) →
      ∃ b'', Reaches σ (b, m) (b'', (b.run σ m).2) := by
    intro b b' m m' h ⟨b'', hr⟩
    rw [show b.run σ m = b'.run σ m' from run_eq_of_move h]
    exact ⟨b'', .head h hr⟩
  induction b generalizing m with
  | done r => exact ⟨_, .refl⟩
  | trap => exact ⟨_, .refl⟩
  | pages next ih =>
    cases hm : m.guest.memory with
    | none => exact ⟨_, by simp only [run, hm]; exact .refl⟩
    | some memory => exact key (.pages hm) (ih _ m)
  | grow delta next ih => exact key .grow (ih _ _)
  | load start width next ih =>
    cases hm : m.guest.memory with
    | none => exact ⟨_, by simp only [run, hm]; exact .refl⟩
    | some memory =>
      by_cases hc : memory.contains start width = true
      · exact key (.load hm hc) (ih _ m)
      · exact ⟨_, by simp only [run, hm, hc]; exact .refl⟩
  | store start content next ih =>
    cases hm : m.guest.memory with
    | none => exact ⟨_, by simp only [run, hm]; exact .refl⟩
    | some memory =>
      by_cases hc : memory.contains start content.length = true
      · exact key (.store hm hc) (ih _)
      · exact ⟨_, by simp only [run, hm, hc]; exact .refl⟩
  | spare index access next ih =>
    cases ha : m.access σ.limits index access with
    | none => exact ⟨_, by simp only [run, ha]; exact .refl⟩
    | some p => exact key (.spare ha) (ih _ _)
  | getGlobal index next ih =>
    cases hg : m.guest.globals[index]? with
    | none => exact ⟨_, by simp only [run, hg]; exact .refl⟩
    | some value => exact key (.getGlobal hg) (ih _ m)
  | setGlobal index value next ih =>
    by_cases hi : index < m.guest.globals.length
    · exact key (.setGlobal hi) (ih _)
    · exact ⟨_, by simp only [run, hi]; exact .refl⟩
  | call function arguments next ih =>
    cases hc : m.call σ function arguments with
    | mk results m' =>
      cases results with
      | none => exact key (.trapped hc) ⟨_, .refl⟩
      | some results => exact key (.call hc) (ih _ m')

end Behaviour

end FlowHost
