import FlowHost.Guest.Behaviour
import Mathlib.Data.List.Basic

/-!
# Growth of memories

A request for more pages is granted in full or refused, and a refused one changes nothing.

* `Memory.grow_cases`: **what comes of a request for more pages.**
* `Memory.Capped.grow`, `answersGrowth`: **no request leads beyond the caps**, and the answer tells whether
  it was granted.
-/

namespace FlowHost

namespace Memory

/-- **A request that is granted**: the answer is the number of pages before, and the memory has as many more
as were asked for. Nothing that was there changes. -/
structure Granted (limits : Limits) (maximum : Option Nat) (delta : Nat) (m : Memory)
    (answer : Option Nat) (m' : Memory) : Prop where
  answer : answer = some m.pages
  size : m'.size = (m.pages + delta) * pageSize
  limit : m'.size ≤ limits.memoryBytes
  maximum : ∀ most ∈ maximum, m'.size ≤ most * pageSize
  bytes : ∀ j < m.size, m'.byte j = m.byte j

variable {m : Memory} {limits : Limits} {maximum : Option Nat} {delta : Nat}

/-- **What comes of a request for more pages**: it is refused, or for none, or granted. -/
theorem grow_cases (m : Memory) (limits : Limits) (maximum : Option Nat) (delta : Nat) :
    m.grow limits maximum delta = (none, m) ∨
      (delta = 0 ∧ m.grow limits maximum delta = (some m.pages, m)) ∨
      (delta ≠ 0 ∧ Granted limits maximum delta m (m.grow limits maximum delta).1
        (m.grow limits maximum delta).2) := by
  set after := (m.pages + delta) * pageSize with hafter
  by_cases h0 : delta = 0
  · refine .inr (.inl ⟨h0, ?_⟩)
    unfold grow
    rw [if_pos h0]
  · by_cases hallowed : limits.allowsMemory after (maximum.map (· * pageSize)) = true
    · have hgrow : m.grow limits maximum delta = (some m.pages, m.resize after) := by
        unfold grow
        rw [if_neg h0]
        exact if_pos hallowed
      obtain ⟨hlimit, hmost⟩ := Limits.le_of_allowsMemory hallowed
      rw [hgrow]
      refine .inr (.inr ⟨h0, rfl, rfl, hlimit, fun most hm => ?_, fun j hj => if_pos hj⟩)
      exact hmost _ (by rw [Option.mem_def.1 hm]; rfl)
    · refine .inl ?_
      unfold grow
      rw [if_neg h0]
      exact if_neg hallowed

/-- **A memory never shrinks.** -/
theorem size_le_grow (m : Memory) (limits : Limits) (maximum : Option Nat) (delta : Nat) :
    m.size ≤ (m.grow limits maximum delta).2.size := by
  rcases m.grow_cases limits maximum delta with h | ⟨-, h⟩ | ⟨h0, h⟩
  · exact Nat.le_of_eq (by rw [h])
  · exact Nat.le_of_eq (by rw [h])
  · -- the pages that were there are all kept, and a part of a page counts as a whole one
    have hsize := h.size
    unfold pages pageSize at hsize
    omega

/-- **A memory within its caps**: whole pages, and no more of them than the limits and its own maximum allow. -/
structure Capped (limits : Limits) (maximum : Option Nat) (m : Memory) : Prop where
  limit : m.size ≤ limits.memoryBytes
  maximum : ∀ most ∈ maximum, m.size ≤ most * pageSize
  whole : ∃ n, m.size = n * pageSize

/-- **Every request is granted in full, or it is refused and changes nothing.** -/
def AnswersGrowth (limits : Limits) (maximum : Option Nat) (m : Memory) : Prop :=
  ∀ delta, m.grow limits maximum delta = (none, m) ∨
    (m.grow limits maximum delta).1 = some m.pages ∧
      (m.grow limits maximum delta).2.size = m.size + delta * pageSize

namespace Capped

theorem of_size {m' : Memory} (h : Capped limits maximum m) (hs : m'.size = m.size) :
    Capped limits maximum m' :=
  ⟨hs ▸ h.limit, hs ▸ h.maximum, hs ▸ h.whole⟩

/-- **No request leads beyond the caps.** -/
theorem grow (h : Capped limits maximum m) (delta : Nat) :
    Capped limits maximum (m.grow limits maximum delta).2 := by
  rcases m.grow_cases limits maximum delta with hr | ⟨-, hr⟩ | ⟨-, hr⟩
  · rw [hr]
    exact h
  · rw [hr]
    exact h
  · exact ⟨hr.limit, hr.maximum, _, hr.size⟩

theorem answersGrowth (h : Capped limits maximum m) : AnswersGrowth limits maximum m := by
  intro delta
  obtain ⟨n, hsize⟩ := h.whole
  rcases m.grow_cases limits maximum delta with hr | ⟨h0, hr⟩ | ⟨-, hr⟩
  · exact .inl hr
  · refine .inr ⟨by rw [hr], ?_⟩
    rw [hr, h0, Nat.zero_mul, Nat.add_zero]
  · refine .inr ⟨hr.answer, ?_⟩
    -- the pages before are whole, so none is rounded away
    have hwhole : m.pages = n := by
      rw [pages, hsize]
      exact Nat.mul_div_cancel _ (by decide)
    rw [hr.size, hwhole, hsize, Nat.add_mul]

end Capped

end Memory

end FlowHost
