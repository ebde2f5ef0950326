/-!
# Growth limits

How far a guest's memory and tables may grow: never beyond the cap of the host, and
never beyond the maximum that the memory or table declares itself.
-/

namespace FlowHost

/-- The octets of a page of memory. -/
def pageSize : Nat := 65536

/-- The greatest number of pages that 32-bit addresses reach. -/
def maxPages : Nat := 65536

/-- The host's caps. -/
structure Limits where
  memoryBytes : Nat
  tableElements : Nat
  deriving DecidableEq, Repr

namespace Limits

/-- The caps of a host that is told nothing: 256 pages and ten thousand elements. -/
def standard : Limits := ⟨256 * pageSize, 10000⟩

/-- The caps for a number of pages. -/
def ofPages (pages : Nat) : Limits := { standard with memoryBytes := pages * pageSize }

/-- Whether a memory may have a size in octets. -/
def allowsMemory (l : Limits) (desired : Nat) (declared : Option Nat) : Bool :=
  decide (desired ≤ declared.getD l.memoryBytes) && decide (desired ≤ l.memoryBytes)

/-- Whether a table may have a number of elements. -/
def allowsTable (l : Limits) (desired : Nat) (declared : Option Nat) : Bool :=
  decide (desired ≤ declared.getD l.tableElements) && decide (desired ≤ l.tableElements)

theorem le_of_allowsMemory {l : Limits} {desired : Nat} {declared : Option Nat}
    (h : l.allowsMemory desired declared = true) :
    desired ≤ l.memoryBytes ∧ ∀ m ∈ declared, desired ≤ m := by
  simp only [allowsMemory, Bool.and_eq_true, decide_eq_true_eq] at h
  refine ⟨h.2, ?_⟩
  intro m hm
  cases hm
  exact h.1

end Limits

end FlowHost
