import FlowHost.Proofs.Steps

/-!
# The life of an instance

The calls of one instance's exports, from its configuration to its shutdown (`History.Life`), and
those of others that fall between its first call and its initialisation (`History.interlude`).
`candidates` numbers the bundles that got as far as being instantiated, with whether they became
instances.
-/

namespace FlowHost

namespace History

/-- **A life**: every export of the configuration returns, the instance is initialised and told of the
connection once more, it is in service, and its shutdown is the last call once it is retired. -/
def Life (names : List String) (retired : Prop) (calls : List (String × Option UInt32)) : Prop :=
  ∃ setup r₁ r₂ service closing,
    calls = setup ++ (EntryPoint.init.name, r₁) :: (EntryPoint.setConnectionStatus.name, r₂) ::
      (service ++ closing) ∧
    Returned names setup ∧ (∀ c ∈ service, c.1 ∈ EntryPoint.services) ∧
    (retired → ∃ r, closing = [(EntryPoint.shutdown.name, r)]) ∧ (¬ retired → closing = [])

/-- The calls of other instances between the first call of an instance and its initialisation. -/
def interlude (k : Nat) (cs : List Call) : List Call :=
  ((cs.dropWhile fun c => c.instanceId ≠ k).takeWhile fun c =>
    ¬ (c.instanceId = k ∧ c.function = EntryPoint.init.name)).filter fun c => c.instanceId ≠ k

variable {names : List String} {retired retired' : Prop} {calls : List (String × Option UInt32)}
  {es es' : List Occurrence} {cs cs' : List Call} {k : Nat} {f : String} {r : Option UInt32}

/-! ### Lives -/

theorem Life.congr (h : Life names retired calls) (hr : retired ↔ retired') :
    Life names retired' calls := by rwa [← propext hr]

/-- A life begins in service. -/
theorem Life.begin {setup : List (String × Option UInt32)} (h : Returned names setup) (hr : ¬ retired)
    (r₁ r₂ : Option UInt32) : Life names retired
      (setup ++ [(EntryPoint.init.name, r₁), (EntryPoint.setConnectionStatus.name, r₂)]) :=
  ⟨setup, r₁, r₂, [], [], rfl, h, fun _ h => (nomatch h), fun hr' => absurd hr' hr, fun _ => rfl⟩

/-- Services go on until the instance is retired. -/
theorem Life.serve (h : Life names retired calls) (hr : ¬ retired) (hf : f ∈ EntryPoint.services) :
    Life names retired (calls ++ [(f, r)]) := by
  obtain ⟨setup, r₁, r₂, service, closing, rfl, hs, hv, -, hc⟩ := h
  obtain rfl := hc hr
  refine ⟨setup, r₁, r₂, service ++ [(f, r)], [], by simp, hs, fun c hc => ?_,
    fun hr' => absurd hr' hr, fun _ => rfl⟩
  rcases List.mem_append.1 hc with hc | hc
  · exact hv c hc
  · rw [List.mem_singleton.1 hc]
    exact hf

/-- **A life ends with one shutdown.** -/
theorem Life.retire (h : Life names retired calls) (hr : ¬ retired) (hr' : retired') :
    Life names retired' (calls ++ [(EntryPoint.shutdown.name, r)]) := by
  obtain ⟨setup, r₁, r₂, service, closing, rfl, hs, hv, -, hc⟩ := h
  obtain rfl := hc hr
  exact ⟨setup, r₁, r₂, service, [(EntryPoint.shutdown.name, r)], by simp, hs, hv,
    fun _ => ⟨r, rfl⟩, fun h => absurd hr' h⟩

theorem Life.init_mem (h : Life names retired calls) : ∃ r, (EntryPoint.init.name, r) ∈ calls := by
  obtain ⟨setup, r₁, r₂, service, closing, rfl, -⟩ := h
  exact ⟨r₁, by simp⟩

/-! ### Calls of one instance among all -/

theorem mem_callsOf : (f, r) ∈ callsOf k es ↔ ⟨k, f, r⟩ ∈ History.calls es := by
  simp only [callsOf, List.mem_map, List.mem_filter, decide_eq_true_eq, Prod.mk.injEq]
  constructor
  · rintro ⟨c, ⟨hc, rfl⟩, rfl, rfl⟩
    exact hc
  · intro h
    exact ⟨_, ⟨h, rfl⟩, rfl, rfl⟩

theorem callsOf_ownedBy (h : OwnedBy k es) :
    callsOf k es = (History.calls es).map fun c => (c.function, c.result) := by
  rw [callsOf, List.filter_eq_self.2 fun c hc => by simp [calls_ownedBy h c hc]]

/-- An instance without calls is not among the callers. -/
theorem instanceId_ne (h : callsOf k es = []) : ∀ c ∈ History.calls es, c.instanceId ≠ k := by
  rintro ⟨j, f, r⟩ hc rfl
  have hm := mem_callsOf.2 hc
  rw [h] at hm
  cases hm

theorem callsOf_of_calls {j : Nat} (h : History.calls es = [⟨j, f, r⟩]) :
    callsOf k es = if j = k then [(f, r)] else [] := by
  simp only [callsOf, h]
  by_cases hj : j = k <;> simp [hj]

/-! ### Interludes -/

/-- **Nothing that is called later changes an interlude.** -/
theorem interlude_append (h : ∃ c ∈ cs, c.instanceId = k ∧ c.function = EntryPoint.init.name) :
    interlude k (cs ++ cs') = interlude k cs := by
  obtain ⟨c, hc, hk, hf⟩ := h
  obtain ⟨before, after, rfl⟩ := List.append_of_mem hc
  simp only [interlude, List.append_assoc, List.cons_append, List.dropWhile_append]
  split
  · simp [hk, hf]
  · rw [List.takeWhile_append, List.takeWhile_append]
    simp [hk, hf]

/-- The calls of others that stand between the first calls of an instance and its initialisation. -/
theorem interlude_eq {before setup closing after : List Call} (hb : ∀ c ∈ before, c.instanceId ≠ k)
    (hs : ∀ c ∈ setup, c.instanceId = k ∧ c.function ≠ EntryPoint.init.name) (hne : setup ≠ [])
    (hc : ∀ c ∈ closing, c.instanceId ≠ k) :
    interlude k (before ++ (setup ++ (closing ++ ⟨k, EntryPoint.init.name, r⟩ :: after))) = closing := by
  have hdrop : ((before ++ (setup ++ (closing ++ ⟨k, EntryPoint.init.name, r⟩ :: after))).dropWhile
      fun c => c.instanceId ≠ k) = setup ++ (closing ++ ⟨k, EntryPoint.init.name, r⟩ :: after) := by
    rw [List.dropWhile_append_of_pos (by simpa using hb)]
    cases setup with
    | nil => exact absurd rfl hne
    | cons c setup => simp [(hs c (List.mem_cons_self ..)).1]
  rw [interlude, hdrop, List.takeWhile_append_of_pos, List.takeWhile_append_of_pos, List.filter_append,
    List.filter_eq_nil_iff.2, List.filter_append, List.filter_eq_self.2]
  · simp
  · simpa using hc
  · intro c h
    simp [(hs c h).1]
  · intro c h
    simp [hc c h]
  · intro c h
    simp [(hs c h).2]

end History

/-! ### Candidates -/

/-- A bundle that got as far as being instantiated, and whether it became an instance. -/
structure Candidate where
  bundle : Bundle
  accepted : Bool

/-- **The candidates of a run**, in the order of the numbers of their instances. -/
def candidates (ls : List Load) : List Candidate :=
  ls.filterMap fun l =>
    match Bundle.parse l.content with
    | .ok bundle => some ⟨bundle, l.result.toBool⟩
    | .error _ => none

/-- The candidate of a number became an instance. -/
def Accepted (cs : List Candidate) (k : Nat) : Prop := ∃ c, cs[k]? = some c ∧ c.accepted = true

/-- One instance is the next one after another. -/
def Precedes (cs : List Candidate) (j k : Nat) : Prop :=
  Accepted cs j ∧ j < k ∧ ∀ i, j < i → i < k → ¬ Accepted cs i

/-- No instance came after this one. -/
def Latest (cs : List Candidate) (k : Nat) : Prop := Accepted cs k ∧ ∀ j, k < j → ¬ Accepted cs j

section Candidates

variable {cs : List Candidate} {c : Candidate} {ls : List Load} {l : Load} {bundle : Bundle} {j k : Nat}

theorem candidates_append_ok (h : Bundle.parse l.content = .ok bundle) :
    candidates (ls ++ [l]) = candidates ls ++ [⟨bundle, l.result.toBool⟩] := by
  simp [candidates, List.filterMap_append, h]

theorem candidates_append_error {e : Error} (h : Bundle.parse l.content = .error e) :
    candidates (ls ++ [l]) = candidates ls := by
  simp [candidates, List.filterMap_append, h]

theorem Accepted.lt (h : Accepted cs k) : k < cs.length := by
  obtain ⟨c, hc, -⟩ := h
  exact (List.getElem?_eq_some_iff.1 hc).1

theorem not_accepted (hc : cs[k]? = some c) (ha : c.accepted = false) : ¬ Accepted cs k := by
  rintro ⟨c', hc', ha'⟩
  cases hc.symm.trans hc'
  simp [ha] at ha'

theorem accepted_append :
    Accepted (cs ++ [c]) k ↔ Accepted cs k ∨ k = cs.length ∧ c.accepted = true := by
  unfold Accepted
  rcases Nat.lt_trichotomy k cs.length with hk | rfl | hk
  · rw [List.getElem?_append_left hk]
    simp [Nat.ne_of_lt hk]
  · simp
  · rw [List.getElem?_eq_none (by simp; omega), List.getElem?_eq_none (by omega)]
    simp [Nat.ne_of_gt hk]

/-- Instances up to one are not touched by a candidate that comes later. -/
theorem accepted_append_of_lt (hk : k < cs.length) : Accepted (cs ++ [c]) k ↔ Accepted cs k := by
  rw [accepted_append]
  simp [Nat.ne_of_lt hk]

theorem precedes_append (hk : k ≤ cs.length) : Precedes (cs ++ [c]) j k ↔ Precedes cs j k := by
  have hlt : ∀ i, i < k → (Accepted (cs ++ [c]) i ↔ Accepted cs i) :=
    fun i hi => accepted_append_of_lt (by omega)
  constructor
  · rintro ⟨hj, hjk, hn⟩
    exact ⟨(hlt j hjk).1 hj, hjk, fun i h1 h2 h => hn i h1 h2 ((hlt i h2).2 h)⟩
  · rintro ⟨hj, hjk, hn⟩
    exact ⟨(hlt j hjk).2 hj, hjk, fun i h1 h2 h => hn i h1 h2 ((hlt i h2).1 h)⟩

/-- The latest instance is the one before the next. -/
theorem Latest.precedes (h : Latest cs j) : Precedes cs j cs.length :=
  ⟨h.1, h.1.lt, fun i hi _ => h.2 i hi⟩

/-- Every other instance has a later one. -/
theorem Latest.of_ne (h : Latest cs j) (hk : Accepted cs k) (hne : k ≠ j) :
    ∃ i, k < i ∧ Accepted cs i := by
  refine ⟨j, ?_, h.1⟩
  rcases Nat.lt_trichotomy k j with hlt | heq | hgt
  · exact hlt
  · exact absurd heq hne
  · exact absurd hk (h.2 k hgt)

end Candidates

end FlowHost
