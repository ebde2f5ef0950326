import FlowHost.Agent
import Mathlib.Data.List.Basic

/-!
# What a history tells

The history of a host is a list of occurrences. These readings of it go piece by piece: what
a longer history tells is what its pieces tell, one after the other.

* `History.calls`: the calls of exports that came to their end, with what they returned.
* `History.callsOf`: those of one instance.
* `History.requests`, `History.lastBlob`, `History.lastBundle`: what was queued, and what was
  saved last.
* `History.Orderly`: **no export is entered while another one runs.**
* `History.IsCall`: one call of an export with all that happened meanwhile.
-/

namespace FlowHost

/-- A call of an export that came to its end: whose it is, and the word that it returned; none
is a trap. -/
structure Call where
  instanceId : Nat
  function : String
  result : Option UInt32
  deriving DecidableEq, Repr

/-- An end of a call: it begins or it is over. -/
inductive Mark where
  | opening (instanceId : Nat) (function : String)
  | closing (instanceId : Nat) (function : String)
  deriving DecidableEq, Repr

/-- The two ends of a call. -/
def Call.marks (c : Call) : List Mark :=
  [.opening c.instanceId c.function, .closing c.instanceId c.function]

namespace Occurrence

/-- The call that an occurrence ends. -/
def call? : Occurrence → Option Call
  | left k f r => some ⟨k, f, r⟩
  | _ => none

/-- The end of a call that an occurrence is. -/
def mark? : Occurrence → Option Mark
  | entered k f _ _ => some (.opening k f)
  | left k f _ => some (.closing k f)
  | _ => none

/-- The request that an occurrence queues. -/
def request? : Occurrence → Option Outbound
  | queued _ r => some r
  | _ => none

/-- The blob that an occurrence saves. -/
def blob? : Occurrence → Option Bytes
  | saved _ b => some b
  | _ => none

/-- The bundle that an occurrence saves. -/
def bundle? : Occurrence → Option Bytes
  | persisted b => some b
  | _ => none

/-- The instance on whose behalf something happens; none is the agent itself. -/
def owner? : Occurrence → Option Nat
  | entered k _ _ _ | left k _ _ | saved k _ => some k
  | queued sender _ => sender
  | persisted _ => none

/-- What the imports of an instance can do: queue a message and save a blob. -/
def IsWork (k : Nat) : Occurrence → Prop
  | queued sender _ => sender = some k
  | saved j _ => j = k
  | _ => False

end Occurrence

namespace History

/-- The calls of exports, oldest first. -/
def calls (es : List Occurrence) : List Call := es.filterMap Occurrence.call?

/-- The calls of one instance's exports, with what they returned. -/
def callsOf (k : Nat) (es : List Occurrence) : List (String × Option UInt32) :=
  ((calls es).filter (·.instanceId = k)).map fun c => (c.function, c.result)

/-- The ends of calls, oldest first. -/
def marks (es : List Occurrence) : List Mark := es.filterMap Occurrence.mark?

/-- The requests that were queued. -/
def requests (es : List Occurrence) : List Outbound := es.filterMap Occurrence.request?

/-- The blob that was saved last, if any was. -/
def lastBlob (es : List Occurrence) : Option Bytes := (es.filterMap Occurrence.blob?).getLast?

/-- The bundle that was saved last, if any was. -/
def lastBundle (es : List Occurrence) : Option Bytes :=
  (es.filterMap Occurrence.bundle?).getLast?

/-- **No export is entered while another one runs**: each call is over before the next begins. -/
def Orderly (es : List Occurrence) : Prop := marks es = (calls es).flatMap Call.marks

/-- All of it happens on behalf of one instance. -/
def OwnedBy (k : Nat) (es : List Occurrence) : Prop := ∀ e ∈ es, e.owner? = some k

variable {es es' : List Occurrence} {k : Nat} {f : String} {r : Option UInt32}

@[simp] theorem calls_nil : calls [] = [] := rfl

@[simp] theorem calls_append : calls (es ++ es') = calls es ++ calls es' := List.filterMap_append

@[simp] theorem callsOf_nil : callsOf k [] = [] := rfl

@[simp] theorem callsOf_append : callsOf k (es ++ es') = callsOf k es ++ callsOf k es' := by
  simp [callsOf]

@[simp] theorem marks_append : marks (es ++ es') = marks es ++ marks es' := List.filterMap_append

@[simp] theorem calls_entered (arguments : List Value) (memory : Memory) :
    calls (.entered k f arguments memory :: es) = calls es := rfl

@[simp] theorem calls_left : calls [.left k f r] = [⟨k, f, r⟩] := rfl

@[simp] theorem marks_entered (arguments : List Value) (memory : Memory) :
    marks (.entered k f arguments memory :: es) = .opening k f :: marks es := rfl

@[simp] theorem marks_left : marks [.left k f r] = [.closing k f] := rfl

@[simp] theorem requests_nil : requests [] = [] := rfl

@[simp] theorem requests_append : requests (es ++ es') = requests es ++ requests es' :=
  List.filterMap_append

@[simp] theorem lastBlob_nil : lastBlob [] = none := rfl

@[simp] theorem lastBlob_append : lastBlob (es ++ es') = (lastBlob es').or (lastBlob es) := by
  simp [lastBlob, List.filterMap_append, List.getLast?_append]

@[simp] theorem lastBundle_nil : lastBundle [] = none := rfl

@[simp] theorem lastBundle_append :
    lastBundle (es ++ es') = (lastBundle es').or (lastBundle es) := by
  simp [lastBundle, List.filterMap_append, List.getLast?_append]

theorem Orderly.nil : Orderly [] := rfl

theorem Orderly.append (h : Orderly es) (h' : Orderly es') : Orderly (es ++ es') := by
  unfold Orderly at *
  rw [marks_append, calls_append, List.flatMap_append, h, h']

theorem OwnedBy.nil : OwnedBy k [] := fun _ h => nomatch h

theorem OwnedBy.append (h : OwnedBy k es) (h' : OwnedBy k es') : OwnedBy k (es ++ es') := by
  intro e he
  rcases List.mem_append.1 he with he | he
  · exact h e he
  · exact h' e he

/-- All calls are those of the instance on whose behalf everything happens. -/
theorem calls_ownedBy (h : OwnedBy k es) : ∀ c ∈ calls es, c.instanceId = k := by
  intro c hc
  obtain ⟨e, he, hec⟩ := List.mem_filterMap.1 hc
  have ho := h e he
  cases e <;> simp_all [Occurrence.call?, Occurrence.owner?]
  subst hec
  rfl

/-- What happens on behalf of others holds no call of an instance. -/
theorem callsOf_eq_nil {j : Nat} (h : OwnedBy j es) (hjk : j ≠ k) : callsOf k es = [] := by
  simp only [callsOf, List.map_eq_nil_iff, List.filter_eq_nil_iff, decide_eq_true_eq]
  intro c hc
  rw [calls_ownedBy h c hc]
  exact hjk

/-- Nothing that happens on behalf of an instance saves a bundle. -/
theorem lastBundle_ownedBy (h : OwnedBy k es) : lastBundle es = none := by
  simp only [lastBundle, List.getLast?_eq_none_iff, List.filterMap_eq_nil_iff]
  intro e he
  have ho := h e he
  cases e <;> simp_all [Occurrence.bundle?, Occurrence.owner?]

/-- What imports do, as a list. -/
def IsWork (k : Nat) (es : List Occurrence) : Prop := ∀ e ∈ es, e.IsWork k

theorem IsWork.nil : IsWork k [] := fun _ h => nomatch h

theorem IsWork.queued (request : Outbound) : IsWork k [.queued (some k) request] := by
  intro e he
  rw [List.mem_singleton.1 he]
  rfl

theorem IsWork.saved (content : Bytes) : IsWork k [.saved k content] := by
  intro e he
  rw [List.mem_singleton.1 he]
  rfl

theorem IsWork.append (h : IsWork k es) (h' : IsWork k es') : IsWork k (es ++ es') := by
  intro e he
  rcases List.mem_append.1 he with he | he
  · exact h e he
  · exact h' e he

theorem IsWork.ownedBy (h : IsWork k es) : OwnedBy k es := by
  intro e he
  have hw := h e he
  cases e <;> simp_all [Occurrence.IsWork, Occurrence.owner?]

theorem IsWork.calls_eq_nil (h : IsWork k es) : calls es = [] := by
  simp only [calls, List.filterMap_eq_nil_iff]
  intro e he
  have hw := h e he
  cases e <;> simp_all [Occurrence.IsWork, Occurrence.call?]

theorem IsWork.marks_eq_nil (h : IsWork k es) : marks es = [] := by
  simp only [marks, List.filterMap_eq_nil_iff]
  intro e he
  have hw := h e he
  cases e <;> simp_all [Occurrence.IsWork, Occurrence.mark?]

theorem IsWork.orderly (h : IsWork k es) : Orderly es := by
  rw [Orderly, h.marks_eq_nil, h.calls_eq_nil, List.flatMap_nil]

/-- **One call of an export**: it is entered, its imports do their work, and it ends. -/
def IsCall (k : Nat) (f : String) (r : Option UInt32) (es : List Occurrence) : Prop :=
  ∃ arguments memory work, IsWork k work ∧
    es = .entered k f arguments memory :: (work ++ [.left k f r])

theorem IsCall.calls_eq (h : IsCall k f r es) : calls es = [⟨k, f, r⟩] := by
  obtain ⟨_, _, work, hw, rfl⟩ := h
  simp [hw.calls_eq_nil]

theorem IsCall.callsOf_eq (h : IsCall k f r es) : callsOf k es = [(f, r)] := by
  simp [callsOf, h.calls_eq]

theorem IsCall.ownedBy (h : IsCall k f r es) : OwnedBy k es := by
  obtain ⟨_, _, work, hw, rfl⟩ := h
  intro e he
  simp only [List.mem_cons, List.mem_append, List.not_mem_nil, or_false] at he
  rcases he with rfl | he | rfl
  · rfl
  · exact hw.ownedBy e he
  · rfl

theorem IsCall.orderly (h : IsCall k f r es) : Orderly es := by
  have hc := h.calls_eq
  obtain ⟨_, _, work, hw, rfl⟩ := h
  rw [Orderly, hc]
  simp [hw.marks_eq_nil, Call.marks]

end History

end FlowHost
