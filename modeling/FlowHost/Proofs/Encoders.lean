import FlowHost.Proofs.Answers

/-!
# Encoders work wholly or not at all

Whatever is written into a guest's memory is written wholly, inside the places that it was given, or nothing is
written. Some encoders write twice; then both places are looked at before the first write, and no write takes room
from another.

* `MemoryM.Settles`: work that is done, in some spans of the memory only, or that leaves the memory alone.
* `MemoryM.encoders_settle`: **every encoder is of this kind**, for all arguments and memories of all sizes.
-/

namespace FlowHost

/-- Some addresses in a row. -/
structure Span where
  start : Nat
  length : Nat

namespace Span

/-- A span lies inside a memory. -/
def Inside (s : Span) (m : Memory) : Prop := s.start + s.length ≤ m.size

/-- An address belongs to a span. -/
def Holds (s : Span) (j : Nat) : Prop := s.start ≤ j ∧ j < s.start + s.length

end Span

/-- The addresses of a region. -/
def Region.span (r : Region) : Span := ⟨r.ptr.toNat, r.len.toNat⟩

/-- A write into a span leaves what is outside of it. -/
theorem Memory.byte_outside (m : Memory) {start length : Nat} {bs : Bytes} (hlength : bs.length ≤ length) {j : Nat}
    (hj : ¬ Span.Holds ⟨start, length⟩ j) : (m.overlay start bs).byte j = m.byte j := by
  rw [byte_overlay]
  refine if_neg fun h => hj ⟨h.1, ?_⟩
  show j < start + length
  omega

namespace MemoryM

variable {α : Type}

/-- **Work that is done wholly or not at all.** Where there is room for it, it succeeds, and nothing outside the
spans changes, the size of the memory included; where there is none, it fails and nothing changes. -/
def Settles (x : MemoryM α) (room : Memory → Prop) (spans : List Span) : Prop :=
  ∀ m, (room m ∧ ∃ a m', x m = .ok a m' ∧ m'.size = m.size ∧
      ∀ j, (∀ s ∈ spans, ¬ s.Holds j) → m'.byte j = m.byte j) ∨
    (¬ room m ∧ ∃ e, x m = .error e m)

theorem encodeScalar_settles (v : Scalar) (ptr : UInt32) (type : ScalarType) :
    Settles (encodeScalar v ptr type) (Span.Inside ⟨ptr.toNat, type.width⟩) [⟨ptr.toNat, type.width⟩] := by
  intro m
  rcases encodeScalar_cases v ptr type m with ⟨hroom, hwrite⟩ | hfail
  · have hlength := v.length_toBytes_cast type
    exact .inl ⟨hroom, _, _, hwrite, rfl, fun j hj => m.byte_outside (Nat.le_of_eq hlength) (hj _ List.mem_cons_self)⟩
  · exact .inr hfail

/-! ### As many octets as fit -/

/-- Octets up to a place in them are written if there is room for these. -/
theorem writeLeading_cases {bs : Bytes} {n : Nat} (hn : n ≤ bs.length) (ptr : UInt32) (m : Memory) :
    (ptr.toNat + n ≤ m.size ∧ writeLeading bs n ptr m =
        .ok ⟨clampWord n, clampWord bs.length⟩ (m.overlay ptr.toNat (bs.take n))) ∨
      (¬ ptr.toNat + n ≤ m.size ∧ ∃ e, writeLeading bs n ptr m = .error e m) := by
  have hlength : (bs.take n).length = n := List.length_take_of_le hn
  have hcases := write_cases ptr (bs.take n) m
  rw [hlength] at hcases
  simp only [writeLeading, bind, EStateM.bind]
  rcases hcases with ⟨hroom, hwrite⟩ | ⟨hroom, e, hwrite⟩
  · exact .inl ⟨hroom, by simp only [hwrite, pure, EStateM.pure]⟩
  · exact .inr ⟨hroom, e, by simp only [hwrite]⟩

theorem writeLeading_settles {bs : Bytes} {n capacity : Nat} (hn : n ≤ bs.length) (hcapacity : n ≤ capacity)
    (ptr : UInt32) :
    Settles (writeLeading bs n ptr) (Span.Inside ⟨ptr.toNat, n⟩) [⟨ptr.toNat, capacity⟩] := by
  intro m
  rcases writeLeading_cases hn ptr m with ⟨hroom, hwrite⟩ | hfail
  · refine .inl ⟨hroom, _, _, hwrite, rfl, fun j hj => m.byte_outside ?_ (hj _ List.mem_cons_self)⟩
    rw [List.length_take]
    omega
  · exact .inr hfail

/-- What is written with its length stays in the capacity and in the place for the length, overlapping or not. -/
theorem writeBoth_settles {bs : Bytes} {n capacity : Nat} (hn : n ≤ bs.length) (hcapacity : n ≤ capacity)
    (ptr slot : UInt32) (type : ScalarType) :
    Settles (writeBoth bs n ptr slot type)
      (fun m => Span.Inside ⟨slot.toNat, type.width⟩ m ∧ Span.Inside ⟨ptr.toNat, n⟩ m)
      [⟨ptr.toNat, capacity⟩, ⟨slot.toNat, type.width⟩] := by
  intro m
  rcases writeBoth_cases hn ptr slot type m with ⟨hroom, e, m', hwrite, hsize, hframe⟩ | hfail
  · refine .inl ⟨hroom, e, m', hwrite, hsize, fun j hj => hframe j (fun h => ?_) (fun h => ?_)⟩
    · refine hj _ List.mem_cons_self ⟨h.1, ?_⟩
      show j < ptr.toNat + capacity
      omega
    · exact hj _ (List.mem_cons_of_mem _ List.mem_cons_self) h
  · exact .inr hfail

/-! ### Arrays -/

variable {items : List Scalar} {type : ScalarType}

/-- Scalars of one type take as many octets each. -/
theorem length_flatMap_cast (items : List Scalar) (type : ScalarType) :
    (items.flatMap fun v => (v.cast type).toBytes).length = items.length * type.width := by
  induction items with
  | nil => simp
  | cons v items ih =>
    rw [List.flatMap_cons, List.length_append, ih, Scalar.length_toBytes_cast, List.length_cons, Nat.succ_mul,
      Nat.add_comm]

/-- The first items are written if there is room for these. -/
theorem encodeArray_cases (items : List Scalar) (ptr : UInt32) (most : Nat) (type : ScalarType) (m : Memory) :
    (ptr.toNat + min items.length most * type.width ≤ m.size ∧ encodeArray items ptr most type m =
        .ok ⟨clampWord (min items.length most), clampWord items.length⟩
          (m.overlay ptr.toNat ((items.take most).flatMap fun v => (v.cast type).toBytes))) ∨
      (¬ ptr.toNat + min items.length most * type.width ≤ m.size ∧
        ∃ e, encodeArray items ptr most type m = .error e m) := by
  have hcases := write_cases ptr ((items.take most).flatMap fun v => (v.cast type).toBytes) m
  rw [length_flatMap_cast, List.length_take, Nat.min_comm] at hcases
  simp only [encodeArray, bind, EStateM.bind]
  rcases hcases with ⟨hroom, hwrite⟩ | ⟨hroom, e, hwrite⟩
  · refine .inl ⟨hroom, ?_⟩
    simp only [hwrite, pure, EStateM.pure, List.length_take, Nat.min_comm]
  · exact .inr ⟨hroom, e, by simp only [hwrite]⟩

theorem encodeArray_settles (items : List Scalar) (ptr : UInt32) (most : Nat) (type : ScalarType) :
    Settles (encodeArray items ptr most type)
      (Span.Inside ⟨ptr.toNat, min items.length most * type.width⟩) [⟨ptr.toNat, most * type.width⟩] := by
  intro m
  rcases encodeArray_cases items ptr most type m with ⟨hroom, hwrite⟩ | hfail
  · refine .inl ⟨hroom, _, _, hwrite, rfl, fun j hj => m.byte_outside ?_ (hj _ List.mem_cons_self)⟩
    rw [length_flatMap_cast, List.length_take]
    exact Nat.mul_le_mul_right _ (Nat.min_le_left _ _)
  · exact .inr hfail

end MemoryM

/-! ### Messages -/

/-- **Two texts are put into two regions, or none is**: both regions are looked at first, and a text that is cut to
its region finds room in it. -/
theorem MessageBuffers.write_settles (b : MessageBuffers) (topic payload : String) :
    MemoryM.Settles (b.write topic payload) (fun m => b.topic.span.Inside m ∧ b.payload.span.Inside m)
      [b.topic.span, b.payload.span] := by
  intro m
  simp only [write, bind, EStateM.bind]
  rcases MemoryM.check_cases b.topic.ptr b.topic.len.toNat m with ⟨ht, hct⟩ | ⟨ht, e, hct⟩
  · rcases MemoryM.check_cases b.payload.ptr b.payload.len.toNat m with ⟨hp, hcp⟩ | ⟨hp, e, hcp⟩
    · set head := Utf8.encodeChars (Utf8.fitted topic.toList b.topic.len.toNat) with hhead
      set tail := Utf8.encodeChars (Utf8.fitted payload.toList b.payload.len.toNat) with htail
      obtain ⟨one, hone, -⟩ := MemoryM.encodeText_ok topic (r := b.topic) ht
      have hp' : b.payload.Inside (m.overlay b.topic.ptr.toNat head) := hp
      obtain ⟨two, htwo, -⟩ := MemoryM.encodeText_ok payload hp'
      refine .inl ⟨⟨ht, hp⟩, (one, two),
        (m.overlay b.topic.ptr.toNat head).overlay b.payload.ptr.toNat tail, ?_, rfl, fun j hj => ?_⟩
      · simp only [hct, hcp, hone, htwo, pure, EStateM.pure, ← hhead, ← htail]
      · rw [Memory.byte_outside _ (Utf8.cut_fitted payload _).fits (hj _ (List.mem_cons_of_mem _ List.mem_cons_self)),
          Memory.byte_outside _ (Utf8.cut_fitted topic _).fits (hj _ List.mem_cons_self)]
    · exact .inr ⟨fun h => hp h.2, e, by simp only [hct, hcp]⟩
  · exact .inr ⟨fun h => ht h.1, e, by simp only [hct]⟩

namespace MemoryM

/-- **Every encoder works wholly or not at all**, whatever it is given and however great the memory is: scalars,
octets and texts with and without their length, arrays, and messages. -/
theorem encoders_settle :
    (∀ v ptr type,
        Settles (encodeScalar v ptr type) (Span.Inside ⟨ptr.toNat, type.width⟩) [⟨ptr.toNat, type.width⟩]) ∧
      (∀ bs ptr capacity,
        Settles (encodeBytes bs ptr capacity) (Span.Inside ⟨ptr.toNat, min bs.length capacity⟩)
          [⟨ptr.toNat, capacity⟩]) ∧
      (∀ text ptr capacity,
        Settles (encodeText text ptr capacity) (Span.Inside ⟨ptr.toNat, Utf8.fitting text.toList capacity⟩)
          [⟨ptr.toNat, capacity⟩]) ∧
      (∀ text ptr capacity slot type,
        Settles (encodeTextAndLength text ptr capacity slot type)
          (fun m => Span.Inside ⟨slot.toNat, type.width⟩ m ∧
            Span.Inside ⟨ptr.toNat, Utf8.fitting text.toList capacity⟩ m)
          [⟨ptr.toNat, capacity⟩, ⟨slot.toNat, type.width⟩]) ∧
      (∀ bs ptr capacity slot type,
        Settles (encodeBytesAndLength bs ptr capacity slot type)
          (fun m => Span.Inside ⟨slot.toNat, type.width⟩ m ∧ Span.Inside ⟨ptr.toNat, min bs.length capacity⟩ m)
          [⟨ptr.toNat, capacity⟩, ⟨slot.toNat, type.width⟩]) ∧
      (∀ items ptr most type,
        Settles (encodeArray items ptr most type)
          (Span.Inside ⟨ptr.toNat, min items.length most * type.width⟩) [⟨ptr.toNat, most * type.width⟩]) ∧
      ∀ (b : MessageBuffers) (topic payload : String),
        Settles (b.write topic payload) (fun m => b.topic.span.Inside m ∧ b.payload.span.Inside m)
          [b.topic.span, b.payload.span] := by
  have hbytes (bs : Bytes) (capacity : Nat) : min bs.length capacity ≤ bs.length := Nat.min_le_left _ _
  have htext (text : String) (capacity : Nat) :
      Utf8.fitting text.toList capacity ≤ (Utf8.encode text).length := Utf8.fitting_le_length _ _
  refine ⟨encodeScalar_settles, fun bs ptr capacity => ?_, fun text ptr capacity => ?_,
    fun text ptr capacity slot type => ?_, fun bs ptr capacity slot type => ?_, encodeArray_settles,
    MessageBuffers.write_settles⟩
  · exact writeLeading_settles (hbytes bs capacity) (Nat.min_le_right _ _) ptr
  · exact writeLeading_settles (htext text capacity) (Utf8.fitting_le _ _) ptr
  · exact writeBoth_settles (htext text capacity) (Utf8.fitting_le _ _) ptr slot type
  · exact writeBoth_settles (hbytes bs capacity) (Nat.min_le_right _ _) ptr slot type

end MemoryM

end FlowHost
