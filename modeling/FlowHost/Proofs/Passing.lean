import FlowHost.Instance
import FlowHost.Proofs.Reading

/-!
# How texts are passed to a guest

A guest announces one region for the first text and one for the payload. What does not fit is cut between
two characters, and the guest is called with the numbers of octets that are there.

* `Utf8.Cut`: the longest run of leading characters that fits a capacity.
* `MessageBuffers.write_ok`: **regions that lie inside the memory take both texts**, each cut to its
  region; the payload is written last.
-/

namespace FlowHost

namespace Utf8

/-- **The longest run of leading characters whose octets fit a capacity.** -/
structure Cut (text : String) (capacity : Nat) (chars : List Char) : Prop where
  leading : chars <+: text.toList
  fits : (encodeChars chars).length ≤ capacity
  longest : ∀ more, more <+: text.toList → (encodeChars more).length ≤ capacity → more <+: chars

/-- The leading characters that fit a capacity. -/
def fitted : List Char → Nat → List Char
  | [], _ => []
  | c :: cs, capacity => if width c ≤ capacity then c :: fitted cs (capacity - width c) else []

variable {cs : List Char} {capacity : Nat}

theorem length_encodeChars_cons (c : Char) (cs : List Char) :
    (encodeChars (c :: cs)).length = width c + (encodeChars cs).length := by
  simp [encodeChars, length_encodeChar]

theorem length_encodeChars_fitted (cs : List Char) (capacity : Nat) :
    (encodeChars (fitted cs capacity)).length = fitting cs capacity := by
  induction cs generalizing capacity with
  | nil => rfl
  | cons c cs ih =>
    unfold fitted fitting
    by_cases hw : width c ≤ capacity
    · rw [if_pos hw, if_pos hw, length_encodeChars_cons, ih]
    · rw [if_neg hw, if_neg hw]
      rfl

theorem fitting_le (cs : List Char) (capacity : Nat) : fitting cs capacity ≤ capacity := by
  induction cs generalizing capacity with
  | nil => exact Nat.zero_le _
  | cons c cs ih =>
    unfold fitting
    by_cases hw : width c ≤ capacity
    · rw [if_pos hw]
      have := ih (capacity - width c)
      omega
    · rw [if_neg hw]
      exact Nat.zero_le _

theorem fitted_leading (cs : List Char) (capacity : Nat) : fitted cs capacity <+: cs := by
  induction cs generalizing capacity with
  | nil => exact List.prefix_rfl
  | cons c cs ih =>
    unfold fitted
    by_cases hw : width c ≤ capacity
    · rw [if_pos hw]
      exact (List.prefix_cons_inj c).2 (ih _)
    · rw [if_neg hw]
      exact List.nil_prefix

theorem length_encodeChars_le {chars : List Char} (h : chars <+: cs) :
    (encodeChars chars).length ≤ (encodeChars cs).length := by
  obtain ⟨rest, rfl⟩ := h
  rw [encodeChars, encodeChars, List.flatMap_append, List.length_append]
  exact Nat.le_add_right _ _

theorem fitting_le_length (cs : List Char) (capacity : Nat) : fitting cs capacity ≤ (encodeChars cs).length := by
  rw [← length_encodeChars_fitted]
  exact length_encodeChars_le (fitted_leading cs capacity)

theorem fitted_longest {more : List Char} (h : more <+: cs) (hm : (encodeChars more).length ≤ capacity) :
    more <+: fitted cs capacity := by
  induction cs generalizing capacity more with
  | nil => exact h
  | cons c cs ih =>
    cases more with
    | nil => exact List.nil_prefix
    | cons d more =>
      obtain ⟨rfl, hrest⟩ := List.cons_prefix_cons.1 h
      rw [length_encodeChars_cons] at hm
      unfold fitted
      rw [if_pos (by omega)]
      exact (List.prefix_cons_inj d).2 (ih hrest (by omega))

/-- A text cut to a capacity. -/
theorem cut_fitted (text : String) (capacity : Nat) : Cut text capacity (fitted text.toList capacity) := by
  refine ⟨fitted_leading _ _, ?_, fun more h hm => fitted_longest h hm⟩
  rw [length_encodeChars_fitted]
  exact fitting_le _ _

/-- The first octets that fit are those of the leading characters that fit. -/
theorem take_fitting (text : String) (capacity : Nat) :
    (encode text).take (fitting text.toList capacity) = encodeChars (fitted text.toList capacity) := by
  obtain ⟨rest, hrest⟩ := fitted_leading text.toList capacity
  have henc : encode text = encodeChars (fitted text.toList capacity) ++ encodeChars rest := by
    unfold encode
    conv_lhs => rw [← hrest]
    exact List.flatMap_append
  rw [henc, ← length_encodeChars_fitted]
  exact List.take_left' rfl

end Utf8

namespace Region

/-- A range lies inside a memory. -/
def Inside (r : Region) (m : Memory) : Prop := r.ptr.toNat + r.len.toNat ≤ m.size

/-- An address belongs to a range. -/
def Holds (r : Region) (j : Nat) : Prop := r.ptr.toNat ≤ j ∧ j < r.ptr.toNat + r.len.toNat

/-- **Two ranges do not overlap.** -/
def Apart (r r' : Region) : Prop := ∀ j, ¬ (r.Holds j ∧ r'.Holds j)

end Region

/-- Both regions lie inside a memory. -/
def MessageBuffers.Inside (b : MessageBuffers) (m : Memory) : Prop :=
  b.topic.Inside m ∧ b.payload.Inside m

namespace MemoryM

/-- A range that lies inside passes the check. -/
theorem check_ok {r : Region} {m : Memory} (h : r.Inside m) : check r.ptr r.len.toNat m = .ok () m := by
  rcases check_cases r.ptr r.len.toNat m with ⟨-, hcheck⟩ | ⟨hout, -⟩
  · exact hcheck
  · exact absurd h hout

/-- **A text that is written into a region** is cut to it. -/
theorem encodeText_ok (text : String) {r : Region} {m : Memory} (h : r.Inside m) :
    ∃ e, encodeText text r.ptr r.len.toNat m =
        .ok e (m.overlay r.ptr.toNat (Utf8.encodeChars (Utf8.fitted text.toList r.len.toNat))) ∧
      e.written = Utf8.fitting text.toList r.len.toNat := by
  have hle := Utf8.fitting_le text.toList r.len.toNat
  have hlen := Utf8.length_encodeChars_fitted text.toList r.len.toNat
  have hclamp : clampWord (Utf8.fitting text.toList r.len.toNat) =
      Utf8.fitting text.toList r.len.toNat := clampWord_eq (Nat.lt_of_le_of_lt hle r.len.toNat_lt)
  refine ⟨⟨clampWord (Utf8.fitting text.toList r.len.toNat), clampWord (Utf8.encode text).length⟩, ?_,
    hclamp⟩
  rcases write_cases r.ptr (Utf8.encodeChars (Utf8.fitted text.toList r.len.toNat)) m with ⟨-, hwrite⟩ | ⟨hout, -⟩
  · simp only [encodeText, writeLeading, bind, EStateM.bind, Utf8.take_fitting, hwrite, pure, EStateM.pure]
  · rw [hlen] at hout
    exact absurd (Nat.le_trans (Nat.add_le_add_left hle _) h) hout

end MemoryM

/-- **A memory in which two texts are passed**: each is cut to its region, and the words are the numbers
of octets that are there. Where the regions overlap, the payload has the last word. -/
structure MessageBuffers.Carries (b : MessageBuffers) (first payload : String) (one two : UInt32)
    (m : Memory) : Prop where
  payload : ∃ chars, Utf8.Cut payload b.payload.len.toNat chars ∧
    two.toNat = (Utf8.encodeChars chars).length ∧
    m.bytesAt b.payload.ptr.toNat two.toNat = Utf8.encodeChars chars
  first : ∃ chars, Utf8.Cut first b.topic.len.toNat chars ∧
    one.toNat = (Utf8.encodeChars chars).length ∧
    (b.topic.Apart b.payload → m.bytesAt b.topic.ptr.toNat one.toNat = Utf8.encodeChars chars)

/-- **Regions that lie inside the memory take both texts.** -/
theorem MessageBuffers.write_ok {b : MessageBuffers} {m : Memory} (h : b.Inside m) (first payload : String) :
    ∃ one two m', b.write first payload m = .ok (one, two) m' ∧ m'.size = m.size ∧
      b.Carries first payload (UInt32.ofNat one.written) (UInt32.ofNat two.written) m' := by
  have htopic : b.topic.Inside m := h.1
  have hpayload : b.payload.Inside m := h.2
  set head := Utf8.encodeChars (Utf8.fitted first.toList b.topic.len.toNat) with hhead
  set tail := Utf8.encodeChars (Utf8.fitted payload.toList b.payload.len.toNat) with htail
  obtain ⟨one, h1, hone⟩ := MemoryM.encodeText_ok first htopic
  have hpayload' : b.payload.Inside (m.overlay b.topic.ptr.toNat head) := hpayload
  obtain ⟨two, h2, htwo⟩ := MemoryM.encodeText_ok payload hpayload'
  rw [← hhead] at h1
  rw [← htail] at h2
  have hheadlen : head.length = one.written := by rw [hone, hhead, Utf8.length_encodeChars_fitted]
  have htaillen : tail.length = two.written := by rw [htwo, htail, Utf8.length_encodeChars_fitted]
  have hheadle : head.length ≤ b.topic.len.toNat := (Utf8.cut_fitted first _).fits
  have htaille : tail.length ≤ b.payload.len.toNat := (Utf8.cut_fitted payload _).fits
  -- both numbers are words, since no region is longer than a word says
  have hw1 : (UInt32.ofNat one.written).toNat = head.length := by
    rw [hheadlen]
    exact UInt32.toNat_ofNat_of_lt' (hheadlen ▸ Nat.lt_of_le_of_lt hheadle b.topic.len.toNat_lt)
  have hw2 : (UInt32.ofNat two.written).toNat = tail.length := by
    rw [htaillen]
    exact UInt32.toNat_ofNat_of_lt' (htaillen ▸ Nat.lt_of_le_of_lt htaille b.payload.len.toNat_lt)
  refine ⟨one, two, (m.overlay b.topic.ptr.toNat head).overlay b.payload.ptr.toNat tail, ?_, rfl,
    ⟨_, Utf8.cut_fitted payload _, hw2, ?_⟩, _, Utf8.cut_fitted first _, hw1, fun hapart => ?_⟩
  · simp only [write, bind, EStateM.bind, MemoryM.check_ok htopic, MemoryM.check_ok hpayload, h1, h2, pure,
      EStateM.pure]
  · rw [hw2]
    exact Memory.bytesAt_overlay _ _ _
  · rw [hw1, Memory.bytesAt_overlay_apart]
    · exact Memory.bytesAt_overlay _ _ _
    · -- an address of both texts is one of both regions
      rintro j hj hj' ⟨hp, hp'⟩
      exact hapart j ⟨⟨hj, by omega⟩, hp, by omega⟩

end FlowHost
