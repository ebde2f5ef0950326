import FlowHost.Proofs.Boundaries
import FlowHost.Proofs.Encoders

/-!
# Texts in a guest's memory

A text is written up to its greatest boundary within the capacity, if these octets have room: it is the octets that
are written that have to fit, and not the capacity. What was written reads back as the text up to there, and a text
that was read can be written back without a trace.

* `MemoryM.decodeText_eq_ok_iff`: when a text is read.
* `MemoryM.encodeText_cuts`: **what is written of a text**, and what is read of it then.
-/

namespace FlowHost.MemoryM

variable {m m' : Memory} {ptr : UInt32} {text : String}

/-- **A text is read from the octets that are its own**, and they stay as they are. -/
theorem decodeText_eq_ok_iff {len : Nat} : decodeText ptr len m = .ok text m' ↔
    m' = m ∧ ptr.toNat + len ≤ m.size ∧ m.bytesAt ptr.toNat len = Utf8.encode text := by
  rcases decodeText_cases ptr len m with ⟨found, hfound, hread⟩ | ⟨hnone, e, hread⟩
  · rw [hread]
    constructor
    · intro h
      cases h
      exact ⟨rfl, hfound⟩
    · rintro ⟨rfl, -, htext⟩
      rw [Utf8.encode_injective (hfound.2.symm.trans htext)]
  · rw [hread]
    refine iff_of_false ?_ fun h => hnone ⟨text, h.2⟩
    intro h
    cases h

/-- **A text written up to a place in it.** Its octets before the place are at the address, and the memory is as it
was elsewhere; the report tells how many there are and how many there would be; and they read back as a text, with
which the other one begins. -/
structure WritesUpTo (n : Nat) (text : String) (ptr : UInt32) (m : Memory) (report : Encoded) (m' : Memory) :
    Prop where
  memory : m' = m.overlay ptr.toNat ((Utf8.encode text).take n)
  written : report.written = n
  required : (Utf8.encode text).length < UInt32.size → report.required = (Utf8.encode text).length
  readsBack : ∃ leading : String, leading.toList <+: text.toList ∧
    Utf8.encode leading = (Utf8.encode text).take n ∧ decodeText ptr n m' = .ok leading m'

/-- What is written of a text reads back. -/
theorem writesUpTo_overlay (text : String) (capacity : UInt32)
    (hroom : ptr.toNat + Utf8.fitting text.toList capacity.toNat ≤ m.size) :
    WritesUpTo (Utf8.fitting text.toList capacity.toNat) text ptr m
      ⟨clampWord (Utf8.fitting text.toList capacity.toNat), clampWord (Utf8.encode text).length⟩
      (m.overlay ptr.toNat ((Utf8.encode text).take (Utf8.fitting text.toList capacity.toNat))) := by
  have hword : Utf8.fitting text.toList capacity.toNat < UInt32.size :=
    Nat.lt_of_le_of_lt (Utf8.fitting_le _ _) capacity.toNat_lt
  have htake := Utf8.take_fitting text capacity.toNat
  have hlength : ((Utf8.encode text).take (Utf8.fitting text.toList capacity.toNat)).length =
      Utf8.fitting text.toList capacity.toNat := by rw [htake, Utf8.length_encodeChars_fitted]
  have hleading : Utf8.encode (String.ofList (Utf8.fitted text.toList capacity.toNat)) =
      (Utf8.encode text).take (Utf8.fitting text.toList capacity.toNat) := by
    rw [Utf8.encode, String.toList_ofList, htake]
  refine ⟨rfl, clampWord_eq hword, clampWord_eq, _, ?_, hleading, ?_⟩
  · rw [String.toList_ofList]
    exact Utf8.fitted_leading _ _
  · exact decodeText_eq_ok_iff.2 ⟨rfl, hroom, (m.bytesAt_overlay_length hlength).trans hleading.symm⟩

/-- **A text that was read is written back without a trace**, where there is capacity for it. -/
theorem encodeText_of_decodeText {len capacity : Nat} (h : decodeText ptr len m = .ok text m')
    (hlen : len < UInt32.size) (hcapacity : len ≤ capacity) : encodeText text ptr capacity m = .ok ⟨len, len⟩ m := by
  obtain ⟨-, hin, hbytes⟩ := decodeText_eq_ok_iff.1 h
  have hlength : (Utf8.encode text).length = len := by rw [← hbytes, Memory.length_bytesAt]
  have hfits : Utf8.fitting text.toList capacity = len := by
    rw [Utf8.fitting_of_length_le (hlength.trans_le hcapacity)]
    exact hlength
  have hsame : m.overlay ptr.toNat ((Utf8.encode text).take len) = m := by
    rw [← hlength, List.take_length, ← hbytes]
    exact m.overlay_bytesAt ptr.toNat len
  rw [encodeText, hfits]
  rcases writeLeading_cases hlength.ge ptr m with ⟨-, hwrite⟩ | ⟨hout, -⟩
  · rw [hwrite, hsame, hlength, clampWord_eq hlen]
  · exact absurd hin hout

/-- **What is written of a text**: what comes before its greatest boundary within the capacity. It is written exactly
if it has room, loses at most three octets of the capacity if it is not the whole text, and reads back. A text that
was read is written back without a trace. -/
theorem encodeText_cuts (text : String) (ptr capacity : UInt32) (m : Memory) :
    (∃ n, IsGreatest {k | Utf8.isBoundary (Utf8.encode text) k = true ∧
          k ≤ min (Utf8.encode text).length capacity.toNat} n ∧
        (n < (Utf8.encode text).length → capacity.toNat ≤ n + 3) ∧
        ((ptr.toNat + n ≤ m.size ∧ ∃ report m', encodeText text ptr capacity.toNat m = .ok report m' ∧
            WritesUpTo n text ptr m report m') ∨
          (¬ ptr.toNat + n ≤ m.size ∧ ∃ e, encodeText text ptr capacity.toNat m = .error e m))) ∧
      ∀ (len : UInt32) (found : String) (m' : Memory), decodeText ptr len.toNat m = .ok found m' →
        len.toNat ≤ capacity.toNat →
          m' = m ∧ encodeText found ptr capacity.toNat m = .ok ⟨len.toNat, len.toNat⟩ m := by
  constructor
  · refine ⟨_, Utf8.fitting_greatest text capacity.toNat, fun h => ?_, ?_⟩
    · have hloss := Utf8.capacity_lt_fitting h
      omega
    · have hn : Utf8.fitting text.toList capacity.toNat ≤ (Utf8.encode text).length := Utf8.fitting_le_length _ _
      rcases writeLeading_cases hn ptr m with ⟨hroom, hwrite⟩ | ⟨hroom, e, hwrite⟩
      · exact .inl ⟨hroom, _, _, hwrite, writesUpTo_overlay text capacity hroom⟩
      · exact .inr ⟨hroom, e, hwrite⟩
  · intro len found m' h hle
    exact ⟨(decodeText_eq_ok_iff.1 h).1, encodeText_of_decodeText h len.toNat_lt hle⟩

/-- A capacity that ends inside a character leaves it out, and two letters that were read are written back. -/
theorem encodeText_cuts_accent :
    let m := Memory.filled 4 98
    (∃ report m', encodeText "aé" 0 2 m = .ok report m' ∧ WritesUpTo 1 "aé" 0 m report m') ∧
      decodeText 0 2 m = .ok "bb" m ∧ encodeText "bb" 0 2 m = .ok ⟨2, 2⟩ m := by
  intro m
  obtain ⟨⟨n, hgreatest, -, hwrite⟩, -⟩ := encodeText_cuts "aé" 0 2 m
  obtain ⟨-, hback⟩ := encodeText_cuts "bb" 0 2 m
  have hone : Utf8.fitting "aé".toList (2 : UInt32).toNat = 1 := by decide
  obtain rfl : n = 1 := (hgreatest.unique (Utf8.fitting_greatest "aé" (2 : UInt32).toNat)).trans hone
  have hread : decodeText 0 2 m = .ok "bb" m := decodeText_eq_ok_iff.2 ⟨rfl, by decide, by decide⟩
  rcases hwrite with ⟨-, hwritten⟩ | ⟨hout, -⟩
  · exact ⟨hwritten, hread, (hback 2 "bb" m hread (Nat.le_refl _)).2⟩
  · exact absurd (by decide) hout

end FlowHost.MemoryM
