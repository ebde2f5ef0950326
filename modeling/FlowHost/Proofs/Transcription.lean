import FlowHost.Native.Stock
import FlowHost.Proofs.Invocation
import FlowHost.Proofs.Lengths
import FlowHost.Proofs.Sextets

/-!
# Transcription to base 64

A guest has a range of its memory transcribed to base 64. The text is that of the octets as they were before the call.
As much of it as the capacity allows is put at the output, and then the number of characters in a slot of its own,
wherever these lie; or else nothing is done.

* `Utf8.fitting_ascii`: a text of one octet a character is cut at the capacity.
* `Handler.base64Encode_cases`: what the handler does.
* `Transcription.call_transcribes`: **what a call does**, for any five words.
-/

namespace FlowHost

/-! ### Texts of one octet a character -/

namespace Utf8

/-- The octets of characters that take one each. -/
def ascii (cs : List Char) : Bytes := cs.map fun c => UInt8.ofNat c.toNat

variable {cs : List Char}

theorem encodeChars_ascii (h : ∀ c ∈ cs, c.toNat < 128) : encodeChars cs = ascii cs := by
  induction cs with
  | nil => rfl
  | cons c cs ih =>
    have hc : encodeChar c = [UInt8.ofNat c.toNat] := if_pos (h c List.mem_cons_self)
    have hcs := ih fun d hd => h d (List.mem_cons_of_mem c hd)
    rw [encodeChars, List.flatMap_cons, ← encodeChars, hc, hcs]
    rfl

/-- **A text of one octet a character is cut at the capacity.** -/
theorem fitting_ascii (h : ∀ c ∈ cs, c.toNat < 128) (capacity : Nat) :
    fitting cs capacity = min capacity cs.length := by
  induction cs generalizing capacity with
  | nil => exact (Nat.min_zero capacity).symm
  | cons c cs ih =>
    have hc : width c = 1 := if_pos (h c List.mem_cons_self)
    rw [fitting, hc, List.length_cons]
    by_cases hroom : 1 ≤ capacity
    · rw [if_pos hroom, ih fun d hd => h d (List.mem_cons_of_mem c hd)]
      omega
    · rw [if_neg hroom]
      omega

end Utf8

/-! ### Words as arguments -/

/-- A word is taken for the address or the number that its bits are. -/
theorem Scalar.toUInt32_asU64 (v : Int32) : (Scalar.i32 v).asU64.toUInt32 = v.toUInt32 := by
  have hcast : (Scalar.i32 v).asU64 = UInt64.ofInt v.toInt := rfl
  have hbits : v.toInt = if 2 * v.toUInt32.toNat < 2 ^ 32 then (v.toUInt32.toNat : Int)
      else v.toUInt32.toNat - 2 ^ 32 := BitVec.toInt_eq_toNat_cond v.toBitVec
  have hlt := v.toUInt32.toNat_lt
  refine UInt32.toNat_inj.1 ?_
  rw [hcast, UInt64.toNat_toUInt32, UInt64.ofInt, UInt64.toNat_ofNat']
  split at hbits <;> omega

/-- The five words that are passed: where the octets are and how many, where the text goes and how much of it may, and
where its length is told. -/
structure Transcription where
  input : Int32
  length : Int32
  output : Int32
  capacity : Int32
  slot : Int32

namespace Transcription

/-- The words in their order. -/
def words (t : Transcription) : List Int32 := [t.input, t.length, t.output, t.capacity, t.slot]

/-- The octets to be transcribed. -/
def source (t : Transcription) : Span := ⟨(address t.input).toNat, t.length.toUInt32.toNat⟩

/-- The number of characters of the text. -/
def required (t : Transcription) : Nat := 4 * ((t.length.toUInt32.toNat + 2) / 3)

/-- The number of characters that are written. -/
def written (t : Transcription) : Nat := min t.capacity.toUInt32.toNat t.required

/-- Where they are written. -/
def target (t : Transcription) : Span := ⟨(address t.output).toNat, t.written⟩

/-- Where their number is told. -/
def told (t : Transcription) : Span := ⟨(address t.slot).toNat, 4⟩

/-- Whether all that is read and written lies inside a memory. -/
structure Feasible (t : Transcription) (m : Memory) : Prop where
  source : t.source.Inside m
  target : t.target.Inside m
  told : t.told.Inside m

/-- **The memory after a transcription**: first the leading characters of the text, and then their number. -/
def leaves (t : Transcription) (text : List Char) (m : Memory) : Memory :=
  (m.overlay t.target.start ((Utf8.ascii text).take t.written)).overlay t.told.start (Bytes.ofNat 4 t.written)

end Transcription

namespace MemoryM

variable {m : Memory} {text : List Char}

/-- A text of one octet a character is written with its length, or nothing is. -/
theorem encodeTextAndLength_ascii (h : ∀ c ∈ text, c.toNat < 128) (ptr capacity slot : UInt32) (m : Memory) :
    ((slot.toNat + 4 ≤ m.size ∧ ptr.toNat + min capacity.toNat text.length ≤ m.size) ∧
        encodeTextAndLength (String.ofList text) ptr capacity.toNat slot .u32 m =
          .ok ⟨min capacity.toNat text.length, clampWord text.length⟩
            ((m.overlay ptr.toNat ((Utf8.ascii text).take (min capacity.toNat text.length))).overlay slot.toNat
              (Bytes.ofNat 4 (min capacity.toNat text.length)))) ∨
      (¬ (slot.toNat + 4 ≤ m.size ∧ ptr.toNat + min capacity.toNat text.length ≤ m.size) ∧
        ∃ e, encodeTextAndLength (String.ofList text) ptr capacity.toNat slot .u32 m = .error e m) := by
  set n := min capacity.toNat text.length with hn
  have hword : n < UInt32.size := Nat.lt_of_le_of_lt (Nat.min_le_left _ _) capacity.toNat_lt
  have hoctets : Utf8.encode (String.ofList text) = Utf8.ascii text := by
    rw [Utf8.encode, String.toList_ofList, Utf8.encodeChars_ascii h]
  have hfitting : Utf8.fitting (String.ofList text).toList capacity.toNat = n := by
    rw [String.toList_ofList, Utf8.fitting_ascii h]
  have hlength : (Utf8.ascii text).length = text.length := List.length_map _
  have hnumber : (MemoryM.told n .u32).toBytes = Bytes.ofNat 4 n := by
    rw [told_word hword, Scalar.toBytes]
    show Bytes.ofNat 4 (UInt32.ofNat n).toNat = _
    rw [UInt32.toNat_ofNat_of_lt' hword]
  have hboth : encodeTextAndLength (String.ofList text) ptr capacity.toNat slot .u32 =
      writeBoth (Utf8.ascii text) n ptr slot .u32 := by
    rw [← hoctets, ← hfitting]
    rfl
  have hle : n ≤ (Utf8.ascii text).length := by omega
  have hexact := writeBoth_exact hle ptr slot .u32 m
  rwa [← hboth, clampWord_eq hword, hlength, hnumber] at hexact

end MemoryM

/-! ### The call -/

namespace Handler

variable {st : CallState}

/-- **What the handler does**: a transcription, or nothing where it is not feasible. -/
theorem base64Encode_cases (t : Transcription) (device : String) (hsize : st.memory.size < 2147483648) :
    (t.Feasible st.memory ∧ ∃ text, Base64.Spells (st.memory.bytesAt t.source.start t.source.length) text ∧
        base64Encode device (t.words.map Scalar.i32) st =
          .ok (flag (decide (t.capacity.toUInt32.toNat < t.required))) { st with memory := t.leaves text st.memory }) ∨
      (¬ t.Feasible st.memory ∧ ∃ e, base64Encode device (t.words.map Scalar.i32) st = .error e st) := by
  have hinput : word (t.words.map Scalar.i32) 0 = address t.input := Scalar.toUInt32_asU64 t.input
  have hlength : word (t.words.map Scalar.i32) 1 = t.length.toUInt32 := Scalar.toUInt32_asU64 t.length
  have houtput : word (t.words.map Scalar.i32) 2 = address t.output := Scalar.toUInt32_asU64 t.output
  have hcapacity : word (t.words.map Scalar.i32) (2 + 1) = t.capacity.toUInt32 := Scalar.toUInt32_asU64 t.capacity
  have hslot : word (t.words.map Scalar.i32) (2 + 2) = address t.slot := Scalar.toUInt32_asU64 t.slot
  simp only [base64Encode, answerText, CallM.readOctets, CallM.writeTextAndLength, CallM.onMemory, bind, EStateM.bind, hinput, hlength, houtput, hcapacity, hslot]
  -- the octets are read before anything is written, so the text is theirs wherever it goes
  rcases MemoryM.read_cases (address t.input) t.length.toUInt32.toNat st.memory with ⟨hin, hread⟩ | ⟨hout, e, hread⟩
  · set content := st.memory.bytesAt (address t.input).toNat t.length.toUInt32.toNat with hcontent
    have htext : (Base64.encode content).length = t.required := by
      rw [Base64.length_encode, hcontent, Memory.length_bytesAt, Transcription.required]
    -- below half of the address space, so that the number of characters is told as it is
    have hfits : t.required < UInt32.size := by
      have hdef : t.required = 4 * ((t.length.toUInt32.toNat + 2) / 3) := rfl
      have hword : UInt32.size = 4294967296 := rfl
      omega
    have hascii : ∀ c ∈ Base64.encode content, c.toNat < 128 := fun c hc => Base64.toNat_lt_of_mem_encode hc
    have hcases := MemoryM.encodeTextAndLength_ascii hascii (address t.output) t.capacity.toUInt32 (address t.slot)
      st.memory
    rw [htext, clampWord_eq hfits] at hcases
    rcases hcases with ⟨⟨htold, htarget⟩, hwrite⟩ | ⟨hroom, e, hwrite⟩
    · have hcut : Encoded.isTruncated ⟨min t.capacity.toUInt32.toNat t.required, t.required⟩ =
          decide (t.capacity.toUInt32.toNat < t.required) := by
        simp only [Encoded.isTruncated]
        exact decide_eq_decide.2 (by omega)
      refine .inl ⟨⟨hin, htarget, htold⟩, Base64.encode content, Base64.encode_spells content, ?_⟩
      simp only [hread, hwrite, hcut, pure, EStateM.pure]
      rfl
    · refine .inr ⟨fun h => hroom ⟨h.told, h.target⟩, e, ?_⟩
      simp only [hread, hwrite]
  · refine .inr ⟨fun h => hout h.source, e, ?_⟩
    simp only [hread]

end Handler

/-- The agent's functions are those that it offers, one after the other. -/
theorem agentFunctions_eq : agentFunctions =
    .ofOffers [.ofWords "eea_fn_terminal_print" 2 Handler.terminalPrint,
      .ofWords "eea_fn_base64_encode" 5 Handler.base64Encode] := by
  rfl

namespace Transcription

variable {σ : Surroundings} {m : Machine} {memory : Memory}

/-- The function that transcribes. -/
def function : NativeFunction := .ofWords "eea_fn_base64_encode" 5 Handler.base64Encode

/-- It is called by its name. -/
theorem call_function (hnatives : σ.natives = agentFunctions) (arguments : List Value) :
    m.call σ "eea_fn_base64_encode" arguments = m.callNative σ function arguments := by
  have hsound : σ.natives.Sound := by
    rw [hnatives, agentFunctions_eq]
    exact NativeTable.sound_ofOffers _
  have hmem : function ∈ σ.natives.functions := by
    rw [hnatives]
    exact List.mem_cons_self
  exact Machine.call_native hsound hmem arguments

/-- A flag is given back as a word. -/
theorem zipWith_flag (b : Bool) :
    List.zipWith ValueType.ofScalar function.signature.results (Handler.flag b) = [.i32 (if b then 1 else 0)] := by
  cases b <;> decide

/-- The words are the scalars that the handler sees. -/
theorem toScalar_words (t : Transcription) :
    (t.words.map Value.ofInt32).map Value.toScalar = t.words.map Scalar.i32 := by
  simp [Value.ofInt32, Value.toScalar]

/-- The text is read back from the output, if all of it is there and its length is told elsewhere. -/
theorem decodeText_leaves {t : Transcription} {text : List Char} (hascii : ∀ c ∈ text, c.toNat < 128)
    (hall : text.length = t.written) (hroom : t.target.Inside memory) (hapart : t.target.Apart t.told) :
    MemoryM.decodeText (address t.output) t.written (t.leaves text memory) =
      .ok (String.ofList text) (t.leaves text memory) := by
  have hlength : (Utf8.ascii text).length = t.written := (List.length_map _).trans hall
  have htake : (Utf8.ascii text).take t.written = Utf8.ascii text := List.take_of_length_le hlength.le
  refine MemoryM.decodeText_eq_ok_iff.2 ⟨rfl, hroom, ?_⟩
  rw [leaves, Memory.bytesAt_overlay_apart, htake]
  · rw [Utf8.encode, String.toList_ofList, Utf8.encodeChars_ascii hascii]
    exact Memory.bytesAt_overlay_length memory hlength
  · rintro j hstart hstop ⟨hstart', hstop'⟩
    rw [Bytes.length_ofNat] at hstop'
    exact hapart j ⟨⟨hstart, hstop⟩, hstart', hstop'⟩

/-- **What a call does.** Unless the octets, the output and the slot lie inside the memory, the call traps and nothing
is changed. Otherwise the text of the octets, as they are before the call, is put at the output as far as the capacity
goes, then the number of characters that this is at the slot, and nothing else is changed. The answer is one exactly if
the text is cut. If it is not, and the slot is apart from the output, the octets are read back from there. -/
theorem call_transcribes (hnatives : σ.natives = agentFunctions) (hm : m.guest.memory = some memory)
    (hknown : m.guest.isKnown = true) (hsize : memory.size < 2147483648) (t : Transcription) :
    (¬ t.Feasible memory → m.call σ "eea_fn_base64_encode" (t.words.map Value.ofInt32) = (none, m)) ∧
      (t.Feasible memory → ∃ text, Base64.Spells (memory.bytesAt t.source.start t.source.length) text ∧
        m.call σ "eea_fn_base64_encode" (t.words.map Value.ofInt32) =
          (some [.i32 (if t.capacity.toUInt32.toNat < t.required then 1 else 0)],
            { m with guest := { m.guest with memory := some (t.leaves text memory) } }) ∧
        (t.required ≤ t.capacity.toUInt32.toNat → t.target.Apart t.told →
          ∃ s : String, MemoryM.decodeText (address t.output) t.written (t.leaves text memory) =
              .ok s (t.leaves text memory) ∧
            Base64.decode s.toList = some (memory.bytesAt t.source.start t.source.length))) := by
  have hbefore : (⟨memory, m.host.output⟩ : CallState).memory.size < 2147483648 := hsize
  have hhandler := Handler.base64Encode_cases t σ.deviceId hbefore
  rw [call_function hnatives]
  rw [← toScalar_words t] at hhandler
  rcases hhandler with ⟨hfeasible, text, htext, hhandler⟩ | ⟨hnot, e, hhandler⟩
  · refine ⟨fun hnot => absurd hfeasible hnot, fun _ => ⟨text, htext, ?_, fun hfits hapart => ?_⟩⟩
    · have hinvoke : function.invoke σ.deviceId (t.words.map Value.ofInt32) ⟨memory, m.host.output⟩ = _ :=
        NativeFunction.invoke_ok hhandler rfl
      rw [Machine.callNative_ok hm hknown hinvoke, zipWith_flag]
      simp only [decide_eq_true_eq]
      rfl
    · have hall : text.length = t.written := by
        rw [htext.length, Memory.length_bytesAt, written, Nat.min_eq_right hfits]
        rfl
      have hascii : ∀ c ∈ text, c.toNat < 128 := by
        rw [htext.unique (Base64.encode_spells _)]
        exact fun c hc => Base64.toNat_lt_of_mem_encode hc
      refine ⟨_, decodeText_leaves hascii hall hfeasible.target hapart, ?_⟩
      rw [String.toList_ofList]
      exact Base64.decode_eq_some_iff.2 htext
  · refine ⟨fun _ => ?_, fun hfeasible => absurd hfeasible hnot⟩
    have hinvoke : function.invoke σ.deviceId (t.words.map Value.ofInt32) ⟨memory, m.host.output⟩ = _ :=
      NativeFunction.invoke_error hhandler
    rw [Machine.callNative_error hm hknown hinvoke, Machine.withNative, ← hm]

end Transcription

namespace Sample

/-- A memory that begins with a word of five letters. -/
def greeting : Memory := (Memory.filled 256 0).overlay 0 [104, 101, 108, 108, 111]

/-- A guest with this memory. -/
def scribe : Machine := ⟨⟨some greeting, none, true, .empty, [], []⟩, .fresh ⟨⟨[]⟩, none⟩⟩

/-- An instance to which the agent's functions are offered. -/
def writing : Surroundings := ⟨0, "device", .memory, agentFunctions, .standard⟩

end Sample

namespace Transcription

open Sample

/-- Five letters are transcribed and read back; a slot beyond the memory is refused. -/
theorem call_transcribes_greeting :
    let t : Transcription := ⟨0, 5, 64, 32, 128⟩
    t.Feasible greeting ∧ t.target.Apart t.told ∧ greeting.size < 2147483648 ∧
      scribe.call writing "eea_fn_base64_encode" [.i32 0, .i32 5, .i32 64, .i32 32, .i32 0xffffffff] = (none, scribe) ∧
      ∃ text, Base64.Spells [104, 101, 108, 108, 111] text ∧
        scribe.call writing "eea_fn_base64_encode" [.i32 0, .i32 5, .i32 64, .i32 32, .i32 128] =
          (some [.i32 0],
            { scribe with guest := { scribe.guest with memory := some (t.leaves text greeting) } }) ∧
        ∃ s : String, MemoryM.decodeText 64 8 (t.leaves text greeting) = .ok s (t.leaves text greeting) ∧
          Base64.decode s.toList = some [104, 101, 108, 108, 111] := by
  intro t
  have hwritten : t.written = 8 := by decide
  have htarget : t.target = ⟨64, 8⟩ := congrArg (Span.mk 64) hwritten
  have hfeasible : t.Feasible greeting :=
    ⟨(by decide : 0 + 5 ≤ 256), htarget ▸ (by decide : 64 + 8 ≤ 256), (by decide : 128 + 4 ≤ 256)⟩
  have hapart : t.target.Apart t.told := Span.apart_of_le (by decide)
  have hsize : greeting.size < 2147483648 := by decide
  have hbeyond : ¬ Feasible ⟨0, 5, 64, 32, -1⟩ greeting := fun h =>
    absurd h.told (show ¬ 4294967295 + 4 ≤ 256 by decide)
  have hnatives : writing.natives = agentFunctions := rfl
  have hmemory : scribe.guest.memory = some greeting := rfl
  obtain ⟨text, htext, hcall, hback⟩ := (call_transcribes hnatives hmemory rfl hsize t).2 hfeasible
  rw [if_neg (by decide)] at hcall
  rw [hwritten] at hback
  refine ⟨hfeasible, hapart, hsize, ?_, text, htext, hcall, hback (by decide) hapart⟩
  exact (call_transcribes hnatives hmemory rfl hsize ⟨0, 5, 64, 32, -1⟩).1 hbeyond

end Transcription

end FlowHost
