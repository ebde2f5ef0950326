import FlowHost.Config
import FlowHost.Proofs.Casting
import FlowHost.Proofs.Texts

/-!
# Stored lengths

Where the host writes a text or the blob into a guest's memory, it tells the guest in a slot how many octets it wrote.
A slot of 32 bits can tell every number that a capacity allows. The slot for the device's identifier is one octet, and
nothing keeps identifiers below 256 octets: there the number is told modulo 256.

* `MemoryM.writeBoth_shows`: what octets and their number leave, if the slot is apart from them.
* `Machine.lengths_told`: **what the slots tell**, and when it is the number of octets that were written.
* `Machine.length_wraps`: an identifier whose length is told wrongly.
-/

namespace FlowHost

/-- Two spans share no address. -/
def Span.Apart (s s' : Span) : Prop := ∀ j, ¬ (s.Holds j ∧ s'.Holds j)

/-- **A memory that shows a text and its length**: the longest run of leading characters that fits the capacity is
read from the first `n` octets at an address, and a scalar from a slot. -/
structure Memory.ShowsText (m : Memory) (text : String) (capacity : Nat) (out : UInt32) (n : Nat) (slot : UInt32)
    (told : Scalar) : Prop where
  text : ∃ leading : String, Utf8.Cut text capacity leading.toList ∧ MemoryM.decodeText out n m = .ok leading m
  length : MemoryM.decodeScalar slot told.type m = .ok told m

/-- A memory that shows the first `n` octets of a byte string at an address, and a scalar in a slot. -/
structure Memory.ShowsOctets (m : Memory) (bs : Bytes) (out : UInt32) (n : Nat) (slot : UInt32) (told : Scalar) :
    Prop where
  octets : m.bytesAt out.toNat n = bs.take n
  length : MemoryM.decodeScalar slot told.type m = .ok told m

namespace MemoryM

variable {m m' : Memory} {report : Encoded} {n : Nat}

/-! ### What a slot tells -/

theorem type_told (n : Nat) (type : ScalarType) : (told n type).type = type := Scalar.type_cast _ _

/-- **One octet tells a number modulo 256.** -/
theorem told_octet (h : n < UInt32.size) : ∃ w : UInt8, told n .u8 = .u8 w ∧ w.toNat = n % 256 := by
  refine ⟨UInt8.ofInt (UInt32.ofNat n).toNat, ?_, ?_⟩
  · rw [told, clampWord_eq h]
    rfl
  · rw [UInt32.toNat_ofNat_of_lt' h, UInt8.ofInt, UInt8.toNat_ofNat']
    omega

/-- **Octets and their number are both there** after they were written, if the slot is apart from the octets. -/
theorem writeBoth_shows {bs : Bytes} {ptr slot : UInt32} {type : ScalarType} (hn : n ≤ bs.length)
    (h : writeBoth bs n ptr slot type m = .ok report m')
    (hapart : Span.Apart ⟨ptr.toNat, n⟩ ⟨slot.toNat, type.width⟩) :
    m'.ShowsOctets bs ptr n slot (told n type) ∧ ptr.toNat + n ≤ m'.size := by
  have hlength : (bs.take n).length = n := List.length_take_of_le hn
  have hslot : (told n type).toBytes.length = type.width := Scalar.length_toBytes_cast _ _
  rcases writeBoth_exact hn ptr slot type m with ⟨⟨hin, hroom⟩, hwrite⟩ | ⟨-, e, hfail⟩
  · rw [hwrite] at h
    cases h
    refine ⟨⟨?_, ?_⟩, hroom⟩
    · rw [Memory.bytesAt_overlay_apart, Memory.bytesAt_overlay_length _ hlength]
      rintro j hj hj' ⟨hp, hp'⟩
      exact hapart j ⟨⟨hj, hj'⟩, hp, hslot ▸ hp'⟩
    · have hback : Scalar.ofBytes type (told n type).toBytes = told n type := Scalar.ofBytes_cast _ _
      have hin' : slot.toNat + type.width ≤
          ((m.overlay ptr.toNat (bs.take n)).overlay slot.toNat (told n type).toBytes).size := hin
      rw [type_told, decodeScalar_ok hin', Memory.bytesAt_overlay_length _ hslot, hback]
  · rw [hfail] at h
    cases h

/-- **A text and its length are both there** after they were written, if the slot is apart from the text. -/
theorem encodeTextAndLength_shows {text : String} {ptr slot : UInt32} {capacity : Nat} {type : ScalarType}
    (h : encodeTextAndLength text ptr capacity slot type m = .ok report m')
    (hapart : Span.Apart ⟨ptr.toNat, Utf8.fitting text.toList capacity⟩ ⟨slot.toNat, type.width⟩) :
    m'.ShowsText text capacity ptr (Utf8.fitting text.toList capacity) slot
      (told (Utf8.fitting text.toList capacity) type) := by
  have hn : Utf8.fitting text.toList capacity ≤ (Utf8.encode text).length := Utf8.fitting_le_length _ _
  obtain ⟨⟨hoctets, hlength⟩, hroom⟩ := writeBoth_shows hn h hapart
  refine ⟨⟨String.ofList (Utf8.fitted text.toList capacity), ?_, decodeText_eq_ok_iff.2 ⟨rfl, hroom, ?_⟩⟩, hlength⟩
  · rw [String.toList_ofList]
    exact Utf8.cut_fitted text capacity
  · rw [hoctets, Utf8.take_fitting, Utf8.encode, String.toList_ofList]

end MemoryM

/-! ### Calls -/

namespace Machine

variable {σ : Surroundings} {m : Machine}

/-- A core import that needs the memory and succeeds: it returns zero, and its work was done. -/
theorem call_succeeds {c : CoreCall} (h : m.Succeeds σ c) (hneeds : c.needsMemory = true) :
    ∃ st st', m.core? = some st ∧ c.attempt σ st = .ok () st' ∧
      m.call σ c.name (c.words.map Value.ofInt32) = (some [.i32 0], m.withCore st') := by
  obtain ⟨st, hst, hf⟩ := h.resolve_right (by rw [hneeds]; exact Bool.noConfusion)
  have hwords : m.call σ c.name (c.words.map Value.ofInt32) =
      (some [.i32 (m.callCore σ c).1], (m.callCore σ c).2) := by
    unfold call
    rw [words?_map]
    simp only [Option.bind_some, CoreCall.ofWords?_words]
  rcases @CoreCall.attempt_settles σ st c with ⟨-, st', hok, -⟩ | ⟨hnot, -⟩
  · refine ⟨st, st', hst, hok, ?_⟩
    rw [hwords, callCore_some c hst, CoreCall.run, hok]
    rfl
  · exact absurd hf hnot

/-- **The device's identifier** is written with its length, told in one octet. -/
theorem call_deviceId {out cap slot : Int32} (h : m.Succeeds σ (.deviceId out cap slot))
    (hapart : Span.Apart ⟨(address out).toNat, Utf8.fitting σ.deviceId.toList (capacity cap)⟩
      ⟨(address slot).toNat, 1⟩) :
    ∃ m' memory, m.call σ "eea_get_device_id" ([out, cap, slot].map Value.ofInt32) = (some [.i32 0], m') ∧
      m'.guest.memory = some memory ∧
      memory.ShowsText σ.deviceId (capacity cap) (address out)
        (Utf8.fitting σ.deviceId.toList (capacity cap)) (address slot)
        (MemoryM.told (Utf8.fitting σ.deviceId.toList (capacity cap)) .u8) := by
  obtain ⟨st, st', -, hok, hcall⟩ := call_succeeds h rfl
  refine ⟨m.withCore st', st'.memory, hcall, rfl, ?_⟩
  simp only [CoreCall.attempt, bind, EStateM.bind, CoreM.onMemory] at hok
  cases hwrite : MemoryM.encodeTextAndLength σ.deviceId (address out) (capacity cap) (address slot) .u8 st.memory with
  | ok report memory =>
    rw [hwrite] at hok
    cases hok
    exact MemoryM.encodeTextAndLength_shows hwrite hapart
  | error e memory =>
    rw [hwrite] at hok
    cases hok

/-- **The blob** is written with its length, told in 32 bits. -/
theorem call_storageRead_shows {out cap slot : Int32} {blob : Bytes} (h : m.Succeeds σ (.storageRead out cap slot))
    (hload : m.host.storage.load σ.blobPlace = .ok (some blob))
    (hapart : Span.Apart ⟨(address out).toNat, min blob.length (capacity cap)⟩ ⟨(address slot).toNat, 4⟩) :
    ∃ m' memory, m.call σ "eea_storage_read" ([out, cap, slot].map Value.ofInt32) = (some [.i32 0], m') ∧
      m'.guest.memory = some memory ∧
      memory.ShowsOctets blob (address out) (min blob.length (capacity cap)) (address slot)
        (MemoryM.told (min blob.length (capacity cap)) .u32) := by
  obtain ⟨st, st', hst, hok, hcall⟩ := call_succeeds h rfl
  have hhost : st.host = m.host := congrArg Machine.host (withCore_core? hst)
  refine ⟨m.withCore st', st'.memory, hcall, rfl, ?_⟩
  simp only [CoreCall.attempt, bind, EStateM.bind, CoreM.get_apply, hhost, hload, CoreM.ofExcept, pure, EStateM.pure,
    CoreM.onMemory] at hok
  cases hwrite : MemoryM.encodeBytesAndLength blob (address out) (capacity cap) (address slot) .u32 st.memory with
  | ok report memory =>
    rw [hwrite] at hok
    cases hok
    exact (MemoryM.writeBoth_shows (Nat.min_le_left _ _) hwrite hapart).1
  | error e memory =>
    rw [hwrite] at hok
    cases hok

/-- **What the slots tell.** The device's identifier is cut to the capacity and read back where it was written, and
the slot tells how many octets it is exactly if they are less than 256. The length of the blob, and that of a text
that a native function writes, is told as it is. -/
theorem lengths_told (σ : Surroundings) (m : Machine) :
    (∀ out cap slot : Int32, m.Succeeds σ (.deviceId out cap slot) →
      Span.Apart ⟨(address out).toNat, Utf8.fitting σ.deviceId.toList (capacity cap)⟩ ⟨(address slot).toNat, 1⟩ →
        ∃ m' memory, ∃ told : UInt8,
          m.call σ "eea_get_device_id" ([out, cap, slot].map Value.ofInt32) = (some [.i32 0], m') ∧
          m'.guest.memory = some memory ∧
          memory.ShowsText σ.deviceId (capacity cap) (address out)
            (Utf8.fitting σ.deviceId.toList (capacity cap)) (address slot) (.u8 told) ∧
          (told.toNat = Utf8.fitting σ.deviceId.toList (capacity cap) ↔
            Utf8.fitting σ.deviceId.toList (capacity cap) < 256)) ∧
      (∀ (out cap slot : Int32) (blob : Bytes), m.Succeeds σ (.storageRead out cap slot) →
        m.host.storage.load σ.blobPlace = .ok (some blob) →
        Span.Apart ⟨(address out).toNat, min blob.length (capacity cap)⟩ ⟨(address slot).toNat, 4⟩ →
          ∃ m' memory, ∃ told : UInt32,
            m.call σ "eea_storage_read" ([out, cap, slot].map Value.ofInt32) = (some [.i32 0], m') ∧
            m'.guest.memory = some memory ∧
            memory.ShowsOctets blob (address out) (min blob.length (capacity cap)) (address slot) (.u32 told) ∧
            told.toNat = min blob.length (capacity cap)) ∧
      ∀ (text : String) (out cap slot : UInt32) (st st' : CallState) (report : Encoded),
        CallM.writeTextAndLength text out cap slot st = .ok report st' →
        Span.Apart ⟨out.toNat, Utf8.fitting text.toList cap.toNat⟩ ⟨slot.toNat, 4⟩ →
          ∃ told : UInt32, st'.memory.ShowsText text cap.toNat out (Utf8.fitting text.toList cap.toNat) slot
              (.u32 told) ∧
            told.toNat = Utf8.fitting text.toList cap.toNat := by
  -- no capacity is beyond 32 bits, and nothing longer than the capacity is written
  have hword (text : String) (cap : UInt32) : Utf8.fitting text.toList cap.toNat < UInt32.size :=
    Nat.lt_of_le_of_lt (Utf8.fitting_le _ _) cap.toNat_lt
  refine ⟨fun out cap slot h hapart => ?_, fun out cap slot blob h hload hapart => ?_,
    fun text out cap slot st st' report h hapart => ?_⟩
  · obtain ⟨m', memory, hcall, hmemory, hshows⟩ := call_deviceId h hapart
    obtain ⟨told, htold, hnat⟩ := MemoryM.told_octet (hword σ.deviceId (max cap 0).toUInt32)
    refine ⟨m', memory, told, hcall, hmemory, htold ▸ hshows, ?_⟩
    rw [hnat, capacity]
    omega
  · obtain ⟨m', memory, hcall, hmemory, hshows⟩ := call_storageRead_shows h hload hapart
    have hblob : min blob.length (capacity cap) < UInt32.size :=
      Nat.lt_of_le_of_lt (Nat.min_le_right _ _) (max cap 0).toUInt32.toNat_lt
    rw [MemoryM.told_word hblob] at hshows
    exact ⟨m', memory, _, hcall, hmemory, hshows, UInt32.toNat_ofNat_of_lt' hblob⟩
  · unfold CallM.writeTextAndLength CallM.onMemory at h
    cases hwrite : MemoryM.encodeTextAndLength text out cap.toNat slot .u32 st.memory with
    | ok report memory =>
      rw [hwrite] at h
      cases h
      have hshows := MemoryM.encodeTextAndLength_shows hwrite hapart
      rw [MemoryM.told_word (hword text cap)] at hshows
      exact ⟨_, hshows, UInt32.toNat_ofNat_of_lt' (hword text cap)⟩
    | error e memory =>
      rw [hwrite] at h
      cases h

end Machine

namespace Sample

/-- An instance of the host for a device. -/
def instanceOf (deviceId : String) : Surroundings := ⟨0, deviceId, .memory, .empty, .standard⟩

/-- A guest with one page of memory, on a host that keeps a blob of four octets. -/
def reader : Machine :=
  ⟨⟨some (Memory.filled pageSize 0), none, true, .empty, [], []⟩, .fresh ⟨⟨[]⟩, some [98, 108, 111, 98]⟩⟩

/-- A configuration with an identifier of three hundred octets. -/
def longNamed : AgentConfig := { AgentConfig.standard with deviceId := String.ofList (List.replicate 300 'd') }

end Sample

/-- Spans that lie one after the other share no address. -/
theorem Span.apart_of_le {s s' : Span} (h : s.start + s.length ≤ s'.start) : s.Apart s' := by
  rintro j ⟨⟨-, hlt⟩, ⟨hle, -⟩⟩
  omega

namespace Machine

open Sample

/-- The guest gets every identifier that fits its page. -/
theorem reader_succeeds {d : String} {cap slot : Int32} (hslot : (address slot).toNat + 1 ≤ pageSize)
    (hfits : Utf8.fitting d.toList (capacity cap) ≤ pageSize) :
    reader.Succeeds (instanceOf d) (.deviceId 0 cap slot) := by
  have hroom : (address 0).toNat + Utf8.fitting d.toList (capacity cap) ≤ pageSize := by
    rw [show (address 0).toNat = 0 from rfl, Nat.zero_add]
    exact hfits
  exact .inl ⟨_, rfl, hslot, hroom⟩

/-- An identifier that is cut to four octets, a blob that is read whole, and a text that a native function writes. -/
theorem lengths_told_reader :
    let σ := instanceOf "device"
    let st : CallState := ⟨Memory.filled 64 0, .empty⟩
    (reader.Succeeds σ (.deviceId 0 4 8) ∧ Span.Apart ⟨0, 4⟩ ⟨8, 1⟩ ∧ ∃ m' memory, ∃ told : UInt8,
        reader.call σ "eea_get_device_id" [.i32 0, .i32 4, .i32 8] = (some [.i32 0], m') ∧
        m'.guest.memory = some memory ∧ memory.ShowsText "device" 4 0 4 8 (.u8 told) ∧ told.toNat = 4) ∧
      (reader.Succeeds σ (.storageRead 0 16 32) ∧
        reader.host.storage.load σ.blobPlace = .ok (some [98, 108, 111, 98]) ∧ Span.Apart ⟨0, 4⟩ ⟨32, 4⟩ ∧
        ∃ m' memory, ∃ told : UInt32,
          reader.call σ "eea_storage_read" [.i32 0, .i32 16, .i32 32] = (some [.i32 0], m') ∧
          m'.guest.memory = some memory ∧ memory.ShowsOctets [98, 108, 111, 98] 0 4 32 (.u32 told) ∧
          told.toNat = 4) ∧
      ∃ report st', CallM.onMemory (MemoryM.encodeTextAndLength "text" 8 16 32 .u32) st = .ok report st' ∧
        Span.Apart ⟨8, 4⟩ ⟨32, 4⟩ ∧
        ∃ told : UInt32, st'.memory.ShowsText "text" 16 8 4 32 (.u32 told) ∧ told.toNat = 4 := by
  intro σ st
  obtain ⟨hdevice, hblob, hnative⟩ := lengths_told σ reader
  refine ⟨?_, ?_, ?_⟩
  · have hcut : Utf8.fitting "device".toList (capacity 4) = 4 := by decide
    have hs : reader.Succeeds σ (.deviceId 0 4 8) := reader_succeeds (by decide) (by rw [hcut]; decide)
    have hapart : Span.Apart ⟨0, 4⟩ ⟨8, 1⟩ := Span.apart_of_le (by decide)
    have htold := hdevice 0 4 8 hs
    rw [show Utf8.fitting σ.deviceId.toList (capacity 4) = 4 from hcut] at htold
    obtain ⟨m', memory, told, hcall, hmemory, hshows, hiff⟩ := htold hapart
    exact ⟨hs, hapart, m', memory, told, hcall, hmemory, hshows, hiff.2 (by decide)⟩
  · have hs : reader.Succeeds σ (.storageRead 0 16 32) := by
      refine .inl ⟨_, rfl, _, rfl, ?_⟩
      rintro blob ⟨⟩
      exact ⟨Nat.le_of_ble_eq_true rfl, Nat.le_of_ble_eq_true rfl⟩
    have hapart : Span.Apart ⟨0, 4⟩ ⟨32, 4⟩ := Span.apart_of_le (by decide)
    obtain ⟨m', memory, told, hcall, hmemory, hshows, hnat⟩ := hblob 0 16 32 [98, 108, 111, 98] hs rfl hapart
    exact ⟨hs, rfl, hapart, m', memory, told, hcall, hmemory, hshows, hnat⟩
  · have hapart : Span.Apart ⟨8, 4⟩ ⟨32, 4⟩ := Span.apart_of_le (by decide)
    have hwrite : ∃ report st',
        CallM.onMemory (MemoryM.encodeTextAndLength "text" 8 16 32 .u32) st = .ok report st' := ⟨_, _, rfl⟩
    obtain ⟨report, st', hwrite⟩ := hwrite
    obtain ⟨told, hshows, hnat⟩ := hnative "text" 8 16 32 st st' report hwrite hapart
    exact ⟨report, st', hwrite, hapart, told, hshows, hnat⟩

/-- **An identifier whose length is told wrongly.** It is accepted and written whole, all of its three hundred octets,
and the slot tells of forty-four. -/
theorem length_wraps :
    longNamed.validate = .ok () ∧
      reader.Succeeds (instanceOf longNamed.deviceId) (.deviceId 0 512 1024) ∧ Span.Apart ⟨0, 300⟩ ⟨1024, 1⟩ ∧
      ∃ m' memory,
        reader.call (instanceOf longNamed.deviceId) "eea_get_device_id" [.i32 0, .i32 512, .i32 1024] =
            (some [.i32 0], m') ∧
          m'.guest.memory = some memory ∧ memory.ShowsText longNamed.deviceId 512 0 300 1024 (.u8 44) := by
  have hlist : longNamed.deviceId.toList = List.replicate 300 'd' := String.toList_ofList
  have hvalid : longNamed.validate = .ok () := by
    unfold AgentConfig.validate
    rw [hlist]
    decide +kernel
  have hn : Utf8.fitting longNamed.deviceId.toList 512 = 300 := by
    rw [hlist]
    decide +kernel
  have htold : MemoryM.told 300 .u8 = .u8 44 := by decide +kernel
  have hs : reader.Succeeds (instanceOf longNamed.deviceId) (.deviceId 0 512 1024) :=
    reader_succeeds (by decide) (by rw [show capacity 512 = 512 from rfl, hn]; decide)
  have hapart : Span.Apart ⟨0, 300⟩ ⟨1024, 1⟩ := Span.apart_of_le (by decide)
  have hshows := call_deviceId hs
  -- from here on only the length of the identifier matters
  generalize longNamed.deviceId = d at hn hs hshows ⊢
  rw [show Utf8.fitting (instanceOf d).deviceId.toList (capacity 512) = 300 from hn, htold] at hshows
  obtain ⟨m', memory, hcall, hmemory, hshows⟩ := hshows hapart
  exact ⟨hvalid, hs, hapart, m', memory, hcall, hmemory, hshows⟩

end Machine

end FlowHost
