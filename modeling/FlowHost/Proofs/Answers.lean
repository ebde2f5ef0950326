import FlowHost.Proofs.Passing
import FlowHost.Proofs.Spelling
import FlowHost.Proofs.Tree

/-!
# What core imports answer

A guest calls the core imports with whatever words it likes. `CoreCall.Feasible` says when the work of one
can be done; then it is done (`CoreCall.Done`), and else nothing is (`CoreCall.Undone`). No call traps, and
those that tell the guest of a failure answer one exactly where they fail.

* `CoreCall.attempt_settles`: the work of each core import, done wholly or not at all.
* `Machine.call_core`: **every call of a core import returns**, whatever its words are.
-/

namespace FlowHost

/-! ### Accesses of the memory -/

/-- **A range holds a text**: it lies inside the memory, and its octets are those of the text. -/
def Region.Reads (r : Region) (m : Memory) (text : String) : Prop :=
  r.Inside m ∧ m.bytesAt r.ptr.toNat r.len.toNat = Utf8.encode text

namespace MemoryM

/-- **A text is read from the ranges that hold one**, and from no others. -/
theorem decodeText_reads (t tl : Int32) (m : Memory) :
    (∃ text, (Region.ofWords t tl).Reads m text ∧
        decodeText (address t) (capacity tl) m = .ok text m) ∨
      ((¬ ∃ text, (Region.ofWords t tl).Reads m text) ∧
        ∃ e, decodeText (address t) (capacity tl) m = .error e m) :=
  decodeText_cases (address t) (capacity tl) m

end MemoryM

/-- **The level of a guest's word** is the word held between zero and two. -/
theorem QoS.level_ofWord (v : Int32) : (QoS.ofWord v).level = (max 0 (min v.toInt 2)).toNat := by
  unfold ofWord
  by_cases h0 : v ≤ 0
  · have hle : v.toInt ≤ 0 := Int32.le_iff_toInt_le.1 h0
    rw [if_pos h0]
    show 0 = _
    omega
  · have hlt : 0 < v.toInt := by
      have := mt Int32.le_iff_toInt_le.2 h0
      simpa using this
    rw [if_neg h0]
    by_cases h1 : v = 1
    · rw [if_pos h1, h1]
      rfl
    · have hne : v.toInt ≠ 1 := fun h => h1 (Int32.toInt_inj.1 h)
      rw [if_neg h1]
      show 2 = _
      omega

/-- **A host that a failed core import leaves**: its queue and what its blob's place holds. A load returns
what it returned as well, unless the path climbs out of a directory that a save had to make first; then the
load may find what was kept all along. -/
structure Host.Spared (place : BlobPlace) (h h' : Host) : Prop where
  outbound : h'.outbound = h.outbound
  kept : h'.storage.kept place = h.storage.kept place
  blob : h.storage.disk.IsTree → (∀ p ∈ place.path?, p.NeverClimbs) →
    h'.storage.blob place = h.storage.blob place
  reveals : h'.storage.blob place = h.storage.blob place ∨
    (h.storage.blob place = none ∧ h'.storage.blob place = h.storage.kept place)

theorem Host.Spared.refl {place : BlobPlace} {h : Host} : Host.Spared place h h :=
  ⟨rfl, rfl, fun _ _ => rfl, .inl rfl⟩

/-! ### The work of core imports -/

namespace CoreM

variable {α : Type} {st : CoreState} {x : MemoryM α} {m : Memory}

theorem onMemory_ok {a : α} (h : x st.memory = .ok a m) :
    onMemory x st = .ok a { st with memory := m } := by
  unfold onMemory
  rw [h]

theorem onMemory_error {e : Error} (h : x st.memory = .error e m) :
    onMemory x st = .error e { st with memory := m } := by
  unfold onMemory
  rw [h]

end CoreM

namespace CoreCall

/-- The name of a core import. -/
def name : CoreCall → String
  | deviceId .. => "eea_get_device_id"
  | time .. => "eea_get_time"
  | send .. => "eea_send_message"
  | setBuffers .. => "eea_set_message_buffers"
  | sleep .. => "eea_sleep"
  | storageRead .. => "eea_storage_read"
  | storageSave .. => "eea_storage_save"
  | trace .. => "eea_trace"

/-- The words that a core import is called with. -/
def words : CoreCall → List Int32
  | deviceId out cap len => [out, cap, len]
  | time out => [out]
  | send t tl p pl qos => [t, tl, p, pl, qos]
  | setBuffers t tl p pl => [t, tl, p, pl]
  | sleep milliseconds => [milliseconds]
  | storageRead out cap len => [out, cap, len]
  | storageSave ptr len => [ptr, len]
  | trace ptr len level => [ptr, len, level]

theorem ofWords?_words (c : CoreCall) : ofWords? c.name c.words = some c := by
  cases c <;> rfl

/-- **Every call of a core import's name with as many words as it takes is one of its calls.** -/
theorem exists_of_arity? {function : String} {words : List Int32}
    (h : arity? function = some words.length) :
    ∃ c : CoreCall, c.name = function ∧ c.words = words := by
  unfold arity? at h
  split at h <;> simp only [Option.some.injEq, reduceCtorEq] at h
  · obtain ⟨a, b, c, rfl⟩ := List.length_eq_three.1 h.symm
    exact ⟨deviceId a b c, rfl, rfl⟩
  · obtain ⟨a, b, c, rfl⟩ := List.length_eq_three.1 h.symm
    exact ⟨storageRead a b c, rfl, rfl⟩
  · obtain ⟨a, b, c, rfl⟩ := List.length_eq_three.1 h.symm
    exact ⟨trace a b c, rfl, rfl⟩
  · obtain ⟨a, rfl⟩ := List.length_eq_one_iff.1 h.symm
    exact ⟨time a, rfl, rfl⟩
  · obtain ⟨a, rfl⟩ := List.length_eq_one_iff.1 h.symm
    exact ⟨sleep a, rfl, rfl⟩
  · match words, h with
    | [a, b, c, d, e], _ => exact ⟨send a b c d e, rfl, rfl⟩
  · match words, h with
    | [a, b, c, d], _ => exact ⟨setBuffers a b c d, rfl, rfl⟩
  · obtain ⟨a, b, rfl⟩ := List.length_eq_two.1 h.symm
    exact ⟨storageSave a b, rfl, rfl⟩

/-- The core imports that tell the guest of a failure. -/
def telling : List String := ["eea_get_time", "eea_set_message_buffers", "eea_storage_read"]

/-- **Where a core import may write**: a place for what it gives, of the capacity that the guest names,
and a slot for the length. -/
def places : CoreCall → List Region
  | deviceId out cap len => [Region.ofWords out cap, ⟨address len, 1⟩]
  | time out => [⟨address out, 8⟩]
  | storageRead out cap len => [Region.ofWords out cap, ⟨address len, 4⟩]
  | _ => []

variable {σ : Surroundings} {st st' : CoreState}

/-- **When the work of a core import can be done.** -/
def Feasible (σ : Surroundings) (st : CoreState) : CoreCall → Prop
  | deviceId out cap len =>
    Region.Inside ⟨address len, 1⟩ st.memory ∧
      (address out).toNat + Utf8.fitting σ.deviceId.toList (capacity cap) ≤ st.memory.size
  | time out => Region.Inside ⟨address out, 8⟩ st.memory
  | send t tl p pl _ =>
    (∃ topic, (Region.ofWords t tl).Reads st.memory topic) ∧
      (∃ payload, (Region.ofWords p pl).Reads st.memory payload) ∧ st.host.isOpen = true
  | setBuffers t tl p pl =>
    (Region.ofWords t tl).Inside st.memory ∧ (Region.ofWords p pl).Inside st.memory ∧
      st.buffers.buffers = none
  | sleep _ => True
  | storageRead out cap len =>
    ∃ found, st.host.storage.load σ.blobPlace = .ok found ∧
      ∀ blob ∈ found, Region.Inside ⟨address len, 4⟩ st.memory ∧
        (address out).toNat + min blob.length (capacity cap) ≤ st.memory.size
  | storageSave ptr len =>
    (Region.ofWords ptr len).Inside st.memory ∧
      (st.host.storage.save σ.blobPlace (st.memory.bytesAt (address ptr).toNat (capacity len))).1 =
        .ok ()
  | trace ptr len _ => (Region.ofWords ptr len).Inside st.memory

/-- What a core import puts into the queue: a message with the texts that the two ranges hold, at the
level that the word names. -/
def Queues (memory : Memory) (before after : List Outbound) : CoreCall → Prop
  | send t tl p pl qos => ∃ message : Message, after = before ++ [.publish message] ∧
      (Region.ofWords t tl).Reads memory message.topic ∧
      (Region.ofWords p pl).Reads memory message.payload ∧
      message.qos.level = (max 0 (min qos.toInt 2)).toNat
  | _ => after = before

/-- What a core import makes of the blob. -/
def Saves (memory : Memory) (before after : Option Bytes) : CoreCall → Prop
  | storageSave ptr len => after = some (memory.bytesAt (address ptr).toNat (capacity len))
  | _ => after = before

/-- What a core import makes of what was announced. -/
def Announces (before after : Option MessageBuffers) : CoreCall → Prop
  | setBuffers t tl p pl => before = none ∧ after = some ⟨Region.ofWords t tl, Region.ofWords p pl⟩
  | _ => after = before

/-- **The work of a core import, done.** -/
structure Done (σ : Surroundings) (c : CoreCall) (st st' : CoreState) : Prop where
  size : st'.memory.size = st.memory.size
  bytes : ∀ j, (∀ r ∈ c.places, ¬ r.Holds j) → st'.memory.byte j = st.memory.byte j
  announces : c.Announces st.buffers.buffers st'.buffers.buffers
  queues : c.Queues st.memory st.host.outbound st'.host.outbound
  saves : c.Saves st.memory (st.host.storage.blob σ.blobPlace) (st'.host.storage.blob σ.blobPlace)

/-- The work of a core import, not done. -/
structure Undone (σ : Surroundings) (st st' : CoreState) : Prop where
  memory : st'.memory = st.memory
  buffers : st'.buffers = st.buffers
  host : Host.Spared σ.blobPlace st.host st'.host

theorem Undone.refl : Undone σ st st := ⟨rfl, rfl, .refl⟩

/-- **The work of a core import is done, wholly, or it fails** and leaves everything. -/
def Settles (σ : Surroundings) (st : CoreState) (c : CoreCall) : Prop :=
  (c.Feasible σ st ∧ ∃ st', c.attempt σ st = .ok () st' ∧ c.Done σ st st') ∨
    (¬ c.Feasible σ st ∧ ∃ e st', c.attempt σ st = .error e st' ∧ Undone σ st st')

theorem capacity_eq (count : Int32) : capacity count = (max count 0).toUInt32.toNat := rfl

theorem holds_ofWords {out cap : Int32} {n j : Nat} (hn : n ≤ capacity cap)
    (h : (address out).toNat ≤ j ∧ j < (address out).toNat + n) : (Region.ofWords out cap).Holds j := by
  have hcap := capacity_eq cap
  refine ⟨h.1, ?_⟩
  show j < (address out).toNat + capacity cap
  omega

theorem deviceId_settles (out cap len : Int32) : (deviceId out cap len).Settles σ st := by
  have hn : Utf8.fitting σ.deviceId.toList (capacity cap) ≤ (Utf8.encode σ.deviceId).length :=
    Utf8.fitting_le_length _ _
  have hcases := MemoryM.writeBoth_cases hn (address out) (address len) .u8 st.memory
  unfold Settles
  simp only [attempt, bind, EStateM.bind]
  rcases hcases with ⟨hfits, e, m', hwrite, hsize, hframe⟩ | ⟨hfits, e, hwrite⟩
  · have hwork : CoreM.onMemory (MemoryM.encodeTextAndLength σ.deviceId (address out) (capacity cap)
        (address len) .u8) st = .ok e { st with memory := m' } := CoreM.onMemory_ok hwrite
    refine .inl ⟨hfits, { st with memory := m' }, by rw [hwork]; rfl, ?_⟩
    refine ⟨hsize, fun j hj => hframe j (fun h => ?_) (fun h => ?_), rfl, rfl, rfl⟩
    · exact hj _ List.mem_cons_self (holds_ofWords (Utf8.fitting_le _ _) h)
    · exact hj _ (List.mem_cons_of_mem _ List.mem_cons_self) h
  · have hwork : CoreM.onMemory (MemoryM.encodeTextAndLength σ.deviceId (address out) (capacity cap)
        (address len) .u8) st = .error e st := CoreM.onMemory_error hwrite
    exact .inr ⟨hfits, e, st, by rw [hwork], .refl⟩

theorem time_settles (out : Int32) : (time out).Settles σ st := by
  unfold Settles
  simp only [attempt, bind, EStateM.bind, CoreM.get_apply, CoreM.onMemory]
  rcases MemoryM.encodeScalar_cases (.u64 st.host.clock) (address out) .u64 st.memory with
    ⟨hin, hwrite⟩ | ⟨hout, e, hwrite⟩
  · set v := (Scalar.u64 st.host.clock).cast .u64 with hv
    refine .inl ⟨hin, { st with memory := st.memory.overlay (address out).toNat v.toBytes },
      by rw [hwrite], rfl, fun j hj => ?_, rfl, rfl, rfl⟩
    have hj' : ¬ Region.Holds ⟨address out, 8⟩ j := hj _ List.mem_cons_self
    rw [Memory.byte_overlay, hv, Scalar.length_toBytes_cast]
    exact if_neg hj'
  · exact .inr ⟨hout, e, st, by rw [hwrite], .refl⟩

theorem send_settles (t tl p pl qos : Int32) : (send t tl p pl qos).Settles σ st := by
  unfold Settles
  simp only [attempt, bind, EStateM.bind, CoreM.onMemory]
  rcases MemoryM.decodeText_reads t tl st.memory with ⟨topic, ht, hreadt⟩ | ⟨ht, e, hreadt⟩
  · rcases MemoryM.decodeText_reads p pl st.memory with ⟨payload, hp, hreadp⟩ | ⟨hp, e, hreadp⟩
    · by_cases hopen : st.host.isOpen = true
      · set request : Outbound := .publish ⟨topic, payload, QoS.ofWord qos⟩ with hrequest
        set host := st.host.queue (some σ.instanceId) request with hhost
        have hqueue : host.outbound = st.host.outbound ++ [request] := by
          rw [hhost, Host.queue, if_pos hopen]
        have hstorage : host.storage = st.host.storage := by
          rw [hhost, Host.queue, if_pos hopen]
        refine .inl ⟨⟨⟨topic, ht⟩, ⟨payload, hp⟩, hopen⟩, { st with host := host }, ?_,
          rfl, fun _ _ => rfl, rfl, ⟨_, hqueue, ht, hp, QoS.level_ofWord qos⟩, ?_⟩
        · simp only [hreadt, hreadp, CoreM.get_apply, hopen, if_true]
          rfl
        · exact congrArg (fun storage => Storage.blob storage σ.blobPlace) hstorage
      · refine .inr ⟨fun h => hopen h.2.2, .transport (.other "outbound channel closed"), st, ?_, .refl⟩
        simp only [hreadt, hreadp, CoreM.get_apply]
        rw [if_neg hopen]
        rfl
    · exact .inr ⟨fun h => hp h.2.1, e, st, by simp only [hreadt, hreadp], .refl⟩
  · exact .inr ⟨fun h => ht h.1, e, st, by simp only [hreadt], .refl⟩

theorem setBuffers_settles (t tl p pl : Int32) : (setBuffers t tl p pl).Settles σ st := by
  unfold Settles
  simp only [attempt, bind, EStateM.bind, CoreM.onMemory]
  rcases MemoryM.check_cases (address t) (capacity tl) st.memory with ⟨ht, hct⟩ | ⟨ht, e, hct⟩
  · rcases MemoryM.check_cases (address p) (capacity pl) st.memory with ⟨hp, hcp⟩ | ⟨hp, e, hcp⟩
    · simp only [hct, hcp, CoreM.get_apply, BufferRegistry.negotiate]
      cases hb : st.buffers.buffers with
      | none =>
        refine .inl ⟨⟨ht, hp, hb⟩, _, rfl, rfl, fun _ _ => rfl, ⟨hb, rfl⟩, rfl, rfl⟩
      | some b =>
        refine .inr ⟨fun h => ?_, _, st, rfl, .refl⟩
        exact absurd (hb.symm.trans h.2.2) (by simp)
    · exact .inr ⟨fun h => hp h.2.1, e, st, by simp only [hct, hcp], .refl⟩
  · exact .inr ⟨fun h => ht h.1, e, st, by simp only [hct], .refl⟩

theorem storageRead_settles (out cap len : Int32) : (storageRead out cap len).Settles σ st := by
  unfold Settles
  simp only [attempt, bind, EStateM.bind, CoreM.get_apply]
  cases hload : st.host.storage.load σ.blobPlace with
  | error e =>
    refine .inr ⟨?_, e, st, rfl, .refl⟩
    rintro ⟨found, hfound, -⟩
    rw [hload] at hfound
    cases hfound
  | ok found =>
    have hpure : (CoreM.ofExcept (.ok found) : CoreM (Option Bytes)) st = .ok found st := rfl
    simp only [hpure]
    cases found with
    | none =>
      exact .inl ⟨⟨none, hload, by simp⟩, st, rfl, rfl, fun _ _ => rfl, rfl, rfl, rfl⟩
    | some blob =>
      have hn : min blob.length (capacity cap) ≤ blob.length := Nat.min_le_left _ _
      simp only [EStateM.bind]
      rcases MemoryM.writeBoth_cases hn (address out) (address len) .u32 st.memory with
        ⟨hfits, e, m', hwrite, hsize, hframe⟩ | ⟨hfits, e, hwrite⟩
      · have hwork : CoreM.onMemory (MemoryM.encodeBytesAndLength blob (address out) (capacity cap)
            (address len) .u32) st = .ok e { st with memory := m' } := CoreM.onMemory_ok hwrite
        refine .inl ⟨⟨some blob, hload, ?_⟩, { st with memory := m' }, ?_, ?_⟩
        · rintro _ ⟨⟩
          exact hfits
        · rw [hwork]
          rfl
        · refine ⟨hsize, fun j hj => hframe j (fun h => ?_) (fun h => ?_), rfl, rfl, rfl⟩
          · exact hj _ List.mem_cons_self (holds_ofWords (Nat.min_le_right _ _) h)
          · exact hj _ (List.mem_cons_of_mem _ List.mem_cons_self) h
      · have hwork : CoreM.onMemory (MemoryM.encodeBytesAndLength blob (address out) (capacity cap)
            (address len) .u32) st = .error e st := CoreM.onMemory_error hwrite
        refine .inr ⟨?_, e, st, by rw [hwork], .refl⟩
        rintro ⟨found, hfound, hall⟩
        have hsame : found = some blob := by
          rw [hload] at hfound
          exact (Except.ok.inj hfound).symm
        exact hfits (hall blob hsame)

theorem storageSave_settles (ptr len : Int32) : (storageSave ptr len).Settles σ st := by
  unfold Settles
  simp only [attempt, bind, EStateM.bind, CoreM.onMemory]
  rcases MemoryM.read_cases (address ptr) (capacity len) st.memory with ⟨hin, hread⟩ | ⟨hout, e, hread⟩
  · set content := st.memory.bytesAt (address ptr).toNat (capacity len) with hcontent
    simp only [hread, CoreM.get_apply, Host.saveBlob]
    cases hsave : st.host.storage.save σ.blobPlace content with
    | mk outcome storage =>
      cases outcome with
      | ok u =>
        refine .inl ⟨⟨hin, by rw [← hcontent, hsave]⟩, _, rfl, rfl, fun _ _ => rfl, rfl, rfl, ?_⟩
        exact (Storage.save_ok hsave).2
      | error e =>
        refine .inr ⟨fun h => ?_, e, _, rfl, rfl, rfl, rfl, Storage.save_error hsave,
          fun htree hp => Storage.save_error_blob hsave htree hp, Storage.save_error_reveals hsave⟩
        have hok := h.2
        rw [← hcontent, hsave] at hok
        cases hok
  · exact .inr ⟨fun h => hout h.1, e, st, by simp only [hread], .refl⟩

theorem trace_settles (ptr len level : Int32) : (trace ptr len level).Settles σ st := by
  unfold Settles
  simp only [attempt, bind, EStateM.bind, CoreM.onMemory, MemoryM.decodeTextLossy]
  rcases MemoryM.read_cases (address ptr) (capacity len) st.memory with ⟨hin, hread⟩ | ⟨hout, e, hread⟩
  · simp only [hread]
    exact .inl ⟨hin, _, rfl, rfl, fun _ _ => rfl, rfl, rfl, rfl⟩
  · exact .inr ⟨hout, e, st, by simp only [hread], .refl⟩

/-- **The work of every core import is done wholly, or it fails and leaves everything.** -/
theorem attempt_settles (c : CoreCall) : c.Settles σ st := by
  cases c with
  | deviceId out cap len => exact deviceId_settles out cap len
  | time out => exact time_settles out
  | send t tl p pl qos => exact send_settles t tl p pl qos
  | setBuffers t tl p pl => exact setBuffers_settles t tl p pl
  | sleep milliseconds => exact .inl ⟨trivial, st, rfl, rfl, fun _ _ => rfl, rfl, rfl, rfl⟩
  | storageRead out cap len => exact storageRead_settles out cap len
  | storageSave ptr len => exact storageSave_settles ptr len
  | trace ptr len level => exact trace_settles ptr len level

/-! ### Result codes -/

theorem code_cases (c : CoreCall) (failed : Bool) : c.code failed = 0 ∨ c.code failed = 1 := by
  unfold code
  split
  · exact .inr rfl
  · exact .inl rfl

/-- **The result code is one where a failure is told**, and zero else. -/
theorem code_eq_one_iff (c : CoreCall) (failed : Bool) :
    c.code failed = 1 ↔ c.name ∈ telling ∧ failed = true := by
  have htelling : c.reportsFailure = true ↔ c.name ∈ telling := by
    cases c <;> simp [reportsFailure, name, telling]
  rw [← htelling]
  unfold code
  cases failed <;> cases c.reportsFailure <;> simp

end CoreCall

/-! ### Calls -/

namespace Machine

variable {σ : Surroundings} {m : Machine}

/-- What core imports work on, as soon as the host knows the memory. -/
def core? (m : Machine) : Option CoreState :=
  if m.guest.isKnown then m.guest.memory.map fun memory => ⟨memory, m.guest.buffers, m.host⟩ else none

/-- The machine after the work of a core import. -/
def withCore (m : Machine) (st : CoreState) : Machine :=
  { guest := { m.guest with memory := some st.memory, buffers := st.buffers }, host := st.host }

/-- Whether a core import succeeds: the host knows the memory, and the work can be done. -/
def Succeeds (σ : Surroundings) (m : Machine) (c : CoreCall) : Prop :=
  (∃ st ∈ m.core?, c.Feasible σ st) ∨ c.needsMemory = false

/-- **What a call of a core import comes to**: its answer, and what it leaves. -/
structure Answers (σ : Surroundings) (c : CoreCall) (m : Machine) (code : UInt32) (m' : Machine) :
    Prop where
  isCode : code = 0 ∨ code = 1
  tells : code = 1 ↔ c.name ∈ CoreCall.telling ∧ ¬ m.Succeeds σ c
  done : m.Succeeds σ c → ∀ st ∈ m.core?, ∃ st', m' = m.withCore st' ∧ c.Done σ st st'
  undone : ¬ m.Succeeds σ c → m'.guest = m.guest ∧ Host.Spared σ.blobPlace m.host m'.host
  idle : m.core? = none → m' = m

theorem callCore_none (c : CoreCall) (h : m.core? = none) :
    m.callCore σ c = (c.code c.needsMemory, m) := by
  unfold core? at h
  unfold callCore
  cases hm : m.guest.memory with
  | none => rfl
  | some memory =>
    have hk : ¬ m.guest.isKnown = true := by
      intro hk
      simp [hk, hm] at h
    simp only [if_neg hk]

theorem callCore_some (c : CoreCall) {st : CoreState} (h : m.core? = some st) :
    m.callCore σ c = ((c.run σ st).1, m.withCore (c.run σ st).2) := by
  unfold core? at h
  unfold callCore
  cases hm : m.guest.memory with
  | none => simp [hm] at h
  | some memory =>
    by_cases hk : m.guest.isKnown = true
    · simp only [hk, hm, if_true, Option.map_some, Option.some.injEq] at h ⊢
      rw [h]
      simp only [withCore, hk]
    · simp [hk] at h

/-- Putting back what core imports work on changes nothing. -/
theorem withCore_core? {st : CoreState} (h : m.core? = some st) : m.withCore st = m := by
  unfold core? at h
  cases hm : m.guest.memory with
  | none => simp [hm] at h
  | some memory =>
    by_cases hk : m.guest.isKnown = true
    · simp only [hk, hm, if_true, Option.map_some, Option.some.injEq] at h
      rw [← h]
      unfold withCore
      rw [← hm]
    · simp [hk] at h

theorem words?_map (ws : List Int32) : words? (ws.map Value.ofInt32) = some ws := by
  induction ws with
  | nil => rfl
  | cons w ws ih =>
    unfold words? at ih ⊢
    rw [List.map_cons, List.mapM_cons, ih]
    simp [Value.ofInt32]

/-- Where the host knows the memory, what succeeds is what can be done. -/
theorem succeeds_iff {c : CoreCall} {st : CoreState} (h : m.core? = some st) :
    m.Succeeds σ c ↔ c.Feasible σ st := by
  unfold Succeeds
  simp only [h, Option.mem_def, Option.some.injEq, exists_eq_left']
  refine or_iff_left_of_imp fun hneeds => ?_
  cases c <;> first | exact trivial | cases hneeds

/-- Before the host knows the memory, only what needs none of it succeeds. -/
theorem answers_unknown (c : CoreCall) (h : m.core? = none) :
    m.Answers σ c (c.code c.needsMemory) m := by
  have hs : m.Succeeds σ c ↔ c.needsMemory = false := by
    unfold Succeeds
    simp [h]
  refine ⟨c.code_cases _, ?_, fun _ st hst => ?_, fun _ => ⟨rfl, .refl⟩, fun _ => rfl⟩
  · rw [c.code_eq_one_iff, hs, Bool.not_eq_false]
  · rw [h] at hst
    cases hst

theorem answers_done {c : CoreCall} {st st' : CoreState} (h : m.core? = some st)
    (hf : c.Feasible σ st) (hdone : c.Done σ st st') :
    m.Answers σ c (c.code false) (m.withCore st') := by
  have hs : m.Succeeds σ c ↔ c.Feasible σ st := succeeds_iff h
  refine ⟨c.code_cases _, ?_, fun _ st0 hst0 => ?_, fun hn => absurd (hs.2 hf) hn, fun hnone => ?_⟩
  · rw [c.code_eq_one_iff, hs]
    simp [hf]
  · obtain rfl : st = st0 := Option.some.inj (h.symm.trans hst0)
    exact ⟨st', rfl, hdone⟩
  · rw [h] at hnone
    cases hnone

theorem answers_undone {c : CoreCall} {st st' : CoreState} (h : m.core? = some st)
    (hf : ¬ c.Feasible σ st) (hundone : CoreCall.Undone σ st st') :
    m.Answers σ c (c.code true) (m.withCore st') := by
  have hs : m.Succeeds σ c ↔ c.Feasible σ st := succeeds_iff h
  have hsame : m.withCore st = m := withCore_core? h
  have hguest : (m.withCore st').guest = (m.withCore st).guest := by
    unfold withCore
    rw [hundone.memory, hundone.buffers]
  have hhost : st.host = m.host := congrArg Machine.host hsame
  refine ⟨c.code_cases _, ?_, fun hn => absurd (hs.1 hn) hf, fun _ => ⟨?_, ?_⟩, fun hnone => ?_⟩
  · rw [c.code_eq_one_iff, hs]
    simp [hf]
  · rw [hguest, hsame]
  · rw [← hhost]
    exact hundone.host
  · rw [h] at hnone
    cases hnone

/-- **Every call of a core import returns**, whatever the words, the memory and the host are. -/
theorem call_core (σ : Surroundings) (m : Machine) (c : CoreCall) :
    ∃ code m', m.call σ c.name (c.words.map Value.ofInt32) = (some [.i32 code], m') ∧
      m.Answers σ c code m' := by
  have hcall : m.call σ c.name (c.words.map Value.ofInt32) =
      (some [.i32 (m.callCore σ c).1], (m.callCore σ c).2) := by
    unfold call
    rw [words?_map]
    simp only [Option.bind_some, CoreCall.ofWords?_words]
  refine ⟨_, _, hcall, ?_⟩
  cases hcore : m.core? with
  | none =>
    rw [callCore_none c hcore]
    exact answers_unknown c hcore
  | some st =>
    rw [callCore_some c hcore]
    rcases @CoreCall.attempt_settles σ st c with
      ⟨hf, st', hok, hdone⟩ | ⟨hf, e, st', herr, hundone⟩
    · have hrun : c.run σ st = (c.code false, st') := by
        unfold CoreCall.run
        rw [hok]
      rw [hrun]
      exact answers_done hcore hf hdone
    · have hrun : c.run σ st = (c.code true, st') := by
        unfold CoreCall.run
        rw [herr]
      rw [hrun]
      exact answers_undone hcore hf hundone

end Machine

/-! ### A blob that a failed save brings to light -/

namespace Detour

/-- A path that goes through a directory and out of it again. -/
def path : Path := ⟨[.down "x", .up, .down "f"], false⟩

/-- An instance whose blob is kept there. -/
def surroundings : Surroundings := ⟨0, "device", .file path, .empty, .standard⟩

/-- A guest on a host with the file at the end of the path, without the directory on its way, and with
another directory where the save would put the file beside. -/
def machine : Machine :=
  ⟨⟨some (Memory.filled pageSize 0), none, true, .empty, [], []⟩,
    .fresh ⟨⟨[(["f"], .file [111, 108, 100]), (["f.tmp"], .directory)]⟩, none⟩⟩

/-- **A save that fails can bring a blob to light**: it makes the directory on the way, and a load finds
the file from then on. -/
theorem failed_save_reveals : ¬ machine.Succeeds surroundings (.storageSave 0 3) ∧
    ∃ m', machine.call surroundings "eea_storage_save" [.i32 0, .i32 3] = (some [.i32 0], m') ∧
      machine.host.storage.blob surroundings.blobPlace = none ∧
      m'.host.storage.blob surroundings.blobPlace = some [111, 108, 100] := by
  refine ⟨?_, _, rfl, rfl, rfl⟩
  rintro (⟨st, hst, -, hsave⟩ | hneeds)
  · obtain rfl := Option.some.inj hst
    cases hsave
  · cases hneeds

end Detour

end FlowHost
