import FlowHost.Proofs.Growth
import FlowHost.Proofs.Passing
import FlowHost.Proofs.Preparing
import FlowHost.Proofs.Sized
import FlowHost.Proofs.Stable

/-!
# Regions stay inside the memory

A guest can only announce regions that lie inside its memory, and a memory never shrinks. So the regions
of an instance lie inside its memory at all times (`Instance.HasRoom`), whatever the guest does.

* `Machine.fits_stable`: **regions that fit go on to fit** while guest code runs.
* `Launcher.launch_fits`, `Instance.call_hasRoom`, `pass_hasRoom`: so do those of an instance.
* `Instance.pass_ok`: texts that are passed are there when the guest is called.
-/

namespace FlowHost

/-! ### Core imports -/

/-- The announced regions lie inside a memory. -/
def BufferRegistry.Fits (r : BufferRegistry) (m : Memory) : Prop := ∀ b ∈ r.buffers, b.Inside m

theorem BufferRegistry.Fits.mono {r : BufferRegistry} {m m' : Memory} (h : r.Fits m)
    (hm : m.size ≤ m'.size) : r.Fits m' := by
  intro b hb
  obtain ⟨htopic, hpayload⟩ := h b hb
  exact ⟨Nat.le_trans htopic hm, Nat.le_trans hpayload hm⟩

namespace CoreM

variable {α β : Type} {st : CoreState}

/-- Work that keeps the size of the memory and what was announced. -/
def Sized (st : CoreState) (x : CoreM α) : Prop :=
  (after (x st)).memory.size = st.memory.size ∧ (after (x st)).buffers = st.buffers

theorem Sized.bind {x : CoreM α} {f : α → CoreM β} (hx : Sized st x)
    (hf : ∀ a st', x st = .ok a st' → Sized st' (f a)) : Sized st (x >>= f) := by
  unfold Sized at hx ⊢
  simp only [Bind.bind, EStateM.bind]
  cases hr : x st with
  | error e st' => rw [hr] at hx; exact hx
  | ok a st' =>
    rw [hr] at hx
    obtain ⟨hsize, hbuffers⟩ := hf a st' hr
    exact ⟨hsize.trans hx.1, hbuffers.trans hx.2⟩

theorem sized_get {f : CoreState → CoreM α} (h : Sized st (f st)) : Sized st (get >>= f) := h

theorem sized_onMemory {x : MemoryM α} (hx : x.Sized) : Sized st (onMemory x) := by
  have h := hx st.memory
  unfold Sized onMemory
  cases hr : x st.memory <;> rw [hr] at h <;> exact ⟨h, rfl⟩

theorem sized_ofExcept (x : Except Error α) : Sized st (ofExcept x) := by
  cases x <;> exact ⟨rfl, rfl⟩

end CoreM

namespace CoreCall

open FlowHost.CoreM

variable {σ : Surroundings} {st : CoreState}

/-- A core import keeps the size of the memory, and what was announced unless it is the announcement. -/
theorem attempt_sized (c : CoreCall) (hc : ∀ t tl p pl, c ≠ setBuffers t tl p pl) :
    CoreM.Sized st (c.attempt σ) := by
  cases c with
  | deviceId out cap len =>
    exact (sized_onMemory (MemoryM.sized_encodeTextAndLength _ _ _ _ _)).bind fun _ _ _ => ⟨rfl, rfl⟩
  | time out => exact sized_get (sized_onMemory (MemoryM.sized_write _ _))
  | send t tl p pl qos =>
    refine (sized_onMemory (MemoryM.sized_decodeText _ _)).bind fun topic st1 _ => ?_
    refine (sized_onMemory (MemoryM.sized_decodeText _ _)).bind fun payload st2 _ => sized_get ?_
    split
    · exact ⟨rfl, rfl⟩
    · exact ⟨rfl, rfl⟩
  | setBuffers t tl p pl => exact absurd rfl (hc t tl p pl)
  | sleep milliseconds => exact ⟨rfl, rfl⟩
  | storageRead out cap len =>
    refine sized_get ((sized_ofExcept _).bind fun found st1 _ => ?_)
    cases found with
    | none => exact ⟨rfl, rfl⟩
    | some blob =>
      exact (sized_onMemory (MemoryM.sized_encodeBytesAndLength _ _ _ _ _)).bind fun _ _ _ => ⟨rfl, rfl⟩
  | storageSave ptr len =>
    refine (sized_onMemory (MemoryM.sized_read _ _)).bind fun blob st1 _ => sized_get ?_
    have hset : ∀ host, CoreM.Sized st1 (set { st1 with host := host } : CoreM PUnit) :=
      fun _ => ⟨rfl, rfl⟩
    exact (hset _).bind fun _ _ _ => sized_ofExcept _
  | trace ptr len level =>
    have hread : MemoryM.Sized (MemoryM.decodeTextLossy (address ptr) (capacity len)) :=
      (MemoryM.sized_read _ _).bind fun _ => MemoryM.sized_pure _
    exact (sized_onMemory hread).bind fun _ _ _ => ⟨rfl, rfl⟩

/-- **Only regions that lie inside the memory can be announced.** -/
theorem setBuffers_fits (t tl p pl : Int32) (h : st.buffers.Fits st.memory) :
    (after ((setBuffers t tl p pl).attempt σ st)).buffers.Fits
      (after ((setBuffers t tl p pl).attempt σ st)).memory := by
  simp only [attempt, onMemory, MemoryM.check, bind, EStateM.bind]
  by_cases ht : st.memory.contains (address t).toNat (capacity tl) = true
  · by_cases hp : st.memory.contains (address p).toNat (capacity pl) = true
    · simp only [ht, hp, if_true, CoreM.get_apply]
      unfold BufferRegistry.negotiate
      cases hb : st.buffers.buffers with
      | some b => exact h
      | none =>
        have htopic : (address t).toNat + capacity tl ≤ st.memory.size := of_decide_eq_true ht
        have hpayload : (address p).toNat + capacity pl ≤ st.memory.size := of_decide_eq_true hp
        intro b hmem
        cases hmem
        exact ⟨htopic, hpayload⟩
    · simp only [ht, hp, if_true]
      exact h
  · simp only [ht]
    exact h

/-- The announcement is no part of the memory. -/
theorem setBuffers_memory (t tl p pl : Int32) :
    (after ((setBuffers t tl p pl).attempt σ st)).memory = st.memory := by
  simp only [attempt, onMemory, MemoryM.check, bind, EStateM.bind]
  by_cases ht : st.memory.contains (address t).toNat (capacity tl) = true
  · by_cases hp : st.memory.contains (address p).toNat (capacity pl) = true
    · simp only [ht, hp, if_true, CoreM.get_apply]
      cases st.buffers.negotiate ⟨Region.ofWords t tl, Region.ofWords p pl⟩ <;> rfl
    · simp only [ht, hp, if_true]
      rfl
  · simp only [ht]
    rfl

/-- **No core import changes the size of the memory.** -/
theorem attempt_size (c : CoreCall) : (after (c.attempt σ st)).memory.size = st.memory.size := by
  by_cases hc : ∃ t tl p pl, c = setBuffers t tl p pl
  · obtain ⟨t, tl, p, pl, rfl⟩ := hc
    rw [setBuffers_memory]
  · exact (c.attempt_sized fun t tl p pl he => hc ⟨t, tl, p, pl, he⟩).1

/-- Regions that fit go on to fit while a core import works. -/
theorem attempt_fits (c : CoreCall) (h : st.buffers.Fits st.memory) :
    (after (c.attempt σ st)).buffers.Fits (after (c.attempt σ st)).memory := by
  by_cases hc : ∃ t tl p pl, c = setBuffers t tl p pl
  · obtain ⟨t, tl, p, pl, rfl⟩ := hc
    exact setBuffers_fits t tl p pl h
  · have hsized : CoreM.Sized st (c.attempt σ) := c.attempt_sized fun t tl p pl he => hc ⟨t, tl, p, pl, he⟩
    obtain ⟨hsize, hbuffers⟩ := hsized
    rw [hbuffers]
    exact h.mono (Nat.le_of_eq hsize.symm)

end CoreCall

/-- Texts that are put into the regions of a guest stay within its memory. -/
theorem MessageBuffers.sized_write (b : MessageBuffers) (first payload : String) :
    MemoryM.Sized (b.write first payload) :=
  (MemoryM.sized_check _ _).bind fun _ => (MemoryM.sized_check _ _).bind fun _ =>
    (MemoryM.sized_encodeText _ _ _).bind fun _ => (MemoryM.sized_encodeText _ _ _).bind fun _ =>
      MemoryM.sized_pure _

/-! ### Guests -/

/-- **A guest whose announced regions lie inside its memory.** -/
def GuestState.Fits (g : GuestState) : Prop := ∀ m ∈ g.memory, g.buffers.Fits m

/-- All native functions keep the size of the memory. -/
def NativeTable.KeepsSize (t : NativeTable) : Prop := ∀ f ∈ t.functions, f.KeepsSize

variable {σ : Surroundings} {m m' : Machine}

/-- Regions fit in a memory that did not shrink. -/
theorem GuestState.Fits.resize {g g' : GuestState} {memory memory' : Memory} (h : g.Fits)
    (hm : g.memory = some memory) (hm' : g'.memory = some memory') (hsize : memory.size ≤ memory'.size)
    (hb : g'.buffers = g.buffers) : g'.Fits := by
  intro m hmem
  obtain rfl : memory' = m := Option.some.inj (hm'.symm.trans hmem)
  rw [hb]
  exact (h memory hm).mono hsize

namespace Machine

theorem grow_fits (limits : Limits) (delta : Nat) (h : m.guest.Fits) :
    (m.grow limits delta).2.guest.Fits := by
  cases hm : m.guest.memory with
  | none => rw [grow_of_none hm]; exact h
  | some memory =>
    rw [grow_of_some hm]
    exact h.resize hm rfl (memory.size_le_grow _ _ _) rfl

theorem call_fits (hσ : σ.natives.KeepsSize) {function : String} {arguments : List Value}
    {r : Option (List Value)} (hc : m.call σ function arguments = (r, m')) (h : m.guest.Fits) :
    m'.guest.Fits := by
  cases call_called hc with
  | idle => exact h
  | core c hm hst =>
    have hfits := @CoreCall.attempt_fits σ ⟨_, m.guest.buffers, m.host⟩ c (h _ hm)
    rw [hst] at hfits
    intro memory hmemory
    obtain rfl := Option.some.inj hmemory
    exact hfits
  | @native memory f st arguments hm hf hst =>
    have hsize : st.memory.size = memory.size := by
      rw [← hst]
      exact f.invoke_sized (hσ f hf) σ.deviceId arguments ⟨memory, m.host.output⟩
    exact h.resize hm rfl (Nat.le_of_eq hsize.symm) rfl

/-- **Whatever a guest does, its regions go on to fit.** -/
theorem fits_stable (hσ : σ.natives.KeepsSize) : GuestState.Stable σ GuestState.Fits := by
  intro x y hmove h
  cases hmove with
  | pages => exact h
  | grow => exact grow_fits _ _ h
  | load => exact h
  | store hm => exact h.resize hm rfl (Nat.le_refl _) rfl
  | spare ha =>
    obtain ⟨_, _, -, -, rfl⟩ := access_eq_some ha
    exact h
  | getGlobal => exact h
  | setGlobal => exact h
  | call hc => exact call_fits hσ hc h
  | trapped hc => exact call_fits hσ hc h

end Machine

/-- A guest has announced nothing before anything of it runs. -/
theorem Module.prepare_fits {config : InstanceConfig} {natives : NativeTable} {limits : Limits} {M : Module}
    {guest : GuestState} (h : M.prepare config natives limits = .ok guest) : guest.Fits := by
  obtain ⟨provided, hp⟩ := prepare_ok h
  intro m _ b hb
  rw [hp.buffers] at hb
  cases hb

/-- **The regions of a candidate that was launched fit.** -/
theorem Launcher.launch_fits {l : Launcher} (hl : l.natives.KeepsSize) {n : Nat} {bundle : Bundle}
    {connected : Bool} {host host' : Host} {candidate : Instance}
    (h : l.launch n bundle connected host = (.ok candidate, host')) : candidate.guest.Fits := by
  obtain ⟨M, guest, exports, m', -, hprepare, hsettle, rfl, -⟩ := launch_ok h
  have hstable : GuestState.Stable (l.surroundings n) GuestState.Fits := Machine.fits_stable hl
  have hfits := settle_keeps hstable l M connected ⟨guest, host⟩ (Module.prepare_fits hprepare)
  rw [hsettle] at hfits
  exact hfits

namespace Instance

/-- **An instance whose announced regions lie inside its memory**, and whose native functions keep it so. -/
structure HasRoom (i : Instance) : Prop where
  natives : i.surroundings.natives.KeepsSize
  fits : i.guest.Fits

theorem call_hasRoom {i : Instance} (h : i.HasRoom) (host : Host) (e : EntryPoint)
    (arguments : List Value) : (i.call host e arguments).after.HasRoom := by
  have hfits := call_keeps (Machine.fits_stable h.natives) h.fits host e arguments
  obtain ⟨_, _, -, hy⟩ := call_yields (Q := none) (i := i) (h := host) e arguments
  exact ⟨hy.continues.surroundings ▸ h.natives, hfits⟩

/-- **Texts that are passed to an instance with room for them are there** when it is called. -/
theorem pass_ok {i : Instance} (h : i.HasRoom) {b : MessageBuffers} {memory : Memory}
    (hb : i.guest.buffers.buffers = some b) (hm : i.guest.memory = some memory) (first payload : String) :
    ∃ one two memory', memory'.size = memory.size ∧ b.Carries first payload one two memory' ∧
      ∀ host e,
        i.pass host e first payload = { i with guest := { i.guest with memory := some memory' } }.call host e
            [.i32 one, .i32 two] ∧
          i.passing host e first payload =
            [{ i with guest := { i.guest with memory := some memory' } }.activity host e
              [.i32 one, .i32 two]] := by
  have hinside : b.Inside memory := h.fits memory hm b hb
  obtain ⟨one, two, memory', hw, hsize, hcarries⟩ := MessageBuffers.write_ok hinside first payload
  have hget : i.guest.buffers.get = .ok b := by simp only [BufferRegistry.get, hb]
  refine ⟨_, _, memory', hsize, hcarries, fun host e => ⟨?_, ?_⟩⟩
  · simp only [pass, hget, hm, hw]
  · simp only [passing, hget, hm, hw]

/-- Nothing is passed to a guest that has announced nothing. -/
theorem pass_unannounced {i : Instance} (hb : i.guest.buffers.buffers = none) (host : Host) (e : EntryPoint)
    (first payload : String) :
    i.pass host e first payload = ⟨.error .buffersNotNegotiated, i, host⟩ ∧
      i.passing host e first payload = [] := by
  have hget : i.guest.buffers.get = .error .buffersNotNegotiated := by simp only [BufferRegistry.get, hb]
  exact ⟨by simp only [pass, hget], by simp only [passing, hget]⟩

theorem pass_hasRoom {i : Instance} (h : i.HasRoom) (host : Host) (e : EntryPoint)
    (first payload : String) : (i.pass host e first payload).after.HasRoom := by
  cases hb : i.guest.buffers.buffers with
  | none =>
    rw [(pass_unannounced hb host e first payload).1]
    exact h
  | some b =>
    cases hm : i.guest.memory with
    | none =>
      have hsame : (i.pass host e first payload).after = i := by
        simp only [pass, BufferRegistry.get, hb, hm]
      rw [hsame]
      exact h
    | some memory =>
      obtain ⟨one, two, memory', hsize, -, hpass⟩ := pass_ok h hb hm first payload
      rw [(hpass host e).1]
      have hfits : GuestState.Fits { i.guest with memory := some memory' } :=
        h.fits.resize hm rfl (Nat.le_of_eq hsize.symm) rfl
      have hroom : HasRoom { i with guest := { i.guest with memory := some memory' } } :=
        ⟨h.natives, hfits⟩
      exact call_hasRoom hroom host e _

end Instance

/-- **A candidate that was launched has room** for what will be passed to it. -/
theorem Launcher.launch_hasRoom {l : Launcher} (hl : l.natives.KeepsSize) {n : Nat} {bundle : Bundle}
    {connected : Bool} {host host' : Host} {candidate : Instance}
    (h : l.launch n bundle connected host = (.ok candidate, host')) : candidate.HasRoom := by
  have hfits := launch_fits hl h
  obtain ⟨M, guest, exports, m', -, -, -, rfl, -⟩ := launch_ok h
  exact ⟨hl, hfits⟩

end FlowHost
