import FlowHost.Proofs.Answers
import FlowHost.Proofs.Delivery
import FlowHost.Proofs.Lives

/-!
# Buffers are announced once

A guest may ask for the announcement of its buffers as often as it likes, with any words, from its start
function and from any export. The first regions that lie inside the memory are kept; every other call is
refused, and changes nothing.

* `ImportCall.announces`: what a call comes to.
* `Behaviour.run_negotiates`, `Launcher.Lives.negotiates`: **what is announced after any stretch of guest code**,
  and at each call on the way, are the first regions that fitted.
* `Agent.negotiated_once`: what this means for messages and triggers, in every life of an instance.
-/

namespace FlowHost

instance (r : Region) (m : Memory) : Decidable (r.Inside m) :=
  inferInstanceAs (Decidable (r.ptr.toNat + r.len.toNat ≤ m.size))

instance (b : MessageBuffers) (m : Memory) : Decidable (b.Inside m) :=
  inferInstanceAs (Decidable (b.topic.Inside m ∧ b.payload.Inside m))

/-! ### One call -/

/-- The regions that a core import announces, if it announces any. -/
def CoreCall.regions? : CoreCall → Option MessageBuffers
  | setBuffers topic topicLen payload payloadLen =>
    some ⟨.ofWords topic topicLen, .ofWords payload payloadLen⟩
  | _ => none

namespace ImportCall

/-- The regions that a call announces, if it is an announcement. -/
def regions? (c : ImportCall) : Option MessageBuffers :=
  ((Machine.words? c.arguments).bind (CoreCall.ofWords? c.function)).bind CoreCall.regions?

/-- **The regions that a call announces in bounds**: both lie inside the memory that the host knows by
then. -/
def fitting? (c : ImportCall) : Option MessageBuffers :=
  c.regions?.filter fun b => c.machine.core?.any fun st => decide (b.Inside st.memory)

end ImportCall

/-- The machine after regions were announced: nothing else is different. -/
def Machine.announce (m : Machine) (b : MessageBuffers) : Machine :=
  { m with guest := { m.guest with buffers := ⟨some b⟩ } }

/-- **The first regions inside the memory are announced**, and no others. -/
theorem CoreCall.setBuffers_attempt {σ : Surroundings} {st : CoreState} (t tl p pl : Int32)
    {b : MessageBuffers} (hb : b = ⟨.ofWords t tl, .ofWords p pl⟩) :
    ((b.Inside st.memory ∧ st.buffers.buffers = none) ∧
        (setBuffers t tl p pl).attempt σ st = .ok () { st with buffers := ⟨some b⟩ }) ∨
      (¬ (b.Inside st.memory ∧ st.buffers.buffers = none) ∧
        ∃ e, (setBuffers t tl p pl).attempt σ st = .error e st) := by
  subst hb
  simp only [attempt, bind, EStateM.bind, CoreM.onMemory]
  rcases MemoryM.check_cases (address t) (capacity tl) st.memory with ⟨ht, hct⟩ | ⟨ht, e, hct⟩
  · rcases MemoryM.check_cases (address p) (capacity pl) st.memory with ⟨hp, hcp⟩ | ⟨hp, e, hcp⟩
    · simp only [hct, hcp, CoreM.get_apply, BufferRegistry.negotiate]
      cases hr : st.buffers.buffers with
      | none => exact .inl ⟨⟨⟨ht, hp⟩, rfl⟩, rfl⟩
      | some b =>
        refine .inr ⟨?_, _, rfl⟩
        rintro ⟨-, h⟩
        cases h
    · exact .inr ⟨fun h => hp h.1.2, e, by simp only [hct, hcp]⟩
  · exact .inr ⟨fun h => ht h.1.1, e, by simp only [hct]⟩

namespace ImportCall

variable {σ : Surroundings} {c : ImportCall} {b : MessageBuffers}

/-- An announcement is a call of the core import, with the words of its regions. -/
theorem regions_eq_some (h : c.regions? = some b) : ∃ t tl p pl,
    (Machine.words? c.arguments).bind (CoreCall.ofWords? c.function) = some (.setBuffers t tl p pl) ∧
      b = ⟨.ofWords t tl, .ofWords p pl⟩ := by
  obtain ⟨call, hcall, hb⟩ := Option.bind_eq_some_iff.1 h
  cases call with
  | setBuffers t tl p pl => exact ⟨t, tl, p, pl, hcall, (Option.some.inj hb).symm⟩
  | _ => cases hb

/-- Regions fit if the host knows a memory in which they lie. -/
theorem fitting_iff (h : c.regions? = some b) :
    c.fitting? = some b ↔ ∃ st, c.machine.core? = some st ∧ b.Inside st.memory := by
  unfold fitting?
  rw [h]
  cases c.machine.core? <;> simp [Option.filter_some]

/-- What fits was announced. -/
theorem regions_of_fitting (h : c.fitting? = some b) : c.regions? = some b :=
  (Option.filter_eq_some_iff.1 h).1

/-- **What an announcement comes to.** The first in bounds is kept and answered with zero, every other one is
answered with one and changes nothing. -/
theorem announces (σ : Surroundings) (h : c.regions? = some b) :
    c.machine.call σ c.function c.arguments =
      if c.machine.guest.buffers.buffers = none ∧ c.fitting? = some b then
        (some [.i32 0], c.machine.announce b)
      else (some [.i32 1], c.machine) := by
  obtain ⟨t, tl, p, pl, hcall, hb⟩ := regions_eq_some h
  have hmachine : c.machine.call σ c.function c.arguments =
      (some [.i32 (c.machine.callCore σ (.setBuffers t tl p pl)).1],
        (c.machine.callCore σ (.setBuffers t tl p pl)).2) := by
    unfold Machine.call
    rw [hcall]
  rw [hmachine]
  cases hcore : c.machine.core? with
  | none =>
    have hno : ¬ c.fitting? = some b := by
      rw [fitting_iff h, hcore]
      rintro ⟨_, hst, -⟩
      cases hst
    rw [if_neg fun hh => hno hh.2, Machine.callCore_none _ hcore]
    rfl
  | some st =>
    have hsame : c.machine.withCore st = c.machine := Machine.withCore_core? hcore
    have hbuffers : st.buffers = c.machine.guest.buffers := congrArg (·.guest.buffers) hsame
    have hfits : c.fitting? = some b ↔ b.Inside st.memory := by
      rw [fitting_iff h, hcore]
      simp
    rw [Machine.callCore_some _ hcore, CoreCall.run]
    rcases @CoreCall.setBuffers_attempt σ st t tl p pl b hb with ⟨⟨hin, hnone⟩, hok⟩ | ⟨hno, e, herr⟩
    · rw [if_pos ⟨hbuffers ▸ hnone, hfits.2 hin⟩, hok]
      have hannounced : c.machine.withCore { st with buffers := ⟨some b⟩ } =
          (c.machine.withCore st).announce b := rfl
      rw [← hsame, ← hannounced]
      rfl
    · rw [if_neg fun hh => hno ⟨hfits.1 hh.2, hbuffers ▸ hh.1⟩, herr]
      rw [hsame]
      rfl

end ImportCall

/-! ### Stretches of guest code -/

/-- Whether the host knows the guest's memory. -/
def GuestState.knows (g : GuestState) : Bool := g.isKnown && g.memory.isSome

/-- **How the announcements among calls come out**, on the way from a guest to what becomes of it: after any number
of calls, what is announced is what was announced before, or else the first regions that fitted. -/
structure GuestState.Negotiates (g : GuestState) (cs : List ImportCall) (g' : GuestState) : Prop where
  registry : g'.buffers.buffers = g.buffers.buffers.or (cs.findSome? ImportCall.fitting?)
  during : ∀ before c later, cs = before ++ c :: later →
    c.machine.guest.buffers.buffers = g.buffers.buffers.or (before.findSome? ImportCall.fitting?)
  knows : g'.knows = g.knows
  known : ∀ c ∈ cs, c.machine.guest.knows = g.knows

namespace GuestState.Negotiates

variable {g g' g'' : GuestState} {cs cs' : List ImportCall}

/-- A stretch without calls announces nothing. -/
theorem quiet (hb : g'.buffers = g.buffers) (hk : g'.knows = g.knows) : Negotiates g [] g' := by
  refine ⟨by rw [hb]; simp, fun _ _ _ h => ?_, hk, fun c hc => nomatch hc⟩
  simp at h

theorem refl : Negotiates g [] g := quiet rfl rfl

theorem trans (h : Negotiates g cs g') (h' : Negotiates g' cs' g'') : Negotiates g (cs ++ cs') g'' := by
  refine ⟨?_, fun before c later hcs => ?_, h'.knows.trans h.knows, fun c hc => ?_⟩
  · rw [h'.registry, h.registry, List.findSome?_append, Option.or_assoc]
  · -- the call is one of the first stretch or one of the second
    rcases List.append_eq_append_iff.1 hcs with ⟨rest, hbefore, hcs'⟩ | ⟨rest, hcs, hrest⟩
    · rw [hbefore, h'.during _ c later hcs', h.registry, List.findSome?_append, Option.or_assoc]
    · cases rest with
      | nil =>
        rw [List.append_nil] at hcs
        rw [h'.during [] c later hrest.symm, h.registry, hcs, List.findSome?_nil, Option.or_none]
      | cons d rest =>
        obtain ⟨rfl, -⟩ := List.cons.inj hrest
        exact h.during before c rest hcs
  · exact (List.mem_append.1 hc).elim (h.known c) fun hc => (h'.known c hc).trans h.knows

/-- One call. -/
theorem single {c : ImportCall} (hb : g'.buffers.buffers = c.machine.guest.buffers.buffers.or c.fitting?)
    (hk : g'.knows = c.machine.guest.knows) : Negotiates c.machine.guest [c] g' := by
  refine ⟨by rw [hb]; cases h : c.fitting? <;> simp [h], fun before d later hcs => ?_, hk, fun d hd => ?_⟩
  · obtain rfl : before = [] := by
      cases before with
      | nil => rfl
      | cons e rest => simp at hcs
    obtain ⟨rfl, -⟩ := List.cons.inj hcs
    simp
  · rw [List.mem_singleton.1 hd]

end GuestState.Negotiates

namespace Machine

variable {σ : Surroundings} {m m' : Machine}

/-- No call but an announcement has to do with the regions. -/
theorem call_buffers {function : String} {arguments : List Value} {r : Option (List Value)}
    (hno : ImportCall.regions? ⟨function, arguments, m⟩ = none)
    (h : m.call σ function arguments = (r, m')) : m'.guest.buffers = m.guest.buffers := by
  unfold call at h
  cases hcall : (words? arguments).bind (CoreCall.ofWords? function) with
  | some c =>
    have hother : ∀ t tl p pl, c ≠ .setBuffers t tl p pl := by
      rintro t tl p pl rfl
      simp [ImportCall.regions?, hcall, CoreCall.regions?] at hno
    simp only [hcall] at h
    obtain ⟨-, rfl⟩ := Prod.mk.inj h
    cases hcore : m.core? with
    | none => rw [callCore_none c hcore]
    | some st =>
      have hst : st.buffers = m.guest.buffers := congrArg (·.guest.buffers) (withCore_core? hcore)
      have hsized : CoreM.Sized st (c.attempt σ) := c.attempt_sized hother
      rw [callCore_some c hcore, CoreCall.run_snd, ← hst]
      exact hsized.2
  | none =>
    simp only [hcall] at h
    split at h
    · unfold callNative at h
      split at h
      · cases h; rfl
      · split at h
        · split at h <;> cases h <;> rfl
        · cases h; rfl
    · cases h; rfl

/-- **A call of an import** announces the regions that it announces in bounds, if it is the first to do so. -/
theorem call_negotiates {function : String} {arguments : List Value} {r : Option (List Value)}
    (h : m.call σ function arguments = (r, m')) :
    m.guest.Negotiates [⟨function, arguments, m⟩] m'.guest := by
  obtain ⟨_, hw⟩ := call_works (Q := none) h
  have hknows : m'.guest.knows = m.guest.knows := by
    unfold GuestState.knows
    rw [hw.isKnown, hw.memory]
  refine .single (c := ⟨function, arguments, m⟩) ?_ hknows
  cases hb : ImportCall.regions? ⟨function, arguments, m⟩ with
  | some b =>
    have hannounces := ImportCall.announces σ hb
    simp only [h] at hannounces
    show m'.guest.buffers.buffers = m.guest.buffers.buffers.or _
    by_cases hfirst : m.guest.buffers.buffers = none ∧
        ImportCall.fitting? ⟨function, arguments, m⟩ = some b
    · rw [if_pos hfirst] at hannounces
      rw [(Prod.mk.inj hannounces).2, hfirst.1, hfirst.2]
      rfl
    · rw [if_neg hfirst] at hannounces
      rw [(Prod.mk.inj hannounces).2]
      cases hm : m.guest.buffers.buffers with
      | some b' => rfl
      | none =>
        have hnone : ImportCall.fitting? ⟨function, arguments, m⟩ = none := by
          cases hf : ImportCall.fitting? ⟨function, arguments, m⟩ with
          | none => rfl
          | some b' =>
            have hb' : b = b' := Option.some.inj (hb.symm.trans (ImportCall.regions_of_fitting hf))
            exact absurd ⟨hm, hb' ▸ hf⟩ hfirst
        rw [hnone]
        rfl
  | none =>
    -- no other call has to do with the regions
    have hnone : ImportCall.fitting? ⟨function, arguments, m⟩ = none := by
      unfold ImportCall.fitting?
      rw [hb]
      rfl
    show m'.guest.buffers.buffers = m.guest.buffers.buffers.or _
    rw [hnone, Option.or_none, call_buffers hb h]

end Machine

/-- **A run of guest code.** -/
theorem Behaviour.run_negotiates (σ : Surroundings) (b : Behaviour) (m : Machine) :
    m.guest.Negotiates (b.importCalls σ m) (b.run σ m).2.guest := by
  have htracks : ImportCall.Tracks σ fun m cs m' => m.guest.Negotiates cs m'.guest :=
    { quiet := fun hq => .quiet hq.buffers (by unfold GuestState.knows; rw [hq.isKnown, hq.memory])
      trans := .trans
      call := Machine.call_negotiates }
  exact run_tracks htracks b m

/-! ### Lives -/

namespace Activity

/-- The calls of imports that an activity makes, in their order. -/
def importCalls : Activity → List ImportCall
  | start σ code m => code.importCalls σ m
  | call σ function arguments body m =>
    (body arguments).importCalls σ (MachineM.recordEntry σ function arguments m)
  | request _ => []
  | save _ => []

/-- The calls of imports in activities, one after another. -/
def calls (as : List Activity) : List ImportCall := as.flatMap importCalls

theorem calls_append (as as' : List Activity) : calls (as ++ as') = calls as ++ calls as' := by
  simp [calls]

theorem calls_single (x : Activity) : calls [x] = x.importCalls := by
  simp [calls]

end Activity

open Activity (calls calls_append calls_single)

/-- **A call of an export**, whether it returns or traps. -/
theorem MachineM.enter_negotiates (σ : Surroundings) (function : String) (body : Body)
    (arguments : List Value) (m : Machine) :
    m.guest.Negotiates (Activity.call σ function arguments body m).importCalls
      (after (enter σ function body arguments m)).guest := by
  have hrun := Behaviour.run_negotiates σ (body arguments) (recordEntry σ function arguments m)
  unfold enter
  cases hr : (body arguments).run σ (recordEntry σ function arguments m) with
  | mk r m1 =>
    rw [hr] at hrun
    cases r with
    | none => exact hrun
    | some code =>
      simp only
      cases checkCode function code.toInt32 <;> exact hrun

/-- What is announced can be told entry by entry. -/
theorem GuestState.negotiates_tracks :
    Machine.Tracks fun m as m' => m.guest.Negotiates (calls as) m'.guest where
  refl _ := .refl
  trans h h' := by
    rw [calls_append]
    exact h.trans h'
  start σ code m := by
    rw [calls_single]
    exact Behaviour.run_negotiates σ code m
  enter σ function body arguments m := by
    rw [calls_single]
    exact MachineM.enter_negotiates σ function body arguments m

/-- **The announcements of a launch**, whatever comes of it: nothing is announced before. -/
theorem Launcher.launch_negotiates (l : Launcher) (n : Nat) (bundle : Bundle) (connected : Bool) (host : Host) :
    ∃ g g' : GuestState, g.buffers.buffers = none ∧
      g.Negotiates (calls (l.activities n bundle connected host)) g' ∧
      ∀ i host', l.launch n bundle connected host = (.ok i, host') → i.guest = g' := by
  have nothing : ∃ g g' : GuestState, g.buffers.buffers = none ∧ g.Negotiates (calls []) g' :=
    ⟨⟨none, none, false, .empty, [], []⟩, _, rfl, .refl⟩
  unfold launch activities
  cases l.compile bundle.binary with
  | none =>
    obtain ⟨g, g', hg, hn⟩ := nothing
    refine ⟨g, g', hg, hn, ?_⟩
    rintro i host' h
    cases h
  | some M =>
    simp only
    cases hp : M.prepare l.config l.natives l.limits with
    | error abort =>
      obtain ⟨g, g', hg, hn⟩ := nothing
      refine ⟨g, g', hg, hn, ?_⟩
      rintro i host' h
      cases h
    | ok guest =>
      obtain ⟨_, hprepared⟩ := Module.prepare_ok hp
      refine ⟨guest, _, by rw [hprepared.buffers]; rfl,
        settle_tracks GuestState.negotiates_tracks l (l.surroundings n) M connected ⟨guest, host⟩,
        fun i host' hlaunch => ?_⟩
      simp only at hlaunch
      cases hs : l.settle (l.surroundings n) M connected ⟨guest, host⟩ with
      | error e m => rw [hs] at hlaunch; cases hlaunch
      | ok exports m => rw [hs] at hlaunch; cases hlaunch; rfl

namespace Instance

/-- **A call of an entry point.** -/
theorem call_negotiates (i : Instance) (host : Host) (e : EntryPoint) (arguments : List Value) :
    i.guest.Negotiates (calls [i.activity host e arguments]) (i.call host e arguments).after.guest := by
  have hn := MachineM.enter_negotiates i.surroundings e.name (i.exports.entry e) arguments ⟨i.guest, host⟩
  rw [calls_single]
  unfold call onMachine
  cases hr : MachineM.enter i.surroundings e.name (i.exports.entry e) arguments ⟨i.guest, host⟩ with
  | ok u m => rw [hr] at hn; exact hn
  | error e m => rw [hr] at hn; exact hn

/-- To pass two texts announces nothing but what the guest does when it is called. -/
theorem pass_negotiates (i : Instance) (host : Host) (e : EntryPoint) (first payload : String) :
    i.guest.Negotiates (calls (i.passing host e first payload))
      (i.pass host e first payload).after.guest := by
  unfold pass passing
  cases i.guest.buffers.get with
  | error fault => exact .refl
  | ok buffers =>
    cases hm : i.guest.memory with
    | none => exact .refl
    | some memory =>
      have hwritten : ∀ written, i.guest.Negotiates [] { i.guest with memory := some written } :=
        fun written => .quiet rfl (by simp [GuestState.knows, hm])
      simp only
      cases buffers.write first payload memory with
      | error fault written => exact hwritten written
      | ok sizes written =>
        have hcall := call_negotiates { i with guest := { i.guest with memory := some written } } host e
          [.i32 (UInt32.ofNat sizes.1.written), .i32 (UInt32.ofNat sizes.2.written)]
        exact (hwritten written).trans hcall

end Instance

/-- **The announcements of a life.** Nothing was announced before it, and the host knows the memory. -/
theorem Launcher.Lives.negotiates {l : Launcher} {as : List Activity} {i : Instance} (h : l.Lives as i) :
    ∃ g : GuestState, g.buffers.buffers = none ∧ g.knows = true ∧ g.Negotiates (calls as) i.guest := by
  -- whatever is done with the instance goes on from where it was
  have hnext : ∀ {as as' i i'},
      (∃ g : GuestState, g.buffers.buffers = none ∧ g.knows = true ∧ g.Negotiates (calls as) i) →
      GuestState.Negotiates i (calls as') i' →
      ∃ g : GuestState, g.buffers.buffers = none ∧ g.knows = true ∧ g.Negotiates (calls (as ++ as')) i' := by
    rintro as as' i i' ⟨g, hg, hk, hn⟩ hn'
    exact ⟨g, hg, hk, by rw [calls_append]; exact hn.trans hn'⟩
  induction h with
  | @launch n bundle connected host host' i hl =>
    obtain ⟨g, g', hg, hn, hi⟩ := l.launch_negotiates n bundle connected host
    obtain rfl := hi i host' hl
    have hknows : i.guest.knows = true := by
      obtain hc | ⟨e, es, h', hc, -⟩ | ⟨candidate, es, h', hc, hac⟩ :=
        l.launch_cases none n bundle connected host
      · rw [hl] at hc
        cases hc
      · rw [hl] at hc
        cases hc
      · rw [hl] at hc
        cases hc
        unfold GuestState.knows
        rw [hac.isKnown, hac.memory]
        rfl
    exact ⟨g, hg, hn.knows ▸ hknows, hn⟩
  | @call as i _ host e arguments ih => exact hnext ih (i.call_negotiates host e arguments)
  | @pass as i _ host e first payload ih => exact hnext ih (i.pass_negotiates host e first payload)
  | lifecycle _ stage ih => exact ih

/-! ### Messages and triggers -/

/-- **Every announcement among calls comes out so**: the first regions in bounds are kept and answered with zero,
every other call is answered with one and leaves the guest and the host as they were. -/
def Surroundings.Settles (σ : Surroundings) (cs : List ImportCall) : Prop :=
  ∀ before c later b, cs = before ++ c :: later → c.regions? = some b →
    c.machine.call σ c.function c.arguments =
      if before.findSome? ImportCall.fitting? = none ∧ c.fitting? = some b then
        (some [.i32 0], c.machine.announce b)
      else (some [.i32 1], c.machine)

theorem GuestState.Negotiates.settles {g g' : GuestState} {cs : List ImportCall} (hg : g.buffers.buffers = none)
    (h : g.Negotiates cs g') (σ : Surroundings) : σ.Settles cs := by
  intro before c later b hcs hb
  rw [ImportCall.announces σ hb, h.during before c later hcs, hg, Option.none_or]

namespace Instance

/-- The outcome is none of those that there is only where regions are missing or lie outside. -/
structure Outcome.HasBuffers (o : Outcome) : Prop where
  negotiated : o.result ≠ .error .buffersNotNegotiated
  inBounds : ∀ offset size, o.result ≠ .error (.memoryOutOfBounds offset size)

/-- A call fails as a trap or by its result code. -/
theorem call_hasBuffers (i : Instance) (host : Host) (e : EntryPoint) (arguments : List Value) :
    (i.call host e arguments).HasBuffers := by
  obtain ⟨r, es, m', -, he⟩ := MachineM.enter_calls i.surroundings none e.name (i.exports.entry e)
    arguments ⟨i.guest, host⟩
  unfold call onMachine
  rw [he]
  cases r with
  | none => exact ⟨by simp, by simp⟩
  | some code =>
    by_cases h0 : code.toInt32 = 0
    · simp only [checkCode, if_pos h0]
      exact ⟨by simp, by simp⟩
    · simp only [checkCode, if_neg h0]
      exact ⟨by simp, by simp⟩

/-- **A message, or a trigger, that finds its buffers**: its texts are there when the export is called, and the call
is all that can fail. -/
def Passes (i : Instance) (b : MessageBuffers) (e : EntryPoint) (host : Host) (first payload : String)
    (o : Outcome) : Prop :=
  o.HasBuffers ∧ ∃ one two memory, b.Carries first payload one two memory ∧
    o = { i with guest := { i.guest with memory := some memory } }.call host e [.i32 one, .i32 two]

/-- **What an instance makes of the announcements in its life so far.** -/
structure Announced (as : List Activity) (i : Instance) : Prop where
  /-- The host knows the memory at every call of an import. -/
  known : ∀ c ∈ calls as, c.machine.guest.knows = true
  settles : i.surroundings.Settles (calls as)
  registry : i.guest.buffers.buffers = (calls as).findSome? ImportCall.fitting?
  /-- Nothing happens to messages and triggers before the first regions in bounds. -/
  early : (calls as).findSome? ImportCall.fitting? = none → i.lifecycle = .running → ∀ host first payload,
    i.deliver host first payload = ⟨.error .buffersNotNegotiated, i, host⟩ ∧
      i.trigger host first payload = ⟨.error .buffersNotNegotiated, i, host⟩
  /-- They are passed from then on. -/
  late : ∀ b, (calls as).findSome? ImportCall.fitting? = some b → i.lifecycle = .running →
    ∀ host first payload,
      i.Passes b .messageReceived host first payload (i.deliver host first payload) ∧
        i.Passes b .directTrigger host first payload (i.trigger host first payload)

end Instance

/-- **In every life** the first regions in bounds are the only ones, and good for all messages to come. -/
theorem Launcher.Lives.announced {l : Launcher} (hnatives : l.natives.KeepsSize) {as : List Activity}
    {i : Instance} (h : l.Lives as i) : i.Announced as := by
  obtain ⟨g, hg, hk, hn⟩ := h.negotiates
  have hregistry : i.guest.buffers.buffers = (calls as).findSome? ImportCall.fitting? := by
    rw [hn.registry, hg, Option.none_or]
  have hroom : i.HasRoom := h.lasting Agent.hasRoom_lasting (Launcher.launch_hasRoom hnatives)
  refine ⟨fun c hc => (hn.known c hc).trans hk, hn.settles hg _, hregistry, fun hnone hi host first payload => ?_,
    fun b hb hi host first payload => ?_⟩
  · unfold Instance.deliver Instance.trigger
    rw [if_pos hi, if_pos hi]
    exact ⟨(Instance.pass_unannounced (hregistry.trans hnone) host _ first payload).1,
      (Instance.pass_unannounced (hregistry.trans hnone) host _ first payload).1⟩
  · obtain ⟨-, hsome⟩ := Bool.and_eq_true_iff.1 (hn.knows.trans hk)
    obtain ⟨memory, hm⟩ := Option.isSome_iff_exists.1 hsome
    obtain ⟨one, two, memory', -, hcarries, hpass⟩ :=
      Instance.pass_ok hroom (hregistry.trans hb) hm first payload
    have hpasses : ∀ e, i.Passes b e host first payload (i.pass host e first payload) := by
      intro e
      rw [(hpass host e).1]
      exact ⟨Instance.call_hasBuffers _ host e _, one, two, memory', hcarries, rfl⟩
    unfold Instance.deliver Instance.trigger
    rw [if_pos hi, if_pos hi]
    exact ⟨hpasses _, hpasses _⟩

namespace Agent

variable {s : AgentSettings}

/-- **Buffers are announced once, and then for good.** A guest that was prepared has announced nothing. Whether a
launch succeeds or not, and in whatever order things are done with an instance afterwards, the first
regions in bounds are kept, and every other call is refused and changes nothing. Until then messages and triggers
are turned away; from then on they are passed. The active instance of a run knows of the calls that were
made under its own number, and of no others. -/
theorem negotiated_once (s : AgentSettings) (hnatives : s.launcher.natives.KeepsSize) :
    (∀ M guest, Module.prepare s.launcher.config s.launcher.natives s.launcher.limits M = .ok guest →
        guest.buffers = .empty) ∧
      (∀ n bundle connected host,
        (s.launcher.surroundings n).Settles (calls (s.launcher.activities n bundle connected host))) ∧
      (∀ as i, s.launcher.Lives as i → i.Announced as) ∧
      ∀ host inputs, ∀ i ∈ (run s host inputs).active,
        s.launcher.Lives (Activity.own i.surroundings.instanceId (activities s host inputs)) i := by
  refine ⟨fun M guest h => ?_, fun n bundle connected host => ?_, fun as i h => h.announced hnatives,
    fun host inputs => run_lives s host inputs⟩
  · obtain ⟨_, hprepared⟩ := Module.prepare_ok h
    exact hprepared.buffers
  · obtain ⟨g, g', hg, hn, -⟩ := s.launcher.launch_negotiates n bundle connected host
    exact hn.settles hg _

end Agent

namespace Sample

/-- The regions that the haggler wants: one at the start of a second page, and one without octets. -/
def wanted : MessageBuffers := ⟨⟨65536, 4⟩, ⟨0, 0⟩⟩

/-- A guest that asks for what it wants in its start function, before there is a second page. It asks again when it is
initialised, after it has grown its memory, and then for something else. -/
def haggler : Module :=
  { guest [(EntryPoint.init.name, .function EntryPoint.init.signature fun _ =>
      .grow 1 fun _ =>
        .call "eea_set_message_buffers" [.i32 65536, .i32 4, .i32 0, .i32 0] fun _ =>
          .call "eea_set_message_buffers" [.i32 0, .i32 4, .i32 4, .i32 2] fun _ => .done 0)] with
    start := some (.call "eea_set_message_buffers" [.i32 65536, .i32 4, .i32 0, .i32 0] fun _ => .done 0) }

/-- An agent with functions of its own, for which every bundle is a haggler. -/
def haggling : AgentSettings :=
  { settings with
    launcher := { settings.launcher with compile := fun _ => some haggler, natives := agentFunctions } }

/-- Two hagglers, one after the other. -/
def hagglers : List Agent.Input := [.command (.load (content 104)), .command (.load (content 105))]

end Sample

namespace Agent

/-- The second haggler gets what it wants by its own second call. -/
theorem negotiated_once_hagglers :
    Sample.haggling.launcher.natives.KeepsSize ∧
      ∃ i ∈ (run Sample.haggling Sample.host Sample.hagglers).active,
        i.Announced (Activity.own 1 (activities Sample.haggling Sample.host Sample.hagglers)) ∧
          i.guest.buffers.buffers = some Sample.wanted := by
  have hnatives : Sample.haggling.launcher.natives.KeepsSize := agentFunctions_keepSize
  obtain ⟨-, -, hannounced, hlives⟩ := negotiated_once Sample.haggling hnatives
  have hactive : (run Sample.haggling Sample.host Sample.hagglers).active.map
      (fun i => (i.surroundings.instanceId, i.guest.buffers.buffers)) = some (1, some Sample.wanted) := by
    decide +kernel
  obtain ⟨i, hi, hpair⟩ := Option.map_eq_some_iff.1 hactive
  obtain ⟨hid, hbuffers⟩ := Prod.mk.inj hpair
  have hown := hannounced _ i (hlives Sample.host Sample.hagglers i hi)
  rw [hid] at hown
  exact ⟨hnatives, i, hi, hown, hbuffers⟩

-- the calls of the second haggler, and what each announces in bounds
example : (calls (Activity.own 1 (activities Sample.haggling Sample.host Sample.hagglers))).map
    ImportCall.fitting? = [none, some Sample.wanted, some ⟨⟨0, 4⟩, ⟨4, 2⟩⟩] := by decide +kernel

end Agent

end FlowHost
