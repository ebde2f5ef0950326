import FlowHost.Proofs.Outbox
import FlowHost.Proofs.Savings

/-!
# Beginning again

The file of the bundles holds the one that was accepted last, and that is also the one that was active
last. So an agent that begins on the disk that another one left goes on with the bundle of that one.

* `Agent.lastActive`: the bundle that was active last in a run.
* `Agent.Resumes`: how an agent begins on a disk.
* `Agent.run_resumed`: **after every run the file holds what was accepted last**, and the next agent
  begins with it.
-/

namespace FlowHost

open History

namespace Agent

variable {s : AgentSettings} {a a' : Agent} {content : Bytes} {q : Path}

/-- The identifier of the active bundle, if there is one. -/
def active? (a : Agent) : Option String := a.active.map (·.bundle)

/-- **The bundle that was active last in a run**, also if there is none at its end. -/
def lastActive (s : AgentSettings) (host : Host) (inputs : List Input) : Option String :=
  ((begin s (fresh host)).active?.toList ++
    along s (fun a x => (step s a x).active?.toList) (begin s (fresh host)) inputs).getLast?

/-! ### The active bundle -/

/-- **What is active after a load**: the new bundle, or what was active before unless the host crashed. -/
theorem swap_active (hs : Sound s a) (content : Bytes) (keep : Bool) :
    (∃ e, (swap s content keep a).1 = .error e ∧
        ((swap s content keep a).2.active? = a.active? ∨ (swap s content keep a).2.active? = none)) ∨
      ∃ bundle, Bundle.parse content = .ok bundle ∧
        (swap s content keep a).1 = .ok bundle.identifier ∧
        (swap s content keep a).2.active? = some bundle.identifier ∧
        (swap s content keep a).2.phase = a.phase := by
  obtain ⟨e, -, he⟩ | ⟨bundle, hb, he | ⟨e, es, host, -, he⟩ | ⟨candidate, es, host, -, hac, he⟩⟩ :=
    swap_cases s s.bundleFile content keep a
  · rw [he]
    exact .inl ⟨e, rfl, .inl rfl⟩
  · rw [he]
    exact .inl ⟨_, rfl, .inr rfl⟩
  · rw [he]
    exact .inl ⟨e, rfl, .inl rfl⟩
  · obtain ⟨_, _, _, _, _, hh⟩ := hs.promote hac keep
    obtain ⟨i, hfix, hcont, -⟩ := hh.active
    rw [he]
    refine .inr ⟨bundle, hb, rfl, ?_, by rw [hfix]⟩
    rw [hfix, active?, Option.map_some, hcont.bundle, hac.identifier]

/-- **What is active after a step**: the bundle that it accepts, or what was active before, or nothing. -/
theorem step_active (hs : Sound s a) (x : Input) :
    (∃ accepted, acceptance s a x = some accepted ∧
        (step s a x).active? = some accepted.identifier ∧
        ∃ bundle, Bundle.parse accepted.content = .ok bundle ∧
          bundle.identifier = accepted.identifier) ∨
      acceptance s a x = none ∧
        ((step s a x).active? = a.active? ∨ (step s a x).active? = none) := by
  obtain ⟨content, hx, -, he⟩ | ⟨hx, hcase⟩ := step_cases hs x
  · have hacc : acceptance s a x = (Load.mk content (swap s content true a).1).acceptance? := by
      rw [acceptance, hx]
      rfl
    rw [he, hacc]
    obtain ⟨e, hr, hactive⟩ | ⟨bundle, hb, hr, hactive, -⟩ := swap_active hs content true
    · exact .inr ⟨by rw [Load.acceptance?, hr], hactive⟩
    · exact .inl ⟨⟨content, bundle.identifier⟩, by rw [Load.acceptance?, hr], hactive, bundle, hb, rfl⟩
  · refine .inr ⟨by rw [acceptance, hx]; rfl, ?_⟩
    obtain ⟨-, he⟩ | ⟨es, h⟩ := hcase
    · rw [he]
      exact .inr rfl
    · obtain ⟨-, hnone⟩ | ⟨i, i', ha, ha', hc, -⟩ := h.active
      · exact .inr (by rw [active?, hnone]; rfl)
      · exact .inl (by rw [active?, active?, ha, ha', Option.map_some, Option.map_some, hc.bundle])

/-- **The bundle that was active last is the one that was accepted last**, if one was accepted, and else
the one from before. -/
theorem along_active (hs : Sound s a) {last : Option String}
    (hlast : a.active? = none ∨ a.active? = last) (xs : List Input) :
    (along s (fun a x => (step s a x).active?.toList) a xs).getLast?.or last =
      ((lastAcceptedFrom s a xs).map (·.identifier)).or last := by
  -- on the inputs to come; what was active last so far may not be active any more
  induction xs generalizing a last with
  | nil => rfl
  | cons x xs ih =>
    have hlist : ∀ o : Option String, o.toList.getLast? = o := by
      intro o
      cases o <;> rfl
    rw [along, List.getLast?_append, hlist, Option.or_assoc, lastAcceptedFrom_cons, Option.map_or,
      Option.or_assoc]
    have hnow : (step s a x).active?.or last = ((acceptance s a x).map (·.identifier)).or last := by
      obtain ⟨accepted, hacc, hactive, -⟩ | ⟨hacc, hactive⟩ := step_active hs x
      · rw [hacc, hactive]
        rfl
      · rw [hacc]
        obtain h | h := hactive
        · obtain h' | h' := hlast <;> rw [h, h']
          · rfl
          · cases last <;> rfl
        · rw [h]
          rfl
    rw [← hnow]
    refine ih (hs.step x) ?_
    cases h : (step s a x).active? with
    | none => exact .inl rfl
    | some bundle => exact .inr rfl

theorem lastActive_eq (s : AgentSettings) (host : Host) (inputs : List Input) :
    lastActive s host inputs =
      ((lastAccepted s host inputs).map (·.identifier)).or (begin s (fresh host)).active? := by
  obtain ⟨hs, -⟩ := begin_does s host
  rw [lastAccepted, ← along_active hs (.inr rfl) inputs, lastActive, List.getLast?_append]
  congr 1
  cases (begin s (fresh host)).active? <;> rfl

/-- What was accepted is a bundle with the identifier that the load returned. -/
theorem lastAcceptedFrom_parse (hs : Sound s a) {xs : List Input} {accepted : Acceptance}
    (h : lastAcceptedFrom s a xs = some accepted) :
    ∃ bundle, Bundle.parse accepted.content = .ok bundle ∧ bundle.identifier = accepted.identifier := by
  induction xs generalizing a with
  | nil => cases h
  | cons x xs ih =>
    rw [lastAcceptedFrom_cons, Option.or_eq_some_iff] at h
    obtain h | ⟨-, h⟩ := h
    · exact ih (hs.step x) h
    · obtain ⟨accepted', hacc, -, hb⟩ | ⟨hacc, -⟩ := step_active hs x
      · cases h.symm.trans hacc
        exact hb
      · cases h.symm.trans hacc

/-- An agent that does not run accepts nothing. -/
theorem lastAcceptedFrom_idle (hs : Sound s a) (hr : a.phase ≠ .running) (xs : List Input) :
    lastAcceptedFrom s a xs = none := by
  induction xs generalizing a with
  | nil => rfl
  | cons x xs ih =>
    have hacc : acceptance s a x = none := by
      obtain ⟨content, -, hr', -⟩ | ⟨hx, -⟩ := step_cases hs x
      · exact absurd hr' hr
      · rw [acceptance, hx]
        rfl
    rw [lastAcceptedFrom_cons, hacc, ih (hs.step x) (by rw [step_idle_phase hs hr x]; exact hr)]
    rfl

/-- An agent whose clock cannot tick accepts nothing. -/
theorem loopIntervalMs_ne_zero {host : Host} {inputs : List Input} {accepted : Acceptance}
    (h : lastAccepted s host inputs = some accepted) : s.options.loopIntervalMs ≠ 0 := by
  intro h0
  obtain ⟨hs, -⟩ := begin_does s host
  have hcrashed : (begin s (fresh host)).phase ≠ .running := by
    rw [begin, if_pos h0]
    exact fun hc => nomatch hc
  rw [lastAccepted, lastAcceptedFrom_idle hs hcrashed inputs] at h
  cases h

/-! ### The next agent -/

/-- **How an agent begins on a disk with `file` in the place of its bundles**: with a load of exactly that,
which saves nothing. -/
structure Resumes (s : AgentSettings) (host : Host) (q : Path) (file : Option Bytes) : Prop where
  loads : loadPersisted s (fresh host) =
    file.elim (fresh host) fun content => (swap s content false (fresh host)).2
  kept : (begin s (fresh host)).host.storage.kept (.file q) = file
  unsaved : ∃ es, (begin s (fresh host)).host.history = host.history ++ es ∧
    ∀ content, .persisted content ∉ es

/-- Where a load sees what is kept, an agent begins with it. -/
theorem resumes_of_blob (hq : s.bundleFile = some q)
    (hclear : ∀ p ∈ s.launcher.blobPlace.path?, q.ClearOf p) {host : Host} {file : Option Bytes}
    (hkept : host.storage.kept (.file q) = file) (hblob : host.storage.blob (.file q) = file) :
    Resumes s host q file := by
  obtain ⟨hkeeps, hunsaved⟩ := begin_keeps hq hclear host
  have hk : keptBundle s host = file := by rw [keptBundle, hq, Option.bind_some, hblob]
  refine ⟨by rw [loadPersisted_fresh, hk], ?_, hunsaved⟩
  rw [hkeeps.kept, hkept, Option.none_or]

/-- **An agent reports the bundle that it began with**, unless its clock cannot tick. -/
theorem begin_reports {host : Host} {identifier : String} (hl : loadPersisted s (fresh host) =
      (swap s content false (fresh host)).2)
    (hr : (swap s content false (fresh host)).1 = .ok identifier)
    (hticks : s.options.loopIntervalMs ≠ 0) :
    ∃ i, (handle s .info (begin s (fresh host))).1 = .ok (.info i) ∧ i.bundle = identifier := by
  obtain ⟨e, he, -⟩ | ⟨bundle, -, hok, hactive, hphase⟩ :=
    swap_active (sound_fresh (s := s) host) content false
  · cases hr.symm.trans he
  · cases hr.symm.trans hok
    have hbegin : begin s (fresh host) = (swap s content false (fresh host)).2 := by
      rw [begin, hl]
      exact if_neg hticks
    rw [hbegin]
    refine ⟨info s (swap s content false (fresh host)).2, ?_, ?_⟩
    · rw [handle, if_pos (by rw [hphase]; rfl)]
    · rw [active?] at hactive
      rw [info, Agent.bundle, hactive]
      rfl

/-- **An agent that begins on the disk that a run left.** Its settings and its host may be others, but for
the place of the bundles. -/
structure Succeeds (s : AgentSettings) (host : Host) (inputs : List Input) (q : Path) (s' : AgentSettings)
    (host' : Host) : Prop where
  /-- It begins with what the file holds, if a bundle was accepted or a load saw what was kept at first. -/
  resumes : (lastAccepted s host inputs).isSome = true ∨
      host.storage.blob (.file q) = host.storage.kept (.file q) →
    Resumes s' host' q ((run s host inputs).host.storage.kept (.file q))
  /-- If that goes well it reports the bundle that was active last. Its clock ticks if the one of the agent
  before it did. -/
  reports : ∀ accepted ∈ lastAccepted s host inputs, ∀ identifier,
    (swap s' accepted.content false (fresh host')).1 = .ok identifier →
    lastActive s host inputs = some identifier ∧
      ((s.options.loopIntervalMs ≠ 0 → s'.options.loopIntervalMs ≠ 0) →
        ∃ i, (handle s' .info (begin s' (fresh host'))).1 = .ok (.info i) ∧ i.bundle = identifier)

/-- **The file of the bundles holds the one that was accepted last**, octet for octet, in every run in which
the saves of bundles succeed, and what it held at first if none was accepted. An agent that begins on that
disk loads exactly this and does not save it again. If the load succeeds it reports the bundle that was
active last in the run before. -/
theorem run_resumed (s : AgentSettings) (host : Host) (inputs : List Input) (q : Path)
    (hq : s.bundleFile = some q) (hclear : ∀ p ∈ s.launcher.blobPlace.path?, q.ClearOf p)
    (hsaves : ∀ r ∈ bundleSaves s host inputs, r = .ok ()) :
    (run s host inputs).host.storage.kept (.file q) =
        ((lastAccepted s host inputs).map (·.content)).or (host.storage.kept (.file q)) ∧
      (∀ accepted ∈ lastAccepted s host inputs,
        (run s host inputs).host.storage.load (.file q) = .ok (some accepted.content)) ∧
      ∀ s' host', s'.bundleFile = some q → (∀ p ∈ s'.launcher.blobPlace.path?, q.ClearOf p) →
        host'.storage.disk = (run s host inputs).host.storage.disk →
        Succeeds s host inputs q s' host' := by
  have hkeeps := run_keeps s host inputs hq hclear hsaves
  have hload : ∀ accepted ∈ lastAccepted s host inputs,
      (run s host inputs).host.storage.blob (.file q) = some accepted.content := by
    intro accepted hacc
    exact hkeeps.blob _ (by rw [hacc]; rfl)
  refine ⟨hkeeps.kept, fun accepted hacc => Storage.blob_eq_some.1 (hload accepted hacc), ?_⟩
  intro s' host' hq' hclear' hdisk
  have hkept' : host'.storage.kept (.file q) = (run s host inputs).host.storage.kept (.file q) := by
    simp only [Storage.kept, hdisk]
  have hblob' : host'.storage.blob (.file q) = (run s host inputs).host.storage.blob (.file q) := by
    simp only [Storage.blob, Storage.load, hdisk]
  have hresumes : (lastAccepted s host inputs).isSome = true ∨
        host.storage.blob (.file q) = host.storage.kept (.file q) →
      Resumes s' host' q ((run s host inputs).host.storage.kept (.file q)) := by
    intro h
    refine resumes_of_blob hq' hclear' hkept' ?_
    rw [hblob']
    obtain h | h := h
    · obtain ⟨accepted, hacc⟩ := Option.isSome_iff_exists.1 h
      rw [hload accepted hacc, hkeeps.kept, hacc]
      rfl
    · exact hkeeps.blob_eq_kept h
  refine ⟨hresumes, fun accepted hacc identifier hr => ?_⟩
  obtain ⟨hs, -⟩ := begin_does s host
  obtain ⟨bundle, hparse, hid⟩ := lastAcceptedFrom_parse hs hacc
  -- the same octets are the same bundle, whoever loads them
  have hsame : identifier = accepted.identifier := by
    obtain ⟨e, he, -⟩ | ⟨bundle', hparse', hok, -⟩ :=
      swap_active (sound_fresh (s := s') host') accepted.content false
    · cases hr.symm.trans he
    · cases hparse.symm.trans hparse'
      cases hr.symm.trans hok
      exact hid
  refine ⟨by rw [lastActive_eq, hacc, hsame]; rfl, fun hticks => ?_⟩
  have hfile : (run s host inputs).host.storage.kept (.file q) = some accepted.content := by
    rw [hkeeps.kept, hacc]
    rfl
  have hbegins := (hresumes (.inl (by rw [hacc]; rfl))).loads
  rw [hfile] at hbegins
  exact begin_reports hbegins hr (hticks (loopIntervalMs_ne_zero hacc))

/-- Two bundles are accepted, one by a command and one by a message; two are rejected, of which one has left a
blob. Then the agent stops, and another one begins with what is on the disk alone. -/
theorem run_resumed_updates :
    let inputs : List Input := [.command (.load (Sample.content 100)), .command (.load (Sample.content 105)),
      .command (.event (.message Sample.settings.options.layout.flows (Sample.content 101))),
      .command (.load [1]), .release]
    let ended := run Sample.settings Sample.host inputs
    let host' := Host.fresh ⟨ended.host.storage.disk, none⟩
    let q : Path := ⟨[.down "bundle"], false⟩
    bundleSaves Sample.settings Sample.host inputs = [.ok (), .ok ()] ∧
      lastAccepted Sample.settings Sample.host inputs = some ⟨Sample.content 101, "e"⟩ ∧
      ended.host.storage.kept (.file q) = some (Sample.content 101) ∧
      Succeeds Sample.settings Sample.host inputs q Sample.settings host' ∧
      (swap Sample.settings (Sample.content 101) false (fresh host')).1 = .ok "e" := by
  intro inputs ended host' q
  have hsaves : bundleSaves Sample.settings Sample.host inputs = [.ok (), .ok ()] := by decide +kernel
  have hlast : lastAccepted Sample.settings Sample.host inputs = some ⟨Sample.content 101, "e"⟩ := by
    decide +kernel
  have hok : (swap Sample.settings (Sample.content 101) false (fresh host')).1 = .ok "e" := by decide +kernel
  have hclear : ∀ p ∈ Sample.settings.launcher.blobPlace.path?, q.ClearOf p :=
    fun p hp => (Sample.places_clear p hp q rfl).2
  obtain ⟨hkept, -, hnext⟩ := run_resumed Sample.settings Sample.host inputs q rfl hclear
    (by rw [hsaves]; simp)
  refine ⟨hsaves, hlast, ?_, hnext Sample.settings host' rfl hclear rfl, hok⟩
  rw [hkept, hlast]
  rfl

end Agent

end FlowHost
