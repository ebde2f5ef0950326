import FlowHost.Proofs.Entrances

/-!
# Saves of bundles

An agent saves a bundle when it has accepted one that it was asked to load, and at no other time: not at
the start, when it loads the bundle that was kept, not after a rejection, and not while it serves
(`Agent.save_mem_stepActivities`). So the file of the bundles is left alone but for these saves.

* `Agent.acceptance`: the bundle that an input makes the agent accept, if it does.
* `Agent.bundleSaves`: what the saves of bundles in a run come to.
* `Agent.along_keeps`: **where they succeed, the file holds the bundle that was accepted last.**
-/

namespace FlowHost

open History

/-- A bundle keeps its octets as they were received, compressed or not. -/
theorem Bundle.parse_raw {raw : Bytes} {bundle : Bundle} (h : Bundle.parse raw = .ok bundle) :
    bundle.raw = raw := by
  simp only [Bundle.parse, bind, Except.bind] at h
  split at h
  · cases h
  · split at h
    · cases h
    · split at h
      · split at h
        · split at h
          · cases h
          · cases h
            rfl
        · cases h
      · cases h

/-- **A bundle in the history was saved by an activity.** -/
theorem History.Tells.persisted_mem {isOpen : Bool} {as : List Activity} {es : List Occurrence}
    {content : Bytes} (h : Tells isOpen as es) (hc : .persisted content ∈ es) : .save content ∈ as := by
  induction h with
  | nil => cases hc
  | @cons x as es es' hx _ ih =>
    rcases List.mem_append.1 hc with hc | hc
    · rw [List.mem_cons]
      left
      cases x with
      | start σ code m => exact absurd (hx _ hc) id
      | call σ function arguments body m =>
        obtain ⟨r, work, hw, rfl⟩ := hx
        simp only [List.mem_cons, List.mem_append, List.not_mem_nil, reduceCtorEq, or_false,
          false_or] at hc
        exact absurd (hw _ hc) id
      | request r =>
        rw [show es = _ from hx] at hc
        cases isOpen <;> simp at hc
      | save saved =>
        obtain rfl | rfl := hx
        · cases hc
        · simpa using hc
    · exact List.mem_cons_of_mem _ (ih hc)

/-- **Where no bundle is saved, the file of the bundles stays.** -/
theorem Host.Does.keeps {P : BlobPlace} {Q : Option Path} {q : Path} {h h' : Host} {as : List Activity}
    {es : List Occurrence} (hd : Host.Does h as h') (hl : Host.Leads P Q h es h')
    (hn : ∀ content, .save content ∉ as) (hq : q ∈ Q) (hc : ∀ p ∈ P.path?, q.ClearOf p) :
    Storage.Keeps (.file q) none h.storage h'.storage := by
  obtain ⟨es', he, ht⟩ := hd.history
  -- the two histories are the same one
  obtain rfl : es = es' := List.append_cancel_left (hl.history.symm.trans he)
  have hlast : lastBundle es = none := by
    simp only [lastBundle, List.getLast?_eq_none_iff, List.filterMap_eq_nil_iff]
    intro e hmem
    cases e with
    | persisted content => exact absurd (ht.persisted_mem hmem) (hn content)
    | _ => rfl
  rw [← hlast]
  exact hl.bundle q hq hc

/-- A bundle that was accepted: its octets as they were received, and its identifier. -/
structure Acceptance where
  content : Bytes
  identifier : String
  deriving DecidableEq

/-- The bundle of a load that was accepted. -/
def Load.acceptance? (l : Load) : Option Acceptance :=
  match l.result with
  | .ok identifier => some ⟨l.content, identifier⟩
  | .error _ => none

namespace Agent

variable {s : AgentSettings} {a : Agent} {content : Bytes} {q : Path}

/-! ### What is saved -/

theorem save_notMem_serving {work : Instance → Host → List Activity}
    (h : ∀ i host, .save content ∉ work i host) (a : Agent) : .save content ∉ serving a work := by
  unfold serving
  cases a.active with
  | none => exact List.not_mem_nil
  | some i => exact h i a.host

theorem save_notMem_passing (i : Instance) (host : Host) (e : EntryPoint) (first payload : String) :
    .save content ∉ i.passing host e first payload := by
  unfold Instance.passing
  split
  · split <;> simp [Instance.activity]
  · exact List.not_mem_nil

theorem save_notMem_closing (previous : Option Instance) (host : Host) :
    .save content ∉ closing previous host := by
  cases previous <;> simp [closing, Instance.activity]

/-- **A load saves its own octets and nothing else**, and only if it is to keep them. -/
theorem save_mem_loading {loaded : Bytes} {keep : Bool}
    (h : .save content ∈ loading s loaded keep a) : keep = true ∧ content = loaded := by
  unfold loading at h
  cases hb : Bundle.parse loaded with
  | error e => simp [hb] at h
  | ok bundle =>
    simp only [hb, List.mem_append] at h
    rcases h with h | h
    · exact absurd (s.launcher.activities_settling _ _ _ _ _ h) id
    · split at h
      · simp only [takeover, List.mem_append, save_notMem_closing, false_or] at h
        cases keep with
        | false => simp [Instance.activity] at h
        | true => simpa [Instance.activity, Bundle.parse_raw hb] using h
      · cases h

/-- **What an input saves is the bundle that it asks the agent to load.** -/
theorem save_mem_stepActivities {x : Input} (h : .save content ∈ stepActivities s a x) :
    asked s a x = some content := by
  have hcall : ∀ (e : EntryPoint) (arguments : List Value),
      .save content ∉ serving a fun i host => [i.activity host e arguments] :=
    fun e arguments => save_notMem_serving (fun i host => by simp [Instance.activity]) a
  have hpass : ∀ (e : EntryPoint) (first payload : String),
      .save content ∉ serving a fun i host => i.passing host e first payload :=
    fun e first payload => save_notMem_serving (fun i host => save_notMem_passing i host e first payload) a
  have hhandles := step_handles s a x
  generalize step s a x = a', stepActivities s a x = as at h hhandles
  cases hhandles with
  | load hr =>
    obtain ⟨-, rfl⟩ := save_mem_loading h
    exact if_pos hr
  | flow hr ht =>
    obtain ⟨-, rfl⟩ := save_mem_loading h
    exact if_pos ⟨hr, ht⟩
  | stop => simp [stopping, save_notMem_closing] at h
  | connect => simp [telling, hcall] at h
  | disconnect => exact absurd h (hcall _ _)
  | deliver => exact absurd h (hpass _ _ _)
  | trigger => exact absurd h (hpass _ _ _)
  | tick => exact absurd h (hcall _ _)
  | clock => cases h
  | info => cases h
  | idle => cases h

/-! ### Loads -/

/-- The storage as a load leaves it that saves nothing. -/
def unsaved (s : AgentSettings) (content : Bytes) (a : Agent) : Storage :=
  (swap s content false a).2.host.storage

/-- **A load that keeps its bundle is one that does not, with a save at the end if the bundle is
accepted.** -/
theorem swap_saves (hq : s.bundleFile = some q) (content : Bytes) (a : Agent) :
    (swap s content true a).1 = (swap s content false a).1 ∧
      (swap s content true a).2.host.storage =
        match (swap s content false a).1 with
        | .ok _ => ((unsaved s content a).save (.file q) content).2
        | .error _ => unsaved s content a := by
  unfold unsaved swap
  cases hb : Bundle.parse content with
  | error e => exact ⟨rfl, rfl⟩
  | ok bundle =>
    simp only
    cases s.launcher.launch a.count.attempts bundle a.isConnected a.host with
    | mk r host =>
      cases r with
      | error abort => cases abort <;> exact ⟨rfl, rfl⟩
      | ok candidate =>
        have hqueue : ∀ (b : Agent), (sendHello s b).host.storage = b.host.storage := by
          intro b
          simp only [sendHello, queue, Host.queue]
          split <;> rfl
        have hpersist : ∀ (b : Agent), (persist s content b).host.storage =
            (b.host.storage.save (.file q) content).2 := by
          intro b
          simp only [persist, hq]
          cases b.host.storage.save (.file q) content with
          | mk r storage => cases r <;> rfl
        refine ⟨rfl, ?_⟩
        simp only [Bundle.parse_raw hb, promote, if_true, hqueue, hpersist, Bool.false_eq_true,
          if_false]

/-- The storage is kept from what a load does that saves nothing. -/
theorem unsaved_keeps (hs : Sound s a) (hq : s.bundleFile = some q)
    (hclear : ∀ p ∈ s.launcher.blobPlace.path?, q.ClearOf p) (content : Bytes) :
    Storage.Keeps (.file q) none a.host.storage (unsaved s content a) := by
  obtain ⟨es, hl⟩ := swap_leads hs content false
  refine (swap_does hs content false).keeps hl (fun c hc => ?_) hq hclear
  cases (save_mem_loading hc).1

/-! ### Steps and runs -/

/-- **The bundle that an input makes the agent accept**: one that it was asked to load, by a command or
by a message, and whose candidate took over. -/
def acceptance (s : AgentSettings) (a : Agent) (x : Input) : Option Acceptance :=
  (asked s a x).bind fun content => (Load.mk content (swap s content true a).1).acceptance?

/-- The bundle that was accepted last in a run that goes on from an agent. -/
def lastAcceptedFrom (s : AgentSettings) (a : Agent) (xs : List Input) : Option Acceptance :=
  ((loadsFrom s a xs).filterMap Load.acceptance?).getLast?

/-- **The bundle that was accepted last in a run.** The one that was kept from before is not counted. -/
def lastAccepted (s : AgentSettings) (host : Host) (inputs : List Input) : Option Acceptance :=
  lastAcceptedFrom s (begin s (fresh host)) inputs

/-- What the save comes to that an input makes the agent attempt, if it does: one of the bundle that it
accepts, on what the load has left by then (`swap_saves`). -/
def bundleSave (s : AgentSettings) (a : Agent) (x : Input) : Option (Except Error Unit) :=
  s.bundleFile.bind fun q => (acceptance s a x).map fun accepted =>
    ((unsaved s accepted.content a).save (.file q) accepted.content).1

/-- **What the saves of bundles in a run come to**, in their order. -/
def bundleSaves (s : AgentSettings) (host : Host) (inputs : List Input) : List (Except Error Unit) :=
  along s (fun a x => (bundleSave s a x).toList) (begin s (fresh host)) inputs

theorem lastAcceptedFrom_cons (s : AgentSettings) (a : Agent) (x : Input) (xs : List Input) :
    lastAcceptedFrom s a (x :: xs) = (lastAcceptedFrom s (step s a x) xs).or (acceptance s a x) := by
  unfold lastAcceptedFrom
  rw [loadsFrom, List.filterMap_append, List.getLast?_append]
  congr 1
  unfold acceptance
  cases asked s a x with
  | none => rfl
  | some content =>
    simp only [Option.map_some, Option.toList_some, Option.bind_some, List.filterMap_cons,
      List.filterMap_nil]
    cases (Load.mk content (swap s content true a).1).acceptance? <;> rfl

/-- What a step does to the host. -/
theorem step_leads (hs : Sound s a) (x : Input) : ∃ es, s.Leads a.host es (step s a x).host := by
  obtain ⟨content, -, -, he⟩ | ⟨-, ⟨-, he⟩ | ⟨es, h⟩⟩ := step_cases hs x
  · rw [he]
    exact swap_leads hs content true
  · rw [he]
    obtain ⟨closing, -, h, -⟩ := stop_leads hs
    exact ⟨_, h⟩
  · exact ⟨es, h.leads⟩

/-- **A step leaves the bundle that it accepts in the file**, if the save succeeds, and else what there
was. -/
theorem step_keeps (hs : Sound s a) (hq : s.bundleFile = some q)
    (hclear : ∀ p ∈ s.launcher.blobPlace.path?, q.ClearOf p) (x : Input)
    (hsave : ∀ r ∈ bundleSave s a x, r = .ok ()) :
    Storage.Keeps (.file q) ((acceptance s a x).map (·.content)) a.host.storage
      (step s a x).host.storage := by
  obtain ⟨content, hx, -, he⟩ | ⟨hx, -⟩ := step_cases hs x
  · obtain ⟨hresult, hstorage⟩ := swap_saves hq content a
    have hunsaved := unsaved_keeps hs hq hclear content
    rw [he, hstorage]
    simp only [bundleSave, hq, acceptance, hx, Option.bind_some, hresult] at hsave ⊢
    cases hr : (swap s content false a).1 with
    | error e => exact hunsaved
    | ok identifier =>
      simp only [hr, Load.acceptance?, Option.map_some, Option.mem_some_iff, forall_eq'] at hsave ⊢
      have hsaved : (unsaved s content a).save (.file q) content =
          (.ok (), ((unsaved s content a).save (.file q) content).2) := Prod.ext hsave rfl
      exact hunsaved.trans (.save_ok hsaved)
  · obtain ⟨es, hl⟩ := step_leads hs x
    rw [show acceptance s a x = none by rw [acceptance, hx]; rfl]
    refine (step_does hs x).keeps hl (fun c hc => ?_) hq hclear
    rw [save_mem_stepActivities hc] at hx
    cases hx

/-- **Where all saves succeed, the file holds the bundle that was accepted last**, or what it held
before. -/
theorem along_keeps (hs : Sound s a) (hq : s.bundleFile = some q)
    (hclear : ∀ p ∈ s.launcher.blobPlace.path?, q.ClearOf p) (xs : List Input)
    (hsaves : ∀ r ∈ along s (fun a x => (bundleSave s a x).toList) a xs, r = .ok ()) :
    Storage.Keeps (.file q) ((lastAcceptedFrom s a xs).map (·.content)) a.host.storage
      (xs.foldl (step s) a).host.storage := by
  -- on the inputs to come, for any agent
  induction xs generalizing a with
  | nil => exact .refl
  | cons x xs ih =>
    simp only [along, List.mem_append, Option.mem_toList] at hsaves
    have hstep := step_keeps hs hq hclear x fun r hr => hsaves r (.inl hr)
    have hrest := ih (hs.step x) fun r hr => hsaves r (.inr hr)
    rw [lastAcceptedFrom_cons, Option.map_or]
    exact hstep.trans hrest

/-- **A start leaves the file of the bundles alone**, and no bundle is saved. -/
theorem begin_keeps (hq : s.bundleFile = some q)
    (hclear : ∀ p ∈ s.launcher.blobPlace.path?, q.ClearOf p) (host : Host) :
    Storage.Keeps (.file q) none host.storage (begin s (fresh host)).host.storage ∧
      ∃ es, (begin s (fresh host)).host.history = host.history ++ es ∧
        ∀ content, .persisted content ∉ es := by
  have hs := sound_fresh (s := s) host
  have hhost : (begin s (fresh host)).host = (loadPersisted s (fresh host)).host := by
    unfold begin
    split <;> rfl
  rw [hhost, loadPersisted_fresh]
  cases keptBundle s host with
  | none => exact ⟨.refl, [], (List.append_nil _).symm, fun _ h => nomatch h⟩
  | some content =>
    refine ⟨unsaved_keeps hs hq hclear content, ?_⟩
    obtain ⟨es, he, ht⟩ := (swap_does hs content false).history
    refine ⟨es, he, fun c hc => ?_⟩
    cases (save_mem_loading (ht.persisted_mem hc)).1

/-- A run in which all saves of bundles succeed leaves the bundle that was accepted last in their file. -/
theorem run_keeps (s : AgentSettings) (host : Host) (inputs : List Input) (hq : s.bundleFile = some q)
    (hclear : ∀ p ∈ s.launcher.blobPlace.path?, q.ClearOf p)
    (hsaves : ∀ r ∈ bundleSaves s host inputs, r = .ok ()) :
    Storage.Keeps (.file q) ((lastAccepted s host inputs).map (·.content)) host.storage
      (run s host inputs).host.storage := by
  obtain ⟨hs, -⟩ := begin_does s host
  have hkeeps := (begin_keeps hq hclear host).1.trans (along_keeps hs hq hclear inputs hsaves)
  rw [Option.or_none] at hkeeps
  exact hkeeps

end Agent

end FlowHost
