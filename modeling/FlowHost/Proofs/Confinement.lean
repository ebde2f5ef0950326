import FlowHost.Proofs.Caps

/-!
# No memory leaves its confines

Every piece of guest code that runs on an agent belongs to the module of the candidate whose instance it is,
and wherever its run comes to, the memories of that instance are within the configured pages and within what
the module declares (`Activity.Confined`).

* `Launcher.settling_begin`: what runs while a guest is settled is its own code, on a guest that has kept
  what is stable.
* `Agent.memories_confined`: **so it is at every moment of every run**, and what asks for more than the
  configured pages never runs.
* `Agent.boundless_crashes`: it may stop the host instead of being rejected.
-/

namespace FlowHost

/-! ### Whose code runs -/

namespace Exports

variable {M : Module}

theorem required_ok {name : String} {signature : Signature} {body : Body}
    (h : required M name signature = .ok body) : M.function? name = some (signature, body) := by
  unfold required at h
  split at h
  · cases h
  · rename_i found body' hf
    split at h
    · rename_i heq
      cases h
      rw [hf, heq]
    · cases h

/-- **A setter that is called is an export of the module.** -/
theorem resolveSetters_function {setters : List Setter} {found : List (Setter × Body)}
    (h : resolveSetters M setters = .ok found) :
    ∀ p ∈ found, M.function? p.1.name = some (p.1.signature, p.2) := by
  induction setters generalizing found with
  | nil =>
    cases h
    exact fun _ hp => nomatch hp
  | cons setter rest ih =>
    unfold resolveSetters at h
    obtain ⟨body?, hbody, h⟩ := Module.bind_ok h
    obtain ⟨others, hothers, h⟩ := Module.bind_ok h
    obtain rfl := Except.ok.inj h
    intro p hp
    rcases List.mem_append.1 hp with hp | hp
    · obtain ⟨body, hmem, rfl⟩ := List.mem_map.1 hp
      obtain rfl : body? = some body := Option.mem_toList.1 hmem
      unfold optional at hbody
      split at hbody
      · cases hbody
      · cases hr : required M setter.name setter.signature with
        | error e => simp [hr, Except.map] at hbody
        | ok found =>
          simp only [hr, Except.map, Except.ok.injEq, Option.some.injEq] at hbody
          rw [← hbody]
          exact required_ok hr
    · exact ih hothers p hp

/-- **All that the host calls of a guest are exports of its module.** -/
theorem resolve_function {exports : Exports} (h : resolve M = .ok exports) :
    (∀ p ∈ exports.setters, M.function? p.1.name = some (p.1.signature, p.2)) ∧
      ∀ e : EntryPoint, M.function? e.name = some (e.signature, exports.entry e) := by
  unfold resolve at h
  obtain ⟨setters, hsetters, h⟩ := Module.bind_ok h
  obtain ⟨init, hinit, h⟩ := Module.bind_ok h
  obtain ⟨loop, hloop, h⟩ := Module.bind_ok h
  obtain ⟨received, hreceived, h⟩ := Module.bind_ok h
  obtain ⟨trigger, htrigger, h⟩ := Module.bind_ok h
  obtain ⟨status, hstatus, h⟩ := Module.bind_ok h
  obtain ⟨shutdown, hshutdown, h⟩ := Module.bind_ok h
  obtain rfl := Except.ok.inj h
  refine ⟨resolveSetters_function hsetters, fun e => ?_⟩
  cases e with
  | init => exact required_ok hinit
  | loop => exact required_ok hloop
  | messageReceived => exact required_ok hreceived
  | directTrigger => exact required_ok htrigger
  | setConnectionStatus => exact required_ok hstatus
  | shutdown => exact required_ok hshutdown

end Exports

namespace Activity

/-- **The guest code that an activity runs**, with what it knows and the machine on which it begins. -/
def code? : Activity → Option (Surroundings × Behaviour × Machine)
  | start σ code m => some (σ, code, m)
  | call σ function arguments body m =>
    some (σ, body arguments, MachineM.recordEntry σ function arguments m)
  | request _ => none
  | save _ => none

/-- **The code is the module's own**: what it starts with, or an export under the name that is called. -/
def IsCodeOf (M : Module) : Activity → Prop
  | start _ code _ => M.start = some code
  | call _ function _ body _ => ∃ signature, M.function? function = some (signature, body)
  | request _ => False
  | save _ => False

/-- Code of a module that begins on a guest with a property. -/
structure Begins (σ : Surroundings) (M : Module) (P : GuestState → Prop) (x : Activity) : Prop where
  code : x.IsCodeOf M
  begins : ∃ b m, x.code? = some (σ, b, m) ∧ P m.guest

end Activity

variable {σ : Surroundings} {P : GuestState → Prop} {M : Module}

theorem Activity.begins_call {function : String} {body : Body} {signature : Signature}
    (hf : M.function? function = some (signature, body)) (arguments : List Value) {m : Machine}
    (h : P m.guest) : Activity.Begins σ M P (.call σ function arguments body m) :=
  ⟨⟨signature, hf⟩, _, _, rfl, h⟩

/-- Setters are called on guests that have kept what is stable. -/
theorem Exports.activities_begin (hP : GuestState.Stable σ P) (settings : GuestSettings)
    {setters : List (Setter × Body)}
    (hf : ∀ p ∈ setters, M.function? p.1.name = some (p.1.signature, p.2)) {m : Machine} (h : P m.guest) :
    ∀ x ∈ activities σ settings setters m, x.Begins σ M P := by
  induction setters generalizing m with
  | nil => exact fun _ hx => nomatch hx
  | cons p rest ih =>
    obtain ⟨setter, body⟩ := p
    intro x hx
    rcases List.mem_cons.1 hx with rfl | hx
    · exact Activity.begins_call (hf _ List.mem_cons_self) _ h
    · have hkeeps := MachineM.tolerant_keeps
        (MachineM.enter_keeps hP setter.name body (setter.arguments settings)) m h
      split at hx
      · rename_i m' hm
        rw [hm] at hkeeps
        exact ih (fun p hp => hf p (List.mem_cons_of_mem _ hp)) hkeeps x hx
      · cases hx

/-- **What runs while a guest is settled** is its module's code, on a guest that has kept what is stable. -/
theorem Launcher.settling_begin (hP : GuestState.Stable σ P) (l : Launcher) (M : Module) (connected : Bool)
    {m : Machine} (h : P m.guest) : ∀ x ∈ l.settling σ M connected m, x.Begins σ M P := by
  intro x hx
  rcases List.mem_append.1 hx with hx | hx
  · obtain ⟨code, hcode, rfl⟩ := Option.map_eq_some_iff.1 (Option.mem_toList.1 hx)
    exact ⟨hcode, _, _, rfl, h⟩
  · have hstart := Module.runStart_keeps hP M m h
    split at hx
    · cases hx
    · rename_i m1 hm1
      rw [hm1] at hstart
      have hknown := Module.requireMemory_keeps m1 hstart
      split at hx
      · rename_i m2 exports hm2 hexports
        rw [hm2] at hknown
        obtain ⟨hsetters, hentry⟩ := Exports.resolve_function hexports
        rcases List.mem_append.1 hx with hx | hx
        · exact Exports.activities_begin hP _ hsetters hknown x hx
        · have hconfigured := Exports.configure_keeps hP l.config.settings exports.setters m2 hknown
          split at hx
          · rename_i m3 hm3
            rw [hm3] at hconfigured
            obtain rfl := List.mem_singleton.1 hx
            exact Activity.begins_call (hentry .setConnectionStatus) _ hconfigured
          · cases hx
      · cases hx

/-! ### Confines -/

/-- **A guest whose memories are within the launcher's pages and its module's declarations**, and go on to
be so. -/
structure Launcher.Confines (l : Launcher) (M : Module) (g : GuestState) : Prop where
  /-- No memory has more pages than are configured. -/
  pages : ∀ x ∈ g.memories, x.memory.size ≤ l.config.maxMemoryPages.toNat * pageSize
  /-- No memory has more pages than its own maximum. -/
  maximum : ∀ x ∈ g.memories, ∀ most ∈ x.maximum, x.memory.size ≤ most * pageSize
  /-- The memory that is shared with the host stays within all that the module declares of it. -/
  shared : ∀ m ∈ g.memory, ∀ d ∈ M.shared, ∀ most ∈ d.1.maximum, m.size ≤ most * pageSize
  /-- The maxima of the others are those that the module declares, or that words reach, -/
  spares : g.spares.map (·.maximum) = M.spares.map fun x => x.form.most? x.type.maximum
  /-- and they stay within what the module declares of them. -/
  others : ∀ (i : Nat) source x, M.spares[i]? = some source → g.spares[i]? = some x →
    ∀ most ∈ source.type.maximum, x.memory.size ≤ most * pageSize
  /-- A request for more pages that is refused changes nothing. -/
  growth : ∀ x ∈ g.memories, x.memory.AnswersGrowth l.limits x.maximum

theorem Module.Caps.confines {l : Launcher} {g : GuestState} (h : M.Caps l.limits g) : l.Confines M g := by
  refine ⟨fun x hx => (h.memories x hx).limit, fun x hx => (h.memories x hx).maximum, ?_, h.spares, ?_,
    fun x hx => (h.memories x hx).answersGrowth⟩
  · intro m hm d hd most hmost
    obtain ⟨own, hown, hle⟩ := h.shared d hd most hmost
    have hmem : ⟨m, g.maximum⟩ ∈ g.memories := by simp [GuestState.memories, Option.mem_def.1 hm]
    exact Nat.le_trans ((h.memories _ hmem).maximum own hown) (Nat.mul_le_mul_right _ hle)
  · intro i source x hsource hx most hmost
    have hmaxima := congrArg (·[i]?) h.spares
    simp only [List.getElem?_map, hsource, hx, Option.map_some, MemoryForm.most?_of_mem hmost,
      Option.some.injEq] at hmaxima
    exact (h.memories x (List.mem_append_right _ (List.mem_of_getElem? hx))).maximum most hmaxima

/-- **An activity whose guest code stays within its confines**: it is code of the candidate whose instance it
runs on, and wherever its run comes to, the memories are as they should be. -/
def Activity.Confined (s : AgentSettings) (cs : List Candidate) (x : Activity) : Prop :=
  ∀ σ b m, x.code? = some (σ, b, m) → σ.limits = s.launcher.limits ∧
    ∃ c M, cs[σ.instanceId]? = some c ∧ s.launcher.compile c.bundle.binary = some M ∧ x.IsCodeOf M ∧
      ∀ y, Behaviour.Reaches σ (b, m) y → s.launcher.Confines M y.2.guest

/-- **Code that begins within the caps is confined.** -/
theorem Activity.Begins.confined {s : AgentSettings} {cs : List Candidate} {c : Candidate} {n : Nat}
    {x : Activity} (hnatives : s.launcher.natives.KeepsSize) (hc : cs[n]? = some c)
    (hM : s.launcher.compile c.bundle.binary = some M)
    (h : x.Begins (s.launcher.surroundings n) M (M.Caps s.launcher.limits)) : x.Confined s cs := by
  obtain ⟨b, m, hcode, hbegins⟩ := h.begins
  rintro σ b' m' hcode'
  obtain ⟨rfl, rfl, rfl⟩ : s.launcher.surroundings n = σ ∧ b = b' ∧ m = m' := by
    simpa using hcode.symm.trans hcode'
  refine ⟨rfl, c, M, hc, hM, h.code, fun y hreach => ?_⟩
  have hstable : GuestState.Stable (s.launcher.surroundings n) (M.Caps s.launcher.limits) :=
    Machine.caps_stable hnatives M
  have hcaps := hreach.keeps hstable hbegins
  exact Module.Caps.confines hcaps

namespace Instance

/-- **An instance of a candidate whose memories are within their caps.** -/
def Capped (s : AgentSettings) (cs : List Candidate) (i : Instance) : Prop :=
  ∃ n c M, i.surroundings = s.launcher.surroundings n ∧ cs[n]? = some c ∧
    s.launcher.compile c.bundle.binary = some M ∧ Exports.resolve M = .ok i.exports ∧
    M.Caps s.launcher.limits i.guest

variable {s : AgentSettings} {cs : List Candidate} {i : Instance}

/-- Another state of the same instance is within its caps where the guest is. -/
theorem Capped.guest {i' : Instance} (h : Capped s cs i) (hsurroundings : i'.surroundings = i.surroundings)
    (hexports : i'.exports = i.exports)
    (hguest : ∀ M : Module, M.Caps s.launcher.limits i.guest → M.Caps s.launcher.limits i'.guest) :
    Capped s cs i' := by
  obtain ⟨n, c, M, hn, hc, hM, hr, hcaps⟩ := h
  exact ⟨n, c, M, hsurroundings.trans hn, hc, hM, hexports ▸ hr, hguest M hcaps⟩

theorem Capped.call (hnatives : s.launcher.natives.KeepsSize) (h : Capped s cs i) (host : Host)
    (e : EntryPoint) (arguments : List Value) : Capped s cs (i.call host e arguments).after := by
  obtain ⟨_, _, -, hy⟩ := call_yields (Q := none) (i := i) (h := host) e arguments
  obtain ⟨n, -, -, hn, -⟩ := id h
  refine h.guest hy.continues.surroundings hy.continues.exports fun M hcaps => ?_
  have hstable : GuestState.Stable i.surroundings (M.Caps s.launcher.limits) := by
    rw [hn]
    exact Machine.caps_stable hnatives M
  exact call_keeps hstable hcaps host e arguments

/-- The host writes texts into a guest's memory and does not resize it. -/
theorem Capped.write (h : Capped s cs i) {b : MessageBuffers} {memory memory' : Memory}
    {first payload : String} (hm : i.guest.memory = some memory)
    (hw : MemoryM.after (b.write first payload memory) = memory') :
    Capped s cs { i with guest := { i.guest with memory := some memory' } } := by
  refine h.guest rfl rfl fun M hcaps => hcaps.sameSizes (.of_memory hm rfl ?_ rfl rfl)
  rw [← hw]
  exact b.sized_write first payload memory

theorem Capped.pass (hnatives : s.launcher.natives.KeepsSize) (h : Capped s cs i) (host : Host)
    (e : EntryPoint) (first payload : String) : Capped s cs (i.pass host e first payload).after := by
  unfold Instance.pass
  split
  · exact h
  · rename_i b _
    split
    · exact h
    · rename_i memory hm
      split
      · rename_i fault memory' hw
        exact h.write (b := b) hm (by rw [hw]; rfl)
      · rename_i one two memory' hw
        exact Capped.call hnatives (h.write (b := b) hm (by rw [hw]; rfl)) host e _

/-- **A call of an instance within its caps is confined.** -/
theorem Capped.activity (hnatives : s.launcher.natives.KeepsSize) (h : Capped s cs i) (host : Host)
    (e : EntryPoint) (arguments : List Value) : (i.activity host e arguments).Confined s cs := by
  obtain ⟨n, c, M, hn, hc, hM, hr, hcaps⟩ := h
  have hentry := (Exports.resolve_function hr).2 e
  refine Activity.Begins.confined hnatives hc hM ?_
  rw [← hn]
  exact Activity.begins_call hentry arguments hcaps

/-- So is a call that passes texts. -/
theorem Capped.passing (hnatives : s.launcher.natives.KeepsSize) (h : Capped s cs i) (host : Host)
    (e : EntryPoint) (first payload : String) :
    ∀ x ∈ i.passing host e first payload, x.Confined s cs := by
  intro x hx
  unfold Instance.passing at hx
  split at hx
  · rename_i b memory _ hm
    split at hx
    · rename_i one two memory' hw
      obtain rfl := List.mem_singleton.1 hx
      exact Capped.activity hnatives (h.write (b := b) hm (by rw [hw]; rfl)) host e _
    · cases hx
  · cases hx

end Instance

namespace Agent

variable {s : AgentSettings} {cs : List Candidate}

/-- **Launches are confined**, and the instances that they make are within their caps. -/
theorem launch_confined (hnatives : s.launcher.natives.KeepsSize) {n : Nat} {c : Candidate} (hc : cs[n]? = some c) (connected : Bool) (host : Host) :
    (∀ x ∈ s.launcher.activities n c.bundle connected host, x.Confined s cs) ∧
      ∀ i host', s.launcher.launch n c.bundle connected host = (.ok i, host') → i.Capped s cs := by
  have hstable : ∀ M : Module,
      GuestState.Stable (s.launcher.surroundings n) (M.Caps s.launcher.limits) :=
    fun M => Machine.caps_stable hnatives M
  constructor
  · intro x hx
    unfold Launcher.activities at hx
    split at hx
    · cases hx
    · rename_i M hM
      split at hx
      · cases hx
      · rename_i guest hp
        have hcaps := Module.prepare_caps hp
        have hbegins := Launcher.settling_begin (hstable M) s.launcher M connected
          (m := ⟨guest, host⟩) hcaps x hx
        exact hbegins.confined hnatives hc hM
  · intro i host' hl
    obtain ⟨M, guest, exports, m', hM, hp, hsettle, rfl, -⟩ := Launcher.launch_ok hl
    have hkeeps := Launcher.settle_keeps (hstable M) s.launcher M connected ⟨guest, host⟩
      (Module.prepare_caps hp)
    rw [hsettle] at hkeeps
    exact ⟨n, c, M, rfl, hc, hM, Launcher.settle_exports hsettle, hkeeps⟩

/-- What is confined in launches and calls is confined in runs. -/
theorem confined_oversight (hnatives : s.launcher.natives.KeepsSize)
    (cs : List Candidate) : Oversight s cs (Instance.Capped s cs) (Activity.Confined s cs) where
  lasting :=
    { call := fun h host e arguments => h.call hnatives host e arguments
      pass := fun h host e first payload => h.pass hnatives host e first payload
      lifecycle := fun h _ => h.guest rfl rfl fun _ hcaps => hcaps }
  launch hc := (launch_confined hnatives hc _ _).1
  candidate hc hl := (launch_confined hnatives hc _ _).2 _ _ hl
  call h host e arguments := h.activity hnatives host e arguments
  pass h host e first payload := h.passing hnatives host e first payload
  request _ := fun _ _ _ hcode => nomatch hcode
  save _ := fun _ _ _ hcode => nomatch hcode

/-- **No memory ever exceeds the configured pages or what its module declares.** Guests are prepared within
both; whatever guest code runs, from the start of a module on, stays within them at every point of its run,
and refused growth changes nothing; so does the active instance between calls. A module that asks for more
than the configured pages is rejected exactly if it does not stop the host, and nothing of it runs. -/
theorem memories_confined (s : AgentSettings) (hnatives : s.launcher.natives.KeepsSize) :
    (∀ M guest, M.prepare s.launcher.config s.launcher.natives s.launcher.limits = .ok guest →
        s.launcher.Confines M guest) ∧
      (∀ host inputs,
        (∀ x ∈ activities s host inputs, x.Confined s (candidates (loads s host inputs))) ∧
        ∀ i ∈ (run s host inputs).active, ∃ c M,
          (candidates (loads s host inputs))[i.surroundings.instanceId]? = some c ∧
            s.launcher.compile c.bundle.binary = some M ∧ s.launcher.Confines M i.guest) ∧
      ∀ bundle M, s.launcher.compile bundle.binary = some M →
        ∀ d ∈ M.declarations, s.launcher.config.maxMemoryPages.toNat < d.1.minimum →
        ∀ n connected host,
          (s.launcher.StoppedBy bundle → s.launcher.launch n bundle connected host = (.error .crashed, host)) ∧
          (¬ s.launcher.StoppedBy bundle → ∃ detail,
            s.launcher.launch n bundle connected host = (.error (.failed (.instantiation detail)), host)) := by
  refine ⟨fun M guest hp => (Module.prepare_caps hp).confines, fun host inputs => ?_,
    fun bundle M hM d hd hexcess n connected host => ?_⟩
  · obtain ⟨hactivities, hactive⟩ := run_oversees (confined_oversight hnatives _)
    refine ⟨hactivities, fun i hi => ?_⟩
    obtain ⟨n, c, M, hn, hc, hM, -, hcaps⟩ := hactive i hi
    exact ⟨c, M, by rw [hn]; exact hc, hM, hcaps.confines⟩
  · exact Launcher.launch_excessive hM hd hexcess n connected host

end Agent

namespace Sample

/-- A guest whose memory has one page and may have three. It asks for one more as it starts, and for three
more when it is initialised. -/
def greedy : Module :=
  { guest [(EntryPoint.init.name, .function EntryPoint.init.signature fun _ =>
      .grow 3 fun _ => .done 0)] with
    memory := .own ⟨1, some 3⟩ (some memoryName)
    start := some (.grow 1 fun _ => .done 0) }

/-- A guest that asks for more than the standard pages from the start. -/
def excessive : Module := { guest [] with memory := .own ⟨257, none⟩ (some memoryName) }

/-- An agent for which the bundle `e` is the excessive guest, and every other the greedy one. -/
def greedySettings : AgentSettings :=
  { settings with
    launcher := { settings.launcher with
      compile := fun binary => if binary.getLast? = some 101 then some excessive else some greedy } }

/-- A binary that imports the shared memory with long addresses, and with one page more than words reach. -/
def boundless : Bytes := importing [4, 0x81, 0x80, 4]

end Sample

namespace Agent

/-- The greedy guest is given one page and refused three, and the excessive one is rejected. -/
theorem memories_confined_greedy :
    let s := Sample.greedySettings
    let inputs : List Input := [.command (.load (Sample.content 103))]
    let excessive : Bundle := ⟨Sample.content 101, Sample.content 101, "1.0.0", "e"⟩
    s.launcher.natives.KeepsSize ∧
      (∀ x ∈ activities s Sample.host inputs, x.Confined s (candidates (loads s Sample.host inputs))) ∧
      (run s Sample.host inputs).active.bind (fun i => i.guest.memory.map (·.size)) = some (2 * pageSize) ∧
      ∃ detail, s.launcher.launch 0 excessive false Sample.host =
        (.error (.failed (.instantiation detail)), Sample.host) := by
  intro s inputs excessive
  have hnatives : s.launcher.natives.KeepsSize := fun f hf => nomatch hf
  obtain ⟨-, hruns, hrejects⟩ := memories_confined s hnatives
  refine ⟨hnatives, (hruns Sample.host inputs).1, by decide +kernel, ?_⟩
  refine (hrejects excessive Sample.excessive rfl (⟨257, none⟩, .plain) (List.mem_singleton.2 rfl)
    (by decide) 0 false Sample.host).2 ?_
  -- the excessive guest has a memory of its own
  rintro ⟨M, declared, form, hc, hM, -⟩
  obtain rfl : Sample.excessive = M := Option.some.inj hc
  cases hM

/-- **A module that asks for more than the configured pages and is not rejected**: it stops the host, which has the
standard pages. -/
theorem boundless_crashes :
    let l := Sample.binaryLauncher
    let bundle : Bundle := ⟨Sample.boundless, Sample.boundless, "1.0.0", "g"⟩
    Bundle.parse Sample.boundless = .ok bundle ∧ l.config = .standard ∧
      (∃ M, l.compile bundle.binary = some M ∧ M.declarations = [(⟨65537, none⟩, ⟨true, false⟩)]) ∧
      l.config.maxMemoryPages.toNat < 65537 ∧
      l.launch 0 bundle false Sample.host = (.error .crashed, Sample.host) := by
  intro l bundle
  have hread : (Module.ofBinary? Sample.boundless).map (fun M => (M.memory, M.declarations)) =
      some (.importedAs hostSpace memoryName ⟨65537, none⟩ ⟨true, false⟩, [(⟨65537, none⟩, ⟨true, false⟩)]) := by
    decide +kernel
  obtain ⟨M, hM, hboth⟩ := Option.map_eq_some_iff.1 hread
  obtain ⟨hmemory, hdeclarations⟩ := Prod.mk.inj hboth
  have hexcess : l.config.maxMemoryPages.toNat < 65537 := by decide
  refine ⟨by decide +kernel, rfl, ⟨M, hM, hdeclarations⟩, hexcess, ?_⟩
  have hmem : ((⟨65537, none⟩, ⟨true, false⟩) : MemoryType × MemoryForm) ∈ M.declarations := by
    rw [hdeclarations]
    exact List.mem_singleton_self _
  refine (Launcher.launch_excessive hM hmem hexcess 0 false Sample.host).1 ?_
  exact ⟨M, _, _, hM, hmemory, .inl (by decide)⟩

end Agent

end FlowHost
