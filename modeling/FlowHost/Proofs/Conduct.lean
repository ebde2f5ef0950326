import FlowHost.Proofs.Life

/-!
# The order of calls over a whole run

`Conduct` says which exports are called on whom, and in which order, once some candidates were
launched. A history that has it keeps it through services and stops (`Conduct.append`) and
through a further candidate (`Conduct.snoc`), so every run has it:

* `Agent.calls_in_order`: **whatever happens to an agent and whatever its guests do**, each instance
  has a life, each rejected candidate is interrupted at its configuration, and nobody else is called.
-/

namespace FlowHost

open History

/-- An instance is retired once there is a later one or its agent has stopped. -/
def Retired (cs : List Candidate) (phase : Phase) (k : Nat) : Prop :=
  phase = .stopped ∨ ∃ j, k < j ∧ Accepted cs j

/-- **The order of calls**, for candidates so far and an agent in a phase. -/
structure Conduct (s : AgentSettings) (cs : List Candidate) (phase : Phase) (es : List Occurrence) :
    Prop where
  orderly : Orderly es
  others : ∀ k, cs.length ≤ k → callsOf k es = []
  rejected : ∀ k c, cs[k]? = some c → c.accepted = false → callsOf k es = [] ∨
    ∃ M, s.launcher.compile c.bundle.binary = some M ∧ Interrupted M.configuration (callsOf k es)
  accepted : ∀ k c, cs[k]? = some c → c.accepted = true →
    ∃ M, s.launcher.compile c.bundle.binary = some M ∧
      Life M.configuration (Retired cs phase k) (callsOf k es)
  /-- While an instance is configured nobody else is called, but for the shutdown of the one before. -/
  interludes : ∀ k, Accepted cs k →
    (∃ j r, Precedes cs j k ∧ interlude k (calls es) = [⟨j, EntryPoint.shutdown.name, r⟩]) ∨
      (∀ j, j < k → ¬ Accepted cs j) ∧ interlude k (calls es) = []

namespace Conduct

variable {s : AgentSettings} {cs : List Candidate} {c : Candidate} {phase phase' : Phase}
  {es es' : List Occurrence} {k : Nat}

theorem nil (s : AgentSettings) (phase : Phase) : Conduct s [] phase [] :=
  ⟨.nil, fun _ _ => rfl, fun _ _ h => (nomatch h), fun _ _ h => (nomatch h),
    fun _ ⟨_, h, _⟩ => (nomatch h)⟩

/-- An interlude is over once its instance is there. -/
theorem interlude_eq (h : Conduct s cs phase es) (hk : Accepted cs k) (es' : List Occurrence) :
    interlude k (calls (es ++ es')) = interlude k (calls es) := by
  obtain ⟨c, hc, ha⟩ := hk
  obtain ⟨M, -, hl⟩ := h.accepted k c hc ha
  obtain ⟨r, hr⟩ := hl.init_mem
  rw [calls_append]
  exact interlude_append ⟨_, mem_callsOf.1 hr, rfl, rfl⟩

/-- **More of the history with the same candidates**: only instances are called, and each call has
its place in a life. -/
theorem append (h : Conduct s cs phase es) (ho : Orderly es')
    (hnone : ∀ k, ¬ Accepted cs k → callsOf k es' = [])
    (hlife : ∀ k names, Accepted cs k → Life names (Retired cs phase k) (callsOf k es) →
      Life names (Retired cs phase' k) (callsOf k es ++ callsOf k es')) :
    Conduct s cs phase' (es ++ es') := by
  refine ⟨h.orderly.append ho, fun k hk => ?_, fun k c hc ha => ?_, fun k c hc ha => ?_, fun k hk => ?_⟩
  · rw [callsOf_append, h.others k hk, hnone k fun hk' => absurd hk'.lt (by omega)]
    rfl
  · rw [callsOf_append, hnone k (not_accepted hc ha), List.append_nil]
    exact h.rejected k c hc ha
  · obtain ⟨M, hM, hl⟩ := h.accepted k c hc ha
    rw [callsOf_append]
    exact ⟨M, hM, hlife k _ ⟨c, hc, ha⟩ hl⟩
  · rw [h.interlude_eq hk]
    exact h.interludes k hk

/-- **A further candidate**, with what happened while it was launched. -/
theorem snoc (h : Conduct s cs phase es) (ho : Orderly es')
    (hnone : ∀ k, k ≠ cs.length → ¬ Accepted cs k → callsOf k es' = [])
    (hlife : ∀ k names, Accepted cs k → Life names (Retired cs phase k) (callsOf k es) →
      Life names (Retired (cs ++ [c]) phase' k) (callsOf k es ++ callsOf k es'))
    (hrejected : c.accepted = false → callsOf cs.length es' = [] ∨
      ∃ M, s.launcher.compile c.bundle.binary = some M ∧
        Interrupted M.configuration (callsOf cs.length es'))
    (haccepted : c.accepted = true → ∃ M, s.launcher.compile c.bundle.binary = some M ∧
      Life M.configuration (Retired (cs ++ [c]) phase' cs.length) (callsOf cs.length es'))
    (hinterlude : c.accepted = true →
      (∃ j r, Precedes cs j cs.length ∧
        interlude cs.length (calls (es ++ es')) = [⟨j, EntryPoint.shutdown.name, r⟩]) ∨
      (∀ j, j < cs.length → ¬ Accepted cs j) ∧ interlude cs.length (calls (es ++ es')) = []) :
    Conduct s (cs ++ [c]) phase' (es ++ es') := by
  have hnew : callsOf cs.length (es ++ es') = callsOf cs.length es' := by
    rw [callsOf_append, h.others _ (Nat.le_refl _), List.nil_append]
  -- a candidate is the new one, or it was there before
  have hcases : ∀ {k d}, (cs ++ [c])[k]? = some d → k = cs.length ∧ d = c ∨ cs[k]? = some d := by
    intro k d hd
    rcases Nat.lt_trichotomy k cs.length with hk | rfl | hk
    · rw [List.getElem?_append_left hk] at hd
      exact .inr hd
    · simp at hd
      exact .inl ⟨rfl, hd.symm⟩
    · rw [List.getElem?_eq_none (by simp; omega)] at hd
      cases hd
  refine ⟨h.orderly.append ho, fun k hk => ?_, fun k d hd ha => ?_, fun k d hd ha => ?_, fun k hk => ?_⟩
  · rw [List.length_append, List.length_singleton] at hk
    rw [callsOf_append, h.others k (by omega), hnone k (by omega) fun hk' => absurd hk'.lt (by omega)]
    rfl
  · obtain ⟨rfl, rfl⟩ | hd := hcases hd
    · rw [hnew]
      exact hrejected ha
    · have hlt : k < cs.length := (List.getElem?_eq_some_iff.1 hd).1
      rw [callsOf_append, hnone k (by omega) (not_accepted hd ha), List.append_nil]
      exact h.rejected k d hd ha
  · obtain ⟨rfl, rfl⟩ | hd := hcases hd
    · rw [hnew]
      exact haccepted ha
    · obtain ⟨M, hM, hl⟩ := h.accepted k d hd ha
      rw [callsOf_append]
      exact ⟨M, hM, hlife k _ ⟨d, hd, ha⟩ hl⟩
  · rcases accepted_append.1 hk with hk | ⟨rfl, ha⟩
    · have hlt := hk.lt
      rw [h.interlude_eq hk]
      obtain ⟨j, r, hj, hi⟩ | ⟨hj, hi⟩ := h.interludes k hk
      · exact .inl ⟨j, r, (precedes_append (by omega)).2 hj, hi⟩
      · exact .inr ⟨fun j hjk hacc => hj j hjk ((accepted_append_of_lt (by omega)).1 hacc), hi⟩
    · obtain ⟨j, r, hj, hi⟩ | ⟨hj, hi⟩ := hinterlude ha
      · exact .inl ⟨j, r, (precedes_append (Nat.le_refl _)).2 hj, hi⟩
      · exact .inr ⟨fun j hjk hacc => hj j hjk ((accepted_append_of_lt hjk).1 hacc), hi⟩

end Conduct

namespace Agent

/-- The conduct of a run so far, with what it takes to go on: the next candidate's number, and who is
active. -/
structure Account (s : AgentSettings) (ls : List Load) (a : Agent) (es : List Occurrence) : Prop where
  conduct : Conduct s (candidates ls) a.phase es
  attempts : a.phase ≠ .crashed → (candidates ls).length = a.count.attempts
  active : ∀ i ∈ a.active, Latest (candidates ls) i.surroundings.instanceId
  idle : a.phase = .running → a.active = none → ∀ k, ¬ Accepted (candidates ls) k

variable {s : AgentSettings} {ls : List Load} {a a' : Agent} {es es' : List Occurrence}
  {content : Bytes} {k : Nat}

namespace Account

/-- The active instance is not retired. -/
theorem not_retired (hs : Sound s a) (h : Account s ls a es) {i : Instance} (hi : a.active = some i) :
    ¬ Retired (candidates ls) a.phase i.surroundings.instanceId := by
  rintro (hp | ⟨j, hj, hacc⟩)
  · rw [hs.idle (by simp [hp])] at hi
    cases hi
  · exact (h.active i hi).2 j hj hacc

/-- The calls of a shutdown. -/
theorem callsOf_closing {previous : Option Instance} {closing : List Occurrence}
    (hc : IsClosing previous closing) (hk : ∀ i ∈ previous, i.surroundings.instanceId ≠ k) :
    callsOf k closing = [] := by
  cases previous with
  | none => rw [show closing = [] from hc]; rfl
  | some i =>
    obtain ⟨r, hr⟩ := hc
    exact callsOf_eq_nil hr.ownedBy (hk i rfl)

/-- **When the active instance is shut down, everyone is retired.** -/
theorem retires (hs : Sound s a) (h : Account s ls a es) (hr : a.phase = .running)
    {closing : List Occurrence} (hc : IsClosing a.active closing) {names : List String} {retired : Prop}
    (hk : Accepted (candidates ls) k) (hret : retired)
    (hl : Life names (Retired (candidates ls) a.phase k) (callsOf k es)) :
    Life names retired (callsOf k es ++ callsOf k closing) := by
  cases ha : a.active with
  | none => exact absurd hk (h.idle hr ha k)
  | some i =>
    by_cases hki : k = i.surroundings.instanceId
    · obtain ⟨r, hcall⟩ : ∃ r, IsCall i.surroundings.instanceId EntryPoint.shutdown.name r closing := by
        rw [ha] at hc
        exact hc
      rw [hki] at hl ⊢
      rw [hcall.callsOf_eq]
      exact hl.retire (not_retired hs h ha) hret
    · have hother : callsOf k closing = [] := callsOf_closing hc fun j hj => by
        cases ha.symm.trans hj
        exact Ne.symm hki
      rw [hother, List.append_nil]
      have hlater := (h.active i ha).of_ne hk hki
      exact hl.congr ⟨fun _ => hret, fun _ => .inr hlater⟩

/-- A service is one more call in the life of the active instance, or none. -/
theorem serves (hs : Sound s a) (h : Account s ls a es) (hserves : Serves s a es' a') :
    Account s ls a' (es ++ es') := by
  refine ⟨?_, by rw [hserves.phase, hserves.count]; exact h.attempts, ?_, ?_⟩
  · rw [hserves.phase]
    obtain hc | ⟨i, hi, f, hf, r, hc⟩ := hserves.calls
    · have hnone : ∀ k, callsOf k es' = [] := fun k => by simp [callsOf, hc]
      refine h.conduct.append hserves.orderly (fun k _ => hnone k) fun k names _ hl => ?_
      rw [hnone, List.append_nil]
      exact hl
    · refine h.conduct.append hserves.orderly (fun k hk => ?_) fun k names hk hl => ?_
      · rw [callsOf_of_calls hc, if_neg]
        rintro rfl
        exact hk (h.active i hi).1
      · rw [callsOf_of_calls hc]
        by_cases hki : i.surroundings.instanceId = k
        · rw [if_pos hki]
          subst hki
          exact hl.serve (not_retired hs h hi) hf
        · rw [if_neg hki, List.append_nil]
          exact hl
  · intro j hj
    obtain ⟨-, hnone⟩ | ⟨i, i', ha, ha', hc, -⟩ := hserves.active
    · cases hnone.symm.trans hj
    · cases ha'.symm.trans hj
      rw [hc.surroundings]
      exact h.active i ha
  · intro hp hnone
    obtain ⟨ha, -⟩ | ⟨i, i', -, ha', -, -⟩ := hserves.active
    · exact h.idle (hserves.phase.symm.trans hp) ha
    · cases ha'.symm.trans hnone

/-- A stop retires the active instance. -/
theorem stop (hs : Sound s a) (h : Account s ls a es) (hr : a.phase = .running) :
    ∃ es', a.stop.host.history = a.host.history ++ es' ∧ Account s ls a.stop (es ++ es') := by
  obtain ⟨closing, hc, hl, he⟩ := stop_leads hs
  set bye : List Occurrence := if a.host.isOpen then [.queued none .disconnect] else [] with hbye
  have ho : Orderly bye := by rw [hbye]; split <;> rfl
  have hn : ∀ k, callsOf k bye = [] := fun k => by rw [hbye]; split <;> rfl
  refine ⟨_, hl.history, ?_⟩
  have hphase : a.stop.phase = .stopped := by rw [he]
  refine ⟨?_, ?_, ?_, ?_⟩
  · refine h.conduct.append (hc.orderly.append ho) (fun k hk => ?_) fun k names hk hlife => ?_
    · rw [callsOf_append, hn, List.append_nil]
      refine callsOf_closing hc fun i hi => ?_
      rintro rfl
      exact hk (h.active i hi).1
    · rw [callsOf_append, hn, List.append_nil]
      exact h.retires hs hr hc hk (.inl hphase) hlife
  · intro _
    rw [he]
    exact h.attempts (by simp [hr])
  · rw [he]
    exact fun _ h => nomatch h
  · rw [hphase]
    exact fun h => nomatch h

/-- A crash changes nothing in the history. -/
theorem crash (h : Account s ls a es) (hp : a.phase ≠ .stopped) : Account s ls a.crash es := by
  refine ⟨?_, fun hp' => absurd rfl hp', fun _ h => (nomatch h), fun h => (nomatch h)⟩
  rw [← List.append_nil es]
  refine h.conduct.append .nil (fun _ _ => rfl) fun k names _ hl => ?_
  rw [callsOf_nil, List.append_nil]
  refine hl.congr (or_congr_left ?_)
  exact ⟨fun h => absurd h hp, fun h => (nomatch h)⟩

/-- **A candidate that is rejected** is interrupted at its configuration, and nobody else is called. -/
theorem rejects (h : Account s ls a es) (hr : a.phase = .running) {l : Load} {bundle : Bundle}
    (hb : Bundle.parse l.content = .ok bundle) (hl : l.result.toBool = false)
    (hown : OwnedBy a.count.attempts es') (ho : Orderly es')
    (hc : callsOf a.count.attempts es' = [] ∨ ∃ M, s.launcher.compile bundle.binary = some M ∧
      Interrupted M.configuration (callsOf a.count.attempts es'))
    (hphase : a'.phase = .running ∧ a'.active = a.active ∧ a'.count = a.count.add false ∨
      a'.phase = .crashed ∧ a'.active = none) :
    Account s (ls ++ [l]) a' (es ++ es') := by
  have hlen := h.attempts (by simp [hr])
  have hacc : ∀ k, Accepted (candidates ls ++ [⟨bundle, l.result.toBool⟩]) k ↔
      Accepted (candidates ls) k := by
    intro k
    rw [accepted_append]
    simp [hl]
  have hstopped : a'.phase ≠ .stopped := by
    rcases hphase with ⟨hp, -⟩ | ⟨hp, -⟩ <;> simp [hp]
  have hother : ∀ k, k ≠ (candidates ls).length → callsOf k es' = [] := fun k hk =>
    callsOf_eq_nil hown fun hk' => hk (by omega)
  refine ⟨?_, ?_, ?_, ?_⟩
  · rw [candidates_append_ok hb]
    refine h.conduct.snoc ho (fun k hk _ => hother k hk) ?_ (fun _ => hlen ▸ hc) ?_ ?_
    · intro k names hk hlife
      -- a rejected candidate retires nobody
      rw [hother k (by have := hk.lt; omega), List.append_nil]
      refine hlife.congr ?_
      simp only [Retired, hacc, hr, hstopped]
      simp
    · intro ha
      simp [hl] at ha
    · intro ha
      simp [hl] at ha
  · intro hp
    rcases hphase with ⟨-, -, hcount⟩ | ⟨hp', -⟩
    · rw [candidates_append_ok hb, hcount, attempts_add, List.length_append, hlen]
      rfl
    · exact absurd hp' hp
  · intro i hi
    rcases hphase with ⟨-, ha, -⟩ | ⟨-, ha⟩
    · rw [ha] at hi
      obtain ⟨h1, h2⟩ := h.active i hi
      rw [candidates_append_ok hb]
      exact ⟨(hacc _).2 h1, fun j hj hj' => h2 j hj ((hacc j).1 hj')⟩
    · rw [ha] at hi
      cases hi
  · intro hp hnone k hk
    rcases hphase with ⟨-, ha, -⟩ | ⟨hp', -⟩
    · rw [candidates_append_ok hb] at hk
      exact h.idle hr (ha.symm.trans hnone) k ((hacc k).1 hk)
    · rw [hp'] at hp
      cases hp

end Account

/-- The exports of a configuration are not the initialisation. -/
theorem init_not_mem_configuration (M : Module) : EntryPoint.init.name ∉ M.configuration := by
  intro h
  have hall : EntryPoint.init.name ∈
      Setter.all.map Setter.name ++ [EntryPoint.setConnectionStatus.name] := by
    rcases List.mem_append.1 h with h | h
    · obtain ⟨setter, hs, he⟩ := List.mem_map.1 h
      exact List.mem_append_left _ (List.mem_map.2 ⟨setter, (List.mem_filter.1 hs).1, he⟩)
    · exact List.mem_append_right _ h
  revert hall
  decide

/-- **Between a candidate's configuration and its initialisation** stands the shutdown of another alone. -/
theorem interlude_takeover {k : Nat} {M : Module} {es setup closing rest : List Occurrence}
    {r : Option UInt32} {cs : List Call}
    (hes : callsOf k es = []) (hown : OwnedBy k setup)
    (hret : Returned M.configuration (callsOf k setup)) (hclosing : callsOf k closing = [])
    (hcalls : calls rest = ⟨k, EntryPoint.init.name, r⟩ :: cs) :
    interlude k (calls (es ++ (setup ++ (closing ++ rest)))) = calls closing := by
  rw [calls_append, calls_append, calls_append, hcalls]
  refine History.interlude_eq (instanceId_ne hes) ?_ ?_ (instanceId_ne hclosing)
  · intro c hc
    refine ⟨calls_ownedBy hown c hc, fun hf => init_not_mem_configuration M ?_⟩
    rw [← hret.1, callsOf_ownedBy hown, List.map_map]
    exact List.mem_map.2 ⟨c, hc, hf⟩
  · intro hnil
    have hnames := hret.1
    rw [callsOf_ownedBy hown, hnil] at hnames
    simp [Module.configuration] at hnames

/-- What is called after a candidate has taken over. -/
theorem Handover.calls {candidate : Instance} {keep : Bool}
    {closing opening announcing saving greeting : List Occurrence}
    (h : Handover s a candidate content keep closing opening announcing saving greeting a') :
    Orderly (opening ++ announcing ++ saving ++ greeting) ∧ ∃ r₁ r₂,
      History.calls (opening ++ announcing ++ saving ++ greeting) =
        [⟨candidate.surroundings.instanceId, EntryPoint.init.name, r₁⟩,
          ⟨candidate.surroundings.instanceId, EntryPoint.setConnectionStatus.name, r₂⟩] := by
  obtain ⟨r₁, ho⟩ := h.opens
  obtain ⟨r₂, ha⟩ := h.announces
  -- neither a save of the bundle nor a request of the agent's is a call
  have hs : Orderly saving ∧ History.calls saving = [] := by
    obtain ⟨h', -, hs⟩ := h.saves
    rw [hs]
    unfold AgentSettings.savings
    split
    · split
      · exact ⟨rfl, rfl⟩
      · split <;> exact ⟨rfl, rfl⟩
    · exact ⟨rfl, rfl⟩
  have hg : Orderly greeting ∧ History.calls greeting = [] := by
    rw [h.greets]
    split <;> exact ⟨rfl, rfl⟩
  refine ⟨((ho.orderly.append ha.orderly).append hs.1).append hg.1, r₁, r₂, ?_⟩
  simp [ho.calls_eq, ha.calls_eq, hs.2, hg.2]

namespace Account

/-- **A candidate that is accepted** is configured, the active instance is shut down, and its life
begins. -/
theorem accepts (hs : Sound s a) (h : Account s ls a es) (hr : a.phase = .running) {l : Load}
    {bundle : Bundle} (hb : Bundle.parse l.content = .ok bundle) (hl : l.result.toBool = true)
    {candidate : Instance} {keep : Bool} {host : Host} {setup : List Occurrence}
    {closing opening announcing saving greeting : List Occurrence}
    (hac : s.launcher.Accepts s.bundleFile a.count.attempts bundle a.host setup candidate host)
    (hh : Handover s { a with host := host, count := a.count.add true } candidate bundle.raw keep
      closing opening announcing saving greeting a') :
    Account s (ls ++ [l]) a'
      (es ++ (setup ++ (closing ++ (opening ++ announcing ++ saving ++ greeting)))) := by
  have hlen := h.attempts (by simp [hr])
  obtain ⟨M, hM, hret⟩ := hac.calls
  obtain ⟨horderly, r₁, r₂, hcalls⟩ := hh.calls
  have hid : candidate.surroundings.instanceId = a.count.attempts := by rw [hac.surroundings]; rfl
  have hclosing : IsClosing a.active closing := hh.closes
  obtain ⟨i', hfix, hcont, -⟩ := hh.active
  have hphase : a'.phase = .running := by rw [hfix]; exact hr
  rw [hid] at hcalls
  set rest := opening ++ announcing ++ saving ++ greeting
  rw [← hlen] at hret hcalls
  have hown : OwnedBy (candidates ls).length setup := hlen ▸ hac.owned
  -- the active instance is an older one
  have hold : ∀ i ∈ a.active, i.surroundings.instanceId ≠ (candidates ls).length :=
    fun i hi => Nat.ne_of_lt (h.active i hi).1.lt
  have hnew : callsOf (candidates ls).length (setup ++ (closing ++ rest)) =
      callsOf (candidates ls).length setup ++
        [(EntryPoint.init.name, r₁), (EntryPoint.setConnectionStatus.name, r₂)] := by
    rw [callsOf_append, callsOf_append, callsOf_closing hclosing hold, List.nil_append]
    simp [callsOf, hcalls]
  have hother : ∀ k, k ≠ (candidates ls).length →
      callsOf k (setup ++ (closing ++ rest)) = callsOf k closing := by
    intro k hk
    have hrest : callsOf k rest = [] := by simp [callsOf, hcalls, Ne.symm hk]
    rw [callsOf_append, callsOf_append, callsOf_eq_nil hown (Ne.symm hk), hrest]
    simp
  have hacc : Accepted (candidates ls ++ [⟨bundle, l.result.toBool⟩]) (candidates ls).length :=
    accepted_append.2 (.inr ⟨rfl, hl⟩)
  have hlast : ∀ j, (candidates ls).length < j →
      ¬ Accepted (candidates ls ++ [⟨bundle, l.result.toBool⟩]) j := by
    intro j hj hj'
    have := hj'.lt
    simp at this
    omega
  refine ⟨?_, ?_, ?_, ?_⟩
  · rw [candidates_append_ok hb]
    refine h.conduct.snoc (hac.orderly.append (hclosing.orderly.append horderly)) ?_ ?_ ?_ ?_ ?_
    -- whoever is called but the candidate is the instance that was active
    · intro k hk hn
      rw [hother k hk]
      refine callsOf_closing hclosing fun i hi => ?_
      rintro rfl
      exact hn (h.active i hi).1
    · intro k names hk hlife
      rw [hother k (by have := hk.lt; omega)]
      exact h.retires hs hr hclosing hk (.inr ⟨_, hk.lt, hacc⟩) hlife
    · intro ha
      simp [hl] at ha
    · intro _
      refine ⟨M, hM, ?_⟩
      rw [hnew]
      refine Life.begin hret ?_ r₁ r₂
      rintro (hp | ⟨j, hj, hj'⟩)
      · rw [hphase] at hp
        cases hp
      · exact hlast j hj hj'
    -- all that stands between the candidate's configuration and its initialisation is the shutdown
    · intro _
      have hi : interlude (candidates ls).length (calls (es ++ (setup ++ (closing ++ rest)))) =
          calls closing :=
        interlude_takeover (h.conduct.others _ (Nat.le_refl _)) hown hret
          (callsOf_closing hclosing hold) hcalls
      rw [hi]
      cases ha : a.active with
      | none =>
        rw [ha] at hclosing
        refine .inr ⟨fun j _ => h.idle hr ha j, ?_⟩
        rw [show closing = [] from hclosing]
        rfl
      | some i =>
        rw [ha] at hclosing
        obtain ⟨r, hcall⟩ := hclosing
        exact .inl ⟨_, r, (h.active i ha).precedes, hcall.calls_eq⟩
  · intro _
    rw [candidates_append_ok hb, hfix, attempts_add, List.length_append, hlen]
    rfl
  · intro j hj
    rw [hfix] at hj
    cases hj
    rw [candidates_append_ok hb, hcont.surroundings, hid, ← hlen]
    exact ⟨hacc, hlast⟩
  · intro _ hnone
    rw [hfix] at hnone
    cases hnone

/-- **A load keeps the account**, whatever comes of it. -/
theorem load (hs : Sound s a) (h : Account s ls a es) (hr : a.phase = .running) (content : Bytes)
    (keep : Bool) : ∃ es', (swap s content keep a).2.host.history = a.host.history ++ es' ∧
      Account s (ls ++ [⟨content, (swap s content keep a).1⟩]) (swap s content keep a).2 (es ++ es') := by
  obtain ⟨e, hb, he⟩ | ⟨bundle, hb, he | ⟨e, es', host, hrej, he⟩ |
    ⟨candidate, setup, host, -, hac, he⟩⟩ := swap_cases s s.bundleFile content keep a
  · refine ⟨[], by rw [he]; exact (List.append_nil _).symm, ?_⟩
    rw [he, List.append_nil]
    have hc : candidates (ls ++ [⟨content, .error e⟩]) = candidates ls := candidates_append_error hb
    exact ⟨hc ▸ h.conduct, hc ▸ h.attempts, hc ▸ h.active, hc ▸ h.idle⟩
  · refine ⟨[], by rw [he]; exact (List.append_nil _).symm, ?_⟩
    rw [he]
    exact h.rejects hr hb rfl .nil .nil (.inl rfl) (.inr ⟨rfl, rfl⟩)
  · refine ⟨es', by rw [he]; exact hrej.leads.history, ?_⟩
    rw [he]
    exact h.rejects hr hb rfl hrej.owned hrej.orderly hrej.calls (.inl ⟨hr, rfl, rfl⟩)
  · obtain ⟨closing, opening, announcing, saving, greeting, hh⟩ := hs.promote hac keep
    refine ⟨setup ++ (closing ++ (opening ++ announcing ++ saving ++ greeting)), ?_, ?_⟩
    · rw [he]
      have hl := (hac.leads.trans hh.leads).history
      simpa using hl
    · rw [he]
      exact h.accepts hs hr hb rfl hac hh

end Account

/-- **The order of calls, over every run**: whatever happens to an agent and whatever its guests
return or trap at, what its run adds to the history has the conduct of the candidates that it was asked to
load. -/
theorem calls_in_order (s : AgentSettings) (host : Host) (inputs : List Input) :
    ∃ es, (run s host inputs).host.history = host.history ++ es ∧
      Conduct s (candidates (loads s host inputs)) (run s host inputs).phase es := by
  have hrun := run_induction s host
    (P := fun ls a => ∃ es, a.host.history = host.history ++ es ∧ Account s ls a es)
    ?load ?stop ?serve ?fresh ?crash inputs
  case load =>
    rintro ls a content keep hs hr ⟨es, hes, h⟩
    obtain ⟨es', hes', h'⟩ := h.load hs hr content keep
    exact ⟨es ++ es', by rw [hes', hes, List.append_assoc], h'⟩
  case stop =>
    rintro ls a hs hr ⟨es, hes, h⟩
    obtain ⟨es', hes', h'⟩ := h.stop hs hr
    exact ⟨es ++ es', by rw [hes', hes, List.append_assoc], h'⟩
  case serve =>
    rintro ls a es' a' hs hserves ⟨es, hes, h⟩
    exact ⟨es ++ es', by rw [hserves.leads.history, hes, List.append_assoc], h.serves hs hserves⟩
  case fresh =>
    refine ⟨[], (List.append_nil _).symm, .nil s _, fun _ => rfl, fun _ h => (nomatch h), ?_⟩
    rintro - - k ⟨c, hc, -⟩
    cases hc
  case crash =>
    rintro ls a hs hp ⟨es, hes, h⟩
    exact ⟨es, hes, h.crash hp⟩
  obtain ⟨-, es, hes, h⟩ := hrun
  exact ⟨es, hes, h.conduct⟩

end Agent

end FlowHost
