import FlowHost.Proofs.Lasting
import FlowHost.Proofs.Life

/-!
# What holds of all that is done in a run

Every activity of a run belongs to a candidate that is launched or to an instance that was made of one. What
holds of the activities of each launch, and of the calls of each instance as long as something lasts, holds of
all activities then (`Agent.Oversight`). The candidates are those of the run itself, by their numbers.

* `Agent.run_oversees`: **what oversees the candidates of a run oversees all that is done in it.**
-/

namespace FlowHost

namespace Agent

/-- **What holds of all instances, `I`, and of all activities, `R`**, as far as the candidates `cs` go. -/
structure Oversight (s : AgentSettings) (cs : List Candidate) (I : Instance → Prop) (R : Activity → Prop) :
    Prop where
  lasting : Instance.Lasting I
  launch : ∀ {n c connected host}, cs[n]? = some c →
    ∀ x ∈ s.launcher.activities n c.bundle connected host, R x
  candidate : ∀ {n c connected host i host'}, cs[n]? = some c →
    s.launcher.launch n c.bundle connected host = (.ok i, host') → I i
  call : ∀ {i}, I i → ∀ host e arguments, R (i.activity host e arguments)
  pass : ∀ {i}, I i → ∀ host e first payload, ∀ x ∈ i.passing host e first payload, R x
  request : ∀ r, R (.request r)
  save : ∀ content, R (.save content)

variable {s : AgentSettings} {cs : List Candidate} {I : Instance → Prop} {R : Activity → Prop} {a : Agent}
  {ls : List Load}

/-- The next attempt is that of the next candidate. -/
def Numbered (ls : List Load) (a : Agent) : Prop :=
  a.phase = .running → (candidates ls).length = a.count.attempts

/-- A load is one attempt more if its octets are a bundle. -/
theorem Numbered.swap (hs : Sound s a) (hr : a.phase = .running) (h : Numbered ls a) (content : Bytes)
    (keep : Bool) :
    Numbered (ls ++ [⟨content, (Agent.swap s content keep a).1⟩]) (Agent.swap s content keep a).2 := by
  have hlen := h hr
  intro hp
  obtain ⟨e, hb, he⟩ | ⟨bundle, hb, he | ⟨e, es, host, -, he⟩ | ⟨candidate, es, host, -, hac, he⟩⟩ :=
    swap_cases s s.bundleFile content keep a
  · rw [candidates_append_error hb, he]
    exact hlen
  · rw [he] at hp
    cases hp
  · rw [candidates_append_ok hb, he, List.length_append, hlen]
    exact (attempts_add _ _).symm
  · obtain ⟨_, _, _, _, _, hh⟩ := hs.promote hac keep
    obtain ⟨_, hfix, -, -⟩ := hh.active
    rw [candidates_append_ok hb, he, hfix, List.length_append, hlen]
    exact (attempts_add _ _).symm

/-- What is done with the active instance, if there is one. -/
theorem Active.serving (ha : Active I a) {work : Instance → Host → List Activity}
    (hw : ∀ i host, I i → ∀ x ∈ work i host, R x) : ∀ x ∈ serving a work, R x := by
  unfold Agent.serving
  cases hi : a.active with
  | none => exact fun _ hx => nomatch hx
  | some i => exact hw i a.host (ha i hi)

namespace Oversight

variable (h : Oversight s cs I R)

include h

theorem closing {previous : Option Instance} (hi : ∀ i ∈ previous, I i) (host : Host) :
    ∀ x ∈ closing previous host, R x := by
  intro x hx
  cases previous with
  | none => cases hx
  | some i =>
    obtain rfl := List.mem_singleton.1 hx
    exact h.call (hi i rfl) host .shutdown []

theorem telling (ha : Active I a) (connected : Bool) : ∀ x ∈ telling a connected, R x := by
  refine ha.serving fun i host hi x hx => ?_
  obtain rfl := List.mem_singleton.1 hx
  exact h.call hi host .setConnectionStatus _

/-- **A candidate that takes over**, after what was active. -/
theorem takeover {candidate : Instance} (hc : I candidate) (ha : Active I a) (content : Bytes) (keep : Bool) :
    ∀ x ∈ takeover s candidate content keep a, R x := by
  intro x hx
  simp only [Agent.takeover, List.mem_append, List.mem_cons, List.not_mem_nil, or_false] at hx
  rcases hx with ((hx | rfl | rfl) | hx) | rfl
  · exact h.closing ha a.host x hx
  · exact h.call hc _ .init []
  · exact h.call (h.lasting.start hc _) _ .setConnectionStatus _
  · split at hx
    · obtain rfl := List.mem_singleton.1 hx
      exact h.save content
    · cases hx
  · exact h.request _

/-- **A load**, of the candidate whose turn it is. -/
theorem swap (ha : Active I a) (content : Bytes) (keep : Bool)
    (hnext : ∀ bundle, Bundle.parse content = .ok bundle →
      ∃ c, cs[a.count.attempts]? = some c ∧ c.bundle = bundle) :
    (∀ x ∈ loading s content keep a, R x) ∧ Active I (swap s content keep a).2 := by
  unfold Agent.swap loading
  cases hb : Bundle.parse content with
  | error e => exact ⟨fun _ hx => (nomatch hx), ha⟩
  | ok bundle =>
    obtain ⟨c, hc, rfl⟩ := hnext bundle hb
    have hlaunch : ∀ connected host,
        ∀ x ∈ s.launcher.activities a.count.attempts c.bundle connected host, R x := fun _ _ => h.launch hc
    obtain hl | ⟨e, es, host, hl, -⟩ | ⟨candidate, es, host, hl, -⟩ :=
      Launcher.launch_cases s.launcher none a.count.attempts c.bundle a.isConnected a.host
    · simp only [hl, List.append_nil]
      exact ⟨hlaunch _ _, fun i hi => nomatch hi⟩
    · simp only [hl, List.append_nil]
      exact ⟨hlaunch _ _, ha⟩
    · have hcandidate := h.candidate hc hl
      simp only [hl]
      set next : Agent := { a with host := host, count := a.count.add true }
      have hnext : Active I next := ha
      refine ⟨fun x hx => ?_, Active.promote h.lasting hcandidate c.bundle.raw keep next⟩
      rcases List.mem_append.1 hx with hx | hx
      · exact hlaunch _ _ x hx
      · exact h.takeover hcandidate hnext _ _ x hx

/-- **What a step does**, where the next candidate is the one whose turn it is. -/
theorem stepActivities (ha : Active I a) (x : Input)
    (hswap : ∀ content, asked s a x = some content → ∀ y ∈ loading s content true a, R y) :
    ∀ y ∈ stepActivities s a x, R y := by
  have hhandles := step_handles s a x
  generalize Agent.step s a x = a', Agent.stepActivities s a x = as at hhandles ⊢
  intro y hy
  cases hhandles with
  | load hr => exact hswap _ (if_pos hr) y hy
  | flow hr ht => exact hswap _ (if_pos ⟨hr, ht⟩) y hy
  | stop =>
    rcases List.mem_append.1 hy with hy | hy
    · exact h.closing ha a.host y hy
    · obtain rfl := List.mem_singleton.1 hy
      exact h.request _
  | connect =>
    simp only [List.mem_append, List.mem_cons, List.not_mem_nil, or_false] at hy
    rcases hy with hy | rfl | rfl
    · exact h.telling ha true y hy
    · exact h.request _
    · exact h.request _
  | disconnect => exact h.telling ha false y hy
  | deliver => exact ha.serving (fun i host hi => h.pass hi host .messageReceived _ _) y hy
  | trigger => exact ha.serving (fun i host hi => h.pass hi host .directTrigger _ _) y hy
  | tick =>
    refine ha.serving (fun i host hi z hz => ?_) y hy
    obtain rfl := List.mem_singleton.1 hz
    exact h.call hi host .loop _
  | clock => cases hy
  | info => cases hy
  | idle => cases hy

/-- The candidate of a load is the one whose turn it is. -/
theorem swap_of_numbered (hr : a.phase = .running) (hn : Numbered ls a) (ha : Active I a) {l : Load}
    {rest : List Load} (hcs : cs = candidates (ls ++ l :: rest)) (keep : Bool) :
    (∀ x ∈ loading s l.content keep a, R x) ∧ Active I (Agent.swap s l.content keep a).2 := by
  refine h.swap ha l.content keep fun bundle hb => ?_
  have hsplit : cs = candidates ls ++ ⟨bundle, l.result.toBool⟩ :: candidates rest := by
    simp [hcs, candidates, hb]
  refine ⟨⟨bundle, l.result.toBool⟩, ?_, rfl⟩
  rw [hsplit, ← hn hr, List.getElem?_append_right (Nat.le_refl _), Nat.sub_self]
  rfl

/-- **From any point of a run on.** -/
theorem along (xs : List Input) (hs : Sound s a) (hn : Numbered ls a) (ha : Active I a)
    (hcs : cs = candidates (ls ++ loadsFrom s a xs)) :
    (∀ y ∈ along s (Agent.stepActivities s) a xs, R y) ∧ Active I (xs.foldl (Agent.step s) a) := by
  -- on the inputs to come, for any agent and any loads so far
  induction xs generalizing ls a with
  | nil => exact ⟨fun _ hy => (nomatch hy), ha⟩
  | cons x xs ih =>
    rw [loadsFrom] at hcs
    rw [Agent.along, List.foldl_cons]
    -- what a step that loads nothing does has nothing to do with whose turn it is
    have hquiet : asked s a x = none → (∀ y ∈ Agent.stepActivities s a x, R y) ∧ Active I (step s a x) := by
      intro hx
      have hnone : ∀ content, asked s a x ≠ some content := by
        intro content hc
        rw [hx] at hc
        cases hc
      exact ⟨h.stepActivities ha x fun content hc => absurd hc (hnone content),
        ha.step_of_swap h.lasting x fun content hc => absurd hc (hnone content)⟩
    have hjoin : ∀ {ls'}, Sound s (step s a x) → Numbered ls' (step s a x) →
        cs = candidates (ls' ++ loadsFrom s (step s a x) xs) →
        (∀ y ∈ Agent.stepActivities s a x, R y) ∧ Active I (step s a x) →
        (∀ y ∈ Agent.stepActivities s a x ++ Agent.along s (Agent.stepActivities s) (step s a x) xs, R y) ∧
          Active I (xs.foldl (Agent.step s) (step s a x)) := by
      rintro ls' hs' hn' hcs' ⟨hnow, ha'⟩
      obtain ⟨hlater, hend⟩ := ih hs' hn' ha' hcs'
      refine ⟨fun y hy => ?_, hend⟩
      exact (List.mem_append.1 hy).elim (hnow y) (hlater y)
    obtain ⟨content, hx, hr, he⟩ | ⟨hx, hstep⟩ := step_cases hs x
    · rw [hx, Option.map_some, Option.toList_some, List.singleton_append] at hcs
      obtain ⟨hload, hactive⟩ := h.swap_of_numbered hr hn ha hcs true
      have hasked : ∀ content', asked s a x = some content' → content' = content :=
        fun content' hc => (Option.some.inj (hx.symm.trans hc)).symm
      refine hjoin (he ▸ hs.swap hr content true) (he ▸ hn.swap hs hr content true)
        (by rw [hcs, List.append_assoc, List.singleton_append]) ⟨?_, ?_⟩
      · exact h.stepActivities ha x fun content' hc => hasked content' hc ▸ hload
      · exact he ▸ hactive
    · rw [hx, Option.map_none, Option.toList_none, List.nil_append] at hcs
      obtain ⟨hr, he⟩ | ⟨es, hserves⟩ := hstep
      · refine hjoin (he ▸ hs.stop) (fun hp => ?_) hcs (hquiet hx)
        rw [he] at hp
        cases hp
      · refine hjoin (hs.serves hserves) (fun hp => ?_) hcs (hquiet hx)
        rw [hserves.count]
        exact hn (hserves.phase.symm.trans hp)

end Oversight

/-- **What oversees the candidates of a run oversees all that is done in it**, and the instance that is
active in the end. -/
theorem run_oversees {host : Host} {inputs : List Input}
    (h : Oversight s (candidates (loads s host inputs)) I R) :
    (∀ x ∈ activities s host inputs, R x) ∧ Active I (run s host inputs) := by
  have hs := sound_fresh (s := s) host
  have hn : Numbered [] (fresh host) := fun _ => rfl
  have ha : Active I (fresh host) := fun i hi => nomatch hi
  -- the agent after the load of the bundle that was kept
  set ls := ((keptBundle s host).map fun content =>
    Load.mk content (swap s content false (fresh host)).1).toList with hls
  have hloaded :
      (∀ x ∈ (keptBundle s host).elim [] fun content => loading s content false (fresh host), R x) ∧
      Active I (loadPersisted s (fresh host)) ∧ Sound s (loadPersisted s (fresh host)) ∧
      Numbered ls (loadPersisted s (fresh host)) := by
    rw [loadPersisted_fresh, hls]
    cases hk : keptBundle s host with
    | none => exact ⟨fun _ hx => (nomatch hx), ha, hs, hn⟩
    | some content =>
      have hcs : candidates (loads s host inputs) = candidates ([] ++
          ⟨content, (swap s content false (fresh host)).1⟩ :: loadsFrom s (begin s (fresh host)) inputs) := by
        rw [loads, hk]
        rfl
      obtain ⟨hload, hactive⟩ := h.swap_of_numbered rfl hn ha hcs false
      exact ⟨hload, hactive, hs.swap rfl content false, hn.swap hs rfl content false⟩
  obtain ⟨hload, hactive, hsound, hnumbered⟩ := hloaded
  have hbegin : Active I (begin s (fresh host)) ∧ Sound s (begin s (fresh host)) ∧
      Numbered ls (begin s (fresh host)) := by
    unfold begin
    split
    · exact ⟨fun i hi => (nomatch hi), hsound.crash, fun hp => (nomatch hp)⟩
    · exact ⟨hactive, hsound, hnumbered⟩
  obtain ⟨hlater, hend⟩ := h.along inputs hbegin.2.1 hbegin.2.2 hbegin.1 rfl
  refine ⟨fun x hx => ?_, hend⟩
  exact (List.mem_append.1 hx).elim (hload x) (hlater x)

end Agent

end FlowHost
