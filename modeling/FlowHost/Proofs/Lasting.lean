import FlowHost.Proofs.Chronicle

/-!
# What lasts as long as an instance

An agent calls exports of its instances, passes them texts, and moves them along the lifecycle. What all
of this preserves (`Instance.Lasting`) and a launch establishes holds of the active instance at all times.

* `Agent.run_lasting`: **one invariant of instances is one of every run.**
-/

namespace FlowHost

/-- **What nothing that is done with an instance ends.** -/
structure Instance.Lasting (I : Instance → Prop) : Prop where
  call : ∀ {i}, I i → ∀ host e arguments, I (i.call host e arguments).after
  pass : ∀ {i}, I i → ∀ host e first payload, I (i.pass host e first payload).after
  lifecycle : ∀ {i}, I i → ∀ l, I { i with lifecycle := l }

namespace Instance.Lasting

variable {I : Instance → Prop} {i : Instance}

theorem start (hI : Lasting I) (h : I i) (host : Host) : I (i.start host).after := by
  unfold Instance.start
  split
  · exact hI.call (hI.lifecycle h _) host .init []
  · exact h

theorem tick (hI : Lasting I) (h : I i) (host : Host) (now : Int64) : I (i.tick host now).after := by
  unfold Instance.tick
  split
  · exact hI.call h host .loop _
  · exact h

theorem deliver (hI : Lasting I) (h : I i) (host : Host) (topic payload : String) :
    I (i.deliver host topic payload).after := by
  unfold Instance.deliver
  split
  · exact hI.pass h host .messageReceived topic payload
  · exact h

theorem trigger (hI : Lasting I) (h : I i) (host : Host) (identifier payload : String) :
    I (i.trigger host identifier payload).after := by
  unfold Instance.trigger
  split
  · exact hI.pass h host .directTrigger identifier payload
  · exact h

theorem setConnectionStatus (hI : Lasting I) (h : I i) (host : Host) (connected : Bool) :
    I (i.setConnectionStatus host connected).after := by
  unfold Instance.setConnectionStatus
  split
  · exact hI.call h host .setConnectionStatus _
  · exact hI.call h host .setConnectionStatus _
  · exact h

end Instance.Lasting

namespace Agent

variable {s : AgentSettings} {a : Agent} {I : Instance → Prop}

/-- The active instance, if there is one, has a property. -/
def Active (I : Instance → Prop) (a : Agent) : Prop := ∀ i ∈ a.active, I i

theorem Active.withActive (h : Active I a) {work : Instance → Host → Instance.Outcome}
    (hw : ∀ i host, I i → I (work i host).after) : Active I (a.withActive work) := by
  unfold Agent.withActive
  cases ha : a.active with
  | none => exact h
  | some i =>
    intro i' hi'
    cases hi'
    exact hw i a.host (h i ha)

/-- All instances that a launcher makes have a property. -/
def Launches (s : AgentSettings) (I : Instance → Prop) : Prop :=
  ∀ {n bundle connected host candidate host'},
    s.launcher.launch n bundle connected host = (.ok candidate, host') → I candidate

theorem Active.promote (hI : Instance.Lasting I) {candidate : Instance} (h : I candidate) (content : Bytes)
    (keep : Bool) (a : Agent) : Active I (Agent.promote s candidate content keep a) := by
  have hnew : Active I { a with active := some candidate } := by
    intro i hi
    cases hi
    exact h
  -- neither what is shut down nor what is saved or queued is the new instance
  have hretire : Active I (retire a.active { a with active := some candidate }) := by
    rw [retire_eq]
    exact hnew
  have hstart := hretire.withActive fun i host hi => hI.start hi host
  have htell := hstart.withActive (fun i host hi => hI.setConnectionStatus hi host
    ((retire a.active { a with active := some candidate }).withActive fun i host =>
      i.start host).isConnected)
  unfold Agent.promote
  cases keep with
  | false => exact htell
  | true =>
    simp only [if_true]
    rw [persist_eq]
    exact htell

theorem Active.swap (hI : Instance.Lasting I) (hl : Launches s I) (h : Active I a) (content : Bytes)
    (keep : Bool) : Active I (Agent.swap s content keep a).2 := by
  obtain ⟨e, -, he⟩ | ⟨bundle, -, he | ⟨e, es, host, -, he⟩ | ⟨candidate, es, host, hlaunch, -, he⟩⟩ :=
    swap_cases s none content keep a
  · rw [he]
    exact h
  · rw [he]
    exact fun _ hi => nomatch hi
  · rw [he]
    exact h
  · rw [he]
    exact Active.promote hI (hl hlaunch) bundle.raw keep _

theorem Active.stop (a : Agent) : Active I a.stop := by
  intro i hi
  cases hi

/-- A step preserves what lasts if the load does that it may ask for. -/
theorem Active.step_of_swap (hI : Instance.Lasting I) (h : Active I a) (x : Input)
    (hswap : ∀ content, asked s a x = some content → Active I (Agent.swap s content true a).2) :
    Active I (Agent.step s a x) := by
  have htell : ∀ connected, Active I (onConnection s connected a) := by
    intro connected
    have ha : Active I { a with isConnected := connected } := h
    have hw := ha.withActive fun i host hi => hI.setConnectionStatus hi host connected
    unfold onConnection
    cases connected <;> exact hw
  have hhandles := step_handles s a x
  generalize Agent.step s a x = a', stepActivities s a x = as at hhandles ⊢
  cases hhandles with
  | load hr => exact hswap _ (if_pos hr)
  | flow hr ht => exact hswap _ (if_pos ⟨hr, ht⟩)
  | stop => exact Active.stop a
  | connect => exact htell true
  | disconnect => exact htell false
  | deliver => exact h.withActive fun i host hi => hI.deliver hi host _ _
  | trigger => exact h.withActive fun i host hi => hI.trigger hi host _ _
  | @tick now hr =>
    have ha : Active I { a with ticks := a.ticks + 1 } := h
    have hw := ha.withActive fun i host hi => hI.tick hi host now
    unfold Agent.tick
    split
    · split
      · exact hw
      · exact h
    · exact h
  | clock => exact h
  | info => exact h
  | idle => exact h

/-- **A step preserves what lasts.** -/
theorem Active.step (hI : Instance.Lasting I) (hl : Launches s I) (h : Active I a) (x : Input) :
    Active I (Agent.step s a x) :=
  h.step_of_swap hI x fun content _ => h.swap hI hl content true

theorem begin_lasting (hI : Instance.Lasting I) (hl : Launches s I) (host : Host) :
    Active I (begin s (fresh host)) := by
  have hfresh : Active I (fresh host) := fun _ hi => nomatch hi
  have hload : Active I (loadPersisted s (fresh host)) := by
    rw [loadPersisted_fresh]
    cases keptBundle s host with
    | none => exact hfresh
    | some content => exact hfresh.swap hI hl content false
  unfold begin
  split
  · exact fun _ hi => nomatch hi
  · exact hload

/-- **What a launch establishes and all work with an instance preserves holds of the active instance** in
every run. -/
theorem run_lasting (hI : Instance.Lasting I) (hl : Launches s I) (host : Host) (inputs : List Input) :
    Active I (run s host inputs) := by
  suffices h : ∀ a, Active I a → Active I (inputs.foldl (Agent.step s) a) from
    h _ (begin_lasting hI hl host)
  induction inputs with
  | nil => exact fun _ h => h
  | cons x xs ih => exact fun a h => ih _ (h.step hI hl x)

end Agent

end FlowHost
