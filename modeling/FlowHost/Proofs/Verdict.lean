import FlowHost.Proofs.Rejection

/-!
# Whether a failure rejects the candidate

A failure counts as the rejection of a bundle by its kind alone. All failures of a candidate are of such a kind but one:
the candidate's own code runs before it is an instance, and **an export that traps by then is a failed execution**,
which is no rejection though the candidate is rejected for it.

* `Bundle.parse_error`: octets that are no bundle are refused by a check.
* `Launcher.launch_judged`, `Agent.swap_judged`: **how a failure is classified**, by the calls up to it.
* `Agent.failures_judged`: both, for all hosts and all agents.
-/

namespace FlowHost

open History

/-- Exports of a candidate that are called are setters, and the announcement at last. -/
theorem Module.mem_configuration {M : Module} {f : String} (hf : f ∈ M.configuration) :
    f ∈ Setter.all.map Setter.name ∨ f = EntryPoint.setConnectionStatus.name := by
  rcases List.mem_append.1 hf with hf | hf
  · obtain ⟨s, hs, rfl⟩ := List.mem_map.1 hf
    exact .inl (List.mem_map_of_mem (List.mem_of_mem_filter hs))
  · exact .inr (List.mem_singleton.1 hf)

namespace Host

variable {h h' : Host} {es : List Occurrence}

/-- What the exports returned that were called on an instance from a host to a later one, with their names. -/
def results (h : Host) (k : Nat) (h' : Host) : List (String × Option UInt32) :=
  callsOf k (h'.history.drop h.history.length)

theorem results_eq (k : Nat) (he : h'.history = h.history ++ es) : h.results k h' = callsOf k es := by
  rw [results, he, List.drop_left]

theorem results_self (k : Nat) (h : Host) : h.results k h = [] := results_eq k (List.append_nil _).symm

/-- **How the failure of a candidate is classified**, from the host before to the host after. -/
structure Judged (k : Nat) (h : Host) (e : Error) (h' : Host) : Prop where
  /-- It counts as a rejection exactly if all exports that were called returned. -/
  rejects : e.rejectsCandidate = true ↔ ∀ c ∈ h.results k h', c.2.isSome = true
  /-- What counts as a rejection comes before the first call. -/
  early : e.rejectsCandidate = true → h.results k h' = []
  /-- All else is the trap of the last export that was called: a setter or the announcement of the connection. -/
  trapped : e.rejectsCandidate = false → ∃ done f, h.results k h' = done ++ [(f, none)] ∧
    (∀ c ∈ done, c.2.isSome = true) ∧ e = .execution (f ++ " trapped") ∧
    (f ∈ Setter.all.map Setter.name ∨ f = EntryPoint.setConnectionStatus.name)

variable {k : Nat} {e : Error}

theorem Judged.of_rejects (hresults : h.results k h' = []) (he : e.rejectsCandidate = true) : Judged k h e h' := by
  refine ⟨iff_of_true he ?_, fun _ => hresults, fun hno => ?_⟩
  · rw [hresults]
    exact fun _ hc => absurd hc List.not_mem_nil
  · rw [he] at hno
    cases hno

theorem Judged.of_reported {M : Module} (hint : Interrupted M.configuration (h.results k h'))
    (hreported : Reported e (h.results k h')) : Judged k h e h' := by
  obtain ⟨f, hf, rfl⟩ := hreported
  obtain ⟨done, last, hresults, hdone, hnames⟩ := hint
  -- only the last call has trapped
  have hlast : f = last := by
    rw [hresults] at hf
    rcases List.mem_append.1 hf with hf | hf
    · cases hdone _ hf
    · cases List.mem_singleton.1 hf
      rfl
  subst hlast
  have hno : (Error.execution (f ++ " trapped")).rejectsCandidate = false := rfl
  rw [Bool.eq_false_iff] at hno
  refine ⟨iff_of_false hno fun hall => ?_, fun h => absurd h hno, fun _ => ?_⟩
  · cases hall _ hf
  · have hmem : f ∈ M.configuration := hnames.subset (List.mem_map_of_mem hf)
    exact ⟨done, f, hresults, hdone, rfl, Module.mem_configuration hmem⟩

end Host

/-- **Octets that are no bundle** are refused by a check of it. -/
theorem Bundle.parse_error {raw : Bytes} {e : Error} (h : Bundle.parse raw = .error e) :
    ∃ fault, e = .validation fault := by
  unfold Bundle.parse at h
  obtain h | ⟨binary, -, h⟩ := Module.bind_error h
  · unfold unpacked at h
    split at h
    · split at h
      · cases h
      · cases h
        exact ⟨_, rfl⟩
    · cases h
  · split at h
    · cases h
      exact ⟨_, rfl⟩
    · simp only at h
      split at h
      · split at h
        · split at h
          · cases h
            exact ⟨_, rfl⟩
          · cases h
        · cases h
          exact ⟨_, rfl⟩
      · cases h
        exact ⟨_, rfl⟩

namespace Launcher

variable {l : Launcher} {n : Nat} {bundle : Bundle} {connected : Bool} {host host' : Host} {e : Error}

/-- **How the failure of a launch is classified.** -/
theorem launch_judged (h : l.launch n bundle connected host = (.error (.failed e), host')) :
    Host.Judged n host e host' := by
  unfold launch at h
  cases hc : l.compile bundle.binary with
  | none =>
    rw [hc] at h
    cases h
    exact .of_rejects (host.results_self n) rfl
  | some M =>
    simp only [hc] at h
    cases hp : M.prepare l.config l.natives l.limits with
    | error abort =>
      simp only [hp] at h
      cases h
      obtain ⟨habort, -⟩ | ⟨detail, habort⟩ := Module.prepare_error_cases hp
      · cases habort
      · cases habort
        exact .of_rejects (host.results_self n) rfl
    | ok guest =>
      obtain ⟨es, m, hm, hcase⟩ := settle_cases (l.surroundings n) none l M connected ⟨guest, host⟩
      have hresults : host.results n m.host = callsOf n es := Host.results_eq n hm.leads.history
      have hid : (l.surroundings n).instanceId = n := rfl
      rw [hid, ← hresults] at hcase
      obtain ⟨exports, hs, -⟩ | ⟨found, hs, hcalls⟩ := hcase
      · simp only [hp, hs] at h
        cases h
      · simp only [hp, hs] at h
        cases h
        obtain ⟨hnone, he⟩ | ⟨hint, hreported⟩ := hcalls
        · exact .of_rejects hnone he
        · exact .of_reported hint hreported

end Launcher

namespace Agent

variable {s : AgentSettings} {a a' : Agent} {content : Bytes} {keep : Bool} {e : Error}

/-- **How the failure of a swap is classified**, unless the host crashed over it. -/
theorem swap_judged (h : swap s content keep a = (.error e, a')) (hp : a'.phase ≠ .crashed) :
    Host.Judged a.count.attempts a.host e a'.host := by
  unfold swap at h
  cases hb : Bundle.parse content with
  | error found =>
    rw [hb] at h
    cases h
    obtain ⟨fault, rfl⟩ := Bundle.parse_error hb
    exact .of_rejects (a.host.results_self _) rfl
  | ok bundle =>
    simp only [hb] at h
    cases hl : s.launcher.launch a.count.attempts bundle a.isConnected a.host with
    | mk outcome host =>
      simp only [hl] at h
      cases outcome with
      | ok candidate => cases h
      | error abort =>
        cases abort with
        | crashed =>
          cases h
          exact absurd rfl hp
        | failed found =>
          cases h
          exact Launcher.launch_judged hl

/-- **A failure of a candidate counts as a rejection exactly if every export that was called on it returned.** All
other failures are traps in a setter or in the first announcement of the connection. So it is for every swap of every
agent, and for every launch. -/
theorem failures_judged (s : AgentSettings) (a : Agent) :
    (∀ content keep e a', swap s content keep a = (.error e, a') → a'.phase ≠ .crashed →
        Host.Judged a.count.attempts a.host e a'.host) ∧
      ∀ n bundle connected host e host', s.launcher.launch n bundle connected host = (.error (.failed e), host') →
        Host.Judged n host e host' :=
  ⟨fun _ _ _ _ h hp => swap_judged h hp, fun _ _ _ _ _ _ h => Launcher.launch_judged h⟩

end Agent

namespace Sample

/-- A guest that traps in its only setter. -/
def unready : Module :=
  guest [(Setter.traceLevel.name, .function Setter.traceLevel.signature fun _ => .trap)]

/-- An agent for which every bundle is the unready guest. -/
def unreadySettings : AgentSettings :=
  { settings with launcher := { settings.launcher with compile := fun _ => some unready } }

end Sample

namespace Agent

/-- The unready guest fails both ways, and is judged by its call. -/
theorem failures_judged_unready :
    let s := Sample.unreadySettings
    let a := run s Sample.host []
    let outcome := swap s (Sample.content 117) true a
    let bundle : Bundle := ⟨Sample.content 117, Sample.content 117, "1.0.0", "u"⟩
    let launched := s.launcher.launch 0 bundle false Sample.host
    let e : Error := .execution "eea_config_set_trace_level trapped"
    outcome.1 = .error e ∧ outcome.2.phase ≠ .crashed ∧ Host.Judged a.count.attempts a.host e outcome.2.host ∧
      launched.1 = .error (.failed e) ∧ Host.Judged 0 Sample.host e launched.2 := by
  intro s a outcome bundle launched e
  have hswap : outcome.1 = .error (.execution "eea_config_set_trace_level trapped") := by decide +kernel
  have hphase : outcome.2.phase ≠ .crashed := by decide +kernel
  have hlaunch : launched.1 = .error (.failed e) := by
    have hmap : launched.1.map (fun _ => ()) =
        .error (.failed (.execution "eea_config_set_trace_level trapped")) := by decide +kernel
    exact Module.error_of_map hmap
  have hlaunched : launched = (.error (.failed e), launched.2) := by rw [← hlaunch]
  obtain ⟨hswaps, hlaunches⟩ := failures_judged s a
  exact ⟨hswap, hphase, hswaps _ _ _ outcome.2 (Prod.ext hswap rfl) hphase, hlaunch, hlaunches _ _ _ _ _ _ hlaunched⟩

/-- **A rejected candidate whose failure is no rejection**: the agent goes on and counts it as rejected, and what is
returned says otherwise. -/
theorem unready_misjudged :
    let a := run Sample.unreadySettings Sample.host []
    let outcome := swap Sample.unreadySettings (Sample.content 117) true a
    let e := Error.execution "eea_config_set_trace_level trapped"
    outcome.1 = .error e ∧ outcome.2.phase = .running ∧ outcome.2.rejected = a.rejected + 1 ∧
      e.rejectsCandidate = false := by
  decide +kernel

end Agent

end FlowHost
