import FlowHost.Proofs.Refusal

/-!
# Blobs as registers, failures included

A blob is asked to save and to load, any number of times in any order (`Storage.answers`). A register answers each load
with what was saved last, and a save that it refuses changes nothing (`BlobRegister`).

* `Storage.answers_register`: **a file answers like a register**, and where it does not.
* `Storage.answers_memory`: if nothing fails, the blob in memory gives the same answers.
-/

namespace FlowHost

/-- What a blob is asked for. -/
inductive BlobRequest where
  | save (content : Bytes)
  | load

/-- What it answers. -/
inductive BlobAnswer where
  | saved (result : Except Error Unit)
  | loaded (result : Except Error (Option Bytes))

/-- An answer without a failure. -/
def BlobAnswer.Succeeds : BlobAnswer → Prop
  | saved result => ∃ u, result = .ok u
  | loaded result => ∃ found, result = .ok found

/-- **The answers of a register** from which a load returns `now`. It may only fail to keep its word if it is `exposed`:
a save that is refused then lets loads find what was `hidden`, or fail, where they found nothing. -/
inductive BlobRegister (exposed : Prop) (hidden : Option Bytes) :
    Except Error (Option Bytes) → List BlobRequest → List BlobAnswer → Prop
  | done (now : Except Error (Option Bytes)) : BlobRegister exposed hidden now [] []
  | saved {now : Except Error (Option Bytes)} {content : Bytes} {requests : List BlobRequest} {answers : List BlobAnswer}
      (h : BlobRegister exposed hidden (.ok (some content)) requests answers) :
      BlobRegister exposed hidden now (.save content :: requests) (.saved (.ok ()) :: answers)
  | refused {now : Except Error (Option Bytes)} {content : Bytes} {e : Error} {requests : List BlobRequest}
      {answers : List BlobAnswer} (h : BlobRegister exposed hidden now requests answers) :
      BlobRegister exposed hidden now (.save content :: requests) (.saved (.error e) :: answers)
  | revealed {later : Except Error (Option Bytes)} {content : Bytes} {e : Error} {requests : List BlobRequest}
      {answers : List BlobAnswer} (hexposed : exposed) (hlater : later = .ok hidden ∨ ∃ e', later = .error e')
      (h : BlobRegister exposed hidden later requests answers) :
      BlobRegister exposed hidden (.ok none) (.save content :: requests) (.saved (.error e) :: answers)
  | loaded {now : Except Error (Option Bytes)} {requests : List BlobRequest} {answers : List BlobAnswer}
      (h : BlobRegister exposed hidden now requests answers) :
      BlobRegister exposed hidden now (.load :: requests) (.loaded now :: answers)

namespace Storage

variable {st st' m : Storage} {p : Path} {place : BlobPlace} {requests : List BlobRequest}

/-- One request: a load leaves everything as it is. -/
def answer (st : Storage) (place : BlobPlace) : BlobRequest → BlobAnswer × Storage
  | .save content => (.saved (st.save place content).1, (st.save place content).2)
  | .load => (.loaded (st.load place), st)

/-- **The answers to requests**, one after another. -/
def answers (st : Storage) (place : BlobPlace) : List BlobRequest → List BlobAnswer
  | [] => []
  | request :: requests =>
    (st.answer place request).1 :: answers (st.answer place request).2 place requests

/-- A path that is exposed after a save that failed was so before. -/
theorem exposed_of_refused {c : Bytes} {e : Error} (h : st.save (.file p) c = (.error e, st'))
    (hnone : st.load (.file p) = .ok none) (hp : st'.disk.Exposed p) : st.disk.Exposed p := by
  rcases hp with ⟨hmissing, hnot⟩ | hinPlace
  · rcases load_eq_none_iff.1 hnone with hmissing' | ⟨hlocate, -⟩
    · exact .inl ⟨hmissing', hnot⟩
    · rw [(save_grows h).locate hlocate] at hmissing
      cases hmissing
  · exact .inr hinPlace

/-- **A file answers like a register**, whatever is on the disk. -/
theorem answers_register {exposed : Prop} {hidden : Option Bytes} (hd : st.disk.IsTree)
    (hexposed : st.load (.file p) = .ok none → st.disk.Exposed p → exposed)
    (hhidden : st.load (.file p) = .ok none → st.kept (.file p) = hidden) :
    BlobRegister exposed hidden (st.load (.file p)) requests (st.answers (.file p) requests) := by
  induction requests generalizing st with
  | nil => exact .done _
  | cons request requests ih =>
    cases request with
    | load => exact .loaded (ih hd hexposed hhidden)
    | save content =>
      simp only [answers, answer]
      cases hsave : st.save (.file p) content with
      | mk result st' =>
        have hd' := save_isTree hd hsave
        cases result with
        | ok u =>
          have hload := blob_eq_some.1 (save_ok hsave).2
          have hrest := ih hd' (fun hnone => by simp [hload] at hnone) (fun hnone => by simp [hload] at hnone)
          rw [hload] at hrest
          exact .saved hrest
        | error e =>
          rcases refused_load hd hsave with hsame | ⟨hnone, hp, hlater⟩
          · have hrest := ih hd'
              (fun hnone hp => hexposed (hsame ▸ hnone) (exposed_of_refused hsave (hsame ▸ hnone) hp))
              (fun hnone => (save_error hsave).trans (hhidden (hsame ▸ hnone)))
            rw [hsame] at hrest
            exact .refused hrest
          · rw [hnone]
            rw [hhidden hnone] at hlater
            exact .revealed (hexposed hnone hp) hlater
              (ih hd' (fun _ _ => hexposed hnone hp) fun _ => (save_error hsave).trans (hhidden hnone))

/-- **If nothing fails, a blob in memory gives the same answers** as one in a file that held the same. -/
theorem answers_memory (hload : st.load (.file p) = .ok m.held)
    (hall : ∀ a ∈ st.answers (.file p) requests, a.Succeeds) :
    m.answers .memory requests = st.answers (.file p) requests := by
  induction requests generalizing st m with
  | nil => rfl
  | cons request requests ih =>
    simp only [answers, List.forall_mem_cons] at hall ⊢
    obtain ⟨hfirst, hrest⟩ := hall
    cases request with
    | load =>
      have hsame : m.load .memory = st.load (.file p) := hload.symm
      simp only [answer] at hrest ⊢
      rw [hsame, ih hload hrest]
    | save content =>
      simp only [answer] at hfirst hrest ⊢
      cases hsave : st.save (.file p) content with
      | mk result st' =>
        rw [hsave] at hfirst hrest
        obtain ⟨u, rfl⟩ := hfirst
        have hload' : st'.load (.file p) = .ok (some content) := blob_eq_some.1 (save_ok hsave).2
        rw [← ih (m := { m with held := some content }) hload' hrest]
        rfl

/-- **A file is a register, failures included**: loads return what was saved last, and a save that fails leaves what they
return, for every path and on every disk, unless the path is exposed and nothing was found. If nothing fails, the blob
in memory gives the same answers. -/
theorem file_register (p : Path) (st : Storage) (hd : st.disk.IsTree) (requests : List BlobRequest) :
    BlobRegister (st.disk.Exposed p) (st.kept (.file p)) (st.load (.file p)) requests (st.answers (.file p) requests) ∧
      ∀ m : Storage, st.load (.file p) = .ok m.held → (∀ a ∈ st.answers (.file p) requests, a.Succeeds) →
        m.answers .memory requests = st.answers (.file p) requests :=
  ⟨answers_register hd (fun _ hp => hp) fun _ => rfl, fun _ hload hall => answers_memory hload hall⟩

end Storage

/-! ### A path that leaves the directory it enters -/

namespace Byway

/-- Storage in which nothing was saved yet. -/
def empty : Storage := ⟨.empty, none⟩

/-- A path to a file in a directory. -/
def straight : Path := ⟨[.down "d", .down "f"], false⟩

/-- A path that goes through a directory and out of it again. -/
def detour : Path := ⟨[.down "d", .up, .down "f"], false⟩

/-- A disk with the file at the end of both paths' names, without the directory on the way, and with another directory
where the save would put the file beside. -/
def blocked : Storage := ⟨⟨[(["f"], .file [111, 108, 100]), (["f.tmp"], .directory)]⟩, none⟩

theorem blocked_isTree : blocked.disk.IsTree := by
  intro l name h
  have hcases : l ++ [name] = [] ++ ["f"] ∨ l ++ [name] = [] ++ ["f.tmp"] := by
    by_contra hnot
    refine h ?_
    push Not at hnot
    have hf : (l ++ [name] == ["f"]) = false := beq_eq_false_iff_ne.2 hnot.1
    have htmp : (l ++ [name] == ["f.tmp"]) = false := beq_eq_false_iff_ne.2 hnot.2
    simp [Disk.get?, blocked, List.lookup_cons, hf, htmp]
  rcases hcases with heq | heq
  · rw [(List.append_inj' heq rfl).1]
    rfl
  · rw [(List.append_inj' heq rfl).1]
    rfl

end Byway

namespace Storage

open Byway

/-- A blob in a directory that is not there yet, and one in memory. -/
theorem file_register_straight : ¬ empty.disk.Exposed straight ∧
    BlobRegister (empty.disk.Exposed straight) none (.ok none) [.load, .save [1], .save [], .load]
      [.loaded (.ok none), .saved (.ok ()), .saved (.ok ()), .loaded (.ok (some []))] ∧
    empty.answers .memory [.load, .save [1], .save [], .load] =
      [.loaded (.ok none), .saved (.ok ()), .saved (.ok ()), .loaded (.ok (some []))] := by
  have hregister := file_register straight empty Disk.empty_isTree [.load, .save [1], .save [], .load]
  have hanswers : empty.answers (.file straight) [.load, .save [1], .save [], .load] =
      [.loaded (.ok none), .saved (.ok ()), .saved (.ok ()), .loaded (.ok (some []))] := rfl
  rw [hanswers] at hregister
  refine ⟨?_, hregister.1, hregister.2 empty rfl fun a ha => ?_⟩
  · rintro (⟨-, hnot⟩ | ⟨hn, -⟩)
    · refine hnot fun step hstep => ?_
      simp only [straight, List.mem_cons, List.not_mem_nil, or_false] at hstep
      rcases hstep with rfl | rfl
      · exact ⟨"d", rfl, by decide⟩
      · exact ⟨"f", rfl, by decide⟩
    · cases hn
  · simp only [List.mem_cons, List.not_mem_nil, or_false] at ha
    rcases ha with rfl | rfl | rfl | rfl
    · exact ⟨_, rfl⟩
    · exact ⟨_, rfl⟩
    · exact ⟨_, rfl⟩
    · exact ⟨_, rfl⟩

/-- **A save that fails can change what a load returns**: it makes the directory on the way. -/
theorem refused_save_shows : ¬ ∀ (st : Storage) (p : Path) (c : Bytes) (e : Error) (st' : Storage), st.disk.IsTree →
    p.fileName? ≠ none → st.save (.file p) c = (.error e, st') → st'.load (.file p) = st.load (.file p) := by
  intro hall
  have hsame := hall blocked detour [110, 101, 119] _ _ blocked_isTree (by decide) rfl
  have hbefore : blocked.load (.file detour) = .ok none := rfl
  rw [hbefore] at hsame
  cases hsame

end Storage

end FlowHost
