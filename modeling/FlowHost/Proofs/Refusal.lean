import FlowHost.Proofs.Replacement

/-!
# Loads after a save that failed

A save that fails may have made directories and a file beside its target. What a load answers then is what it answered
before, as long as those are not on its own way (`Disk.Exposed`).

* `Disk.walk_error`, `Disk.IsTree.walk_file`: why a walk that only goes down does not come to its end.
* `Disk.read_error_kept`: a disk that refused to read a file still does so.
* `Storage.refused_load`: **what a load answers after a save that failed.**
-/

namespace FlowHost

namespace Path

variable {p : Path} {here : Location} {steps : List PathStep}

/-- Steps that only go down, by names that a disk takes. -/
def Descend (steps : List PathStep) : Prop := ∀ step ∈ steps, ∃ name, step = .down name ∧ name.utf8ByteSize ≤ Disk.maxName

theorem Descend.cons {step : PathStep} {rest : List PathStep} (h : Descend (step :: rest)) : Descend rest :=
  fun s hs => h s (List.mem_cons_of_mem _ hs)

theorem Descend.take (h : Descend steps) (n : Nat) : Descend (steps.take n) :=
  fun s hs => h s (List.mem_of_mem_take hs)

theorem Descend.neverClimbs (h : Descend p.steps) : p.NeverClimbs := by
  intro step hstep hup
  obtain ⟨name, rfl, -⟩ := h step hstep
  cases hup

/-- Every step down leads to a place that is one name longer. -/
theorem place_of_descend (here : Location) (h : Descend steps) :
    ∃ names, steps.foldl PathStep.from here = here ++ names ∧ names.length = steps.length := by
  induction steps generalizing here with
  | nil => exact ⟨[], (List.append_nil here).symm, rfl⟩
  | cons step rest ih =>
    obtain ⟨name, rfl, -⟩ := h _ List.mem_cons_self
    obtain ⟨names, hplace, hlength⟩ := ih (here ++ [name]) h.cons
    exact ⟨name :: names, hplace.trans (List.append_assoc _ _ _), congrArg (· + 1) hlength⟩

/-- The place beside a path is as deep as its own. -/
theorem length_place_withSuffix (p : Path) (suffix : String) : (p.withSuffix suffix).place.length = p.place.length := by
  cases h : p.fileName? with
  | none => simp [withSuffix, h]
  | some name => rw [place_withSuffix suffix h, place_of_fileName? h, List.length_append, List.length_append]; rfl

end Path

open FlowHost.Path

namespace Disk

variable {d d' : Disk} {p : Path} {l here : Location} {steps : List PathStep} {fault : DiskFault}

/-- **Why a walk down does not come to its end**: there is nothing on its way, or a file. -/
theorem walk_error (h : d.walk here steps = .error fault) (hs : Descend steps) : fault = .notFound ∨
    (fault = .notDirectory ∧ ∃ n < steps.length, ∃ content, d.get? ((steps.take n).foldl PathStep.from here) =
      some (.file content)) := by
  induction steps generalizing here with
  | nil => cases h
  | cons step rest ih =>
    obtain ⟨name, rfl, hname⟩ := hs _ List.mem_cons_self
    unfold walk at h
    cases hg : d.get? here with
    | none =>
      rw [hg] at h
      cases h
      exact .inl rfl
    | some entry =>
      cases entry with
      | file content =>
        rw [hg] at h
        cases h
        exact .inr ⟨rfl, 0, Nat.zero_lt_succ _, content, hg⟩
      | directory =>
        simp only [hg, if_neg (Nat.not_lt.2 hname)] at h
        rcases ih h hs.cons with hnone | ⟨hfile, n, hn, content, hat⟩
        · exact .inl hnone
        · exact .inr ⟨hfile, n + 1, Nat.succ_lt_succ hn, content, hat⟩

/-- On a tree, a file on the way is where a walk down ends. -/
theorem IsTree.walk_file (hd : d.IsTree) {n : Nat} {content : Bytes} (hs : Descend steps)
    (hn : n < steps.length) (hat : d.get? ((steps.take n).foldl PathStep.from here) = some (.file content)) :
    d.walk here steps = .error .notDirectory := by
  induction steps generalizing here n with
  | nil => cases hn
  | cons step rest ih =>
    obtain ⟨name, rfl, hname⟩ := hs _ List.mem_cons_self
    cases n with
    | zero =>
      have hhere : d.get? here = some (.file content) := hat
      unfold Disk.walk
      rw [hhere]
    | succ n =>
      have hrest : d.walk (here ++ [name]) rest = .error .notDirectory :=
        ih hs.cons (Nat.lt_of_succ_lt_succ hn) hat
      -- the file is below this place, so there is a directory here
      obtain ⟨names, hplace, -⟩ := place_of_descend (here ++ [name]) (hs.cons.take n)
      have heq : (List.take (n + 1) (PathStep.down name :: rest)).foldl PathStep.from here =
          here ++ name :: names := by simpa [PathStep.from] using hplace
      have hthere : d.get? (here ++ name :: names) ≠ none := by
        rw [← heq, hat]
        simp
      have hhere : d.get? here = some .directory := hd.directory hthere
      unfold Disk.walk
      simpa [hhere, Nat.not_lt.2 hname] using hrest

/-- **A walk that was refused is refused still**, where directories and files stay. -/
theorem walk_error_kept (hgrows : d.Grows d')
    (hfiles : ∀ l content, d.get? l = some (.file content) → ∃ content', d'.get? l = some (.file content'))
    (h : d.walk here steps = .error fault) (hfault : fault ≠ .notFound) : d'.walk here steps = .error fault := by
  induction steps generalizing here with
  | nil => cases h
  | cons step rest ih =>
    unfold walk at h ⊢
    cases hg : d.get? here with
    | none =>
      rw [hg] at h
      cases h
      exact absurd rfl hfault
    | some entry =>
      cases entry with
      | file content =>
        obtain ⟨content', hg'⟩ := hfiles here content hg
        rw [hg] at h
        rw [hg']
        exact h
      | directory =>
        rw [hgrows here hg]
        cases step with
        | up => exact ih (by simpa [hg] using h)
        | down name =>
          by_cases hw : maxName < name.utf8ByteSize
          · simpa [hg, hw] using h
          · simp only [hw, if_false]
            exact ih (by simpa [hg, hw] using h)

theorem locate_error_kept (hgrows : d.Grows d')
    (hfiles : ∀ l content, d.get? l = some (.file content) → ∃ content', d'.get? l = some (.file content'))
    (h : d.locate p = .error fault) (hfault : fault ≠ .notFound) : d'.locate p = .error fault := by
  unfold locate at h ⊢
  split at h
  · rename_i hu
    rw [if_pos hu]
    exact walk_error_kept hgrows hfiles h hfault
  · rename_i hu
    rw [if_neg hu]
    exact h

/-- **A disk that refused to read a file does so still.** -/
theorem read_error_kept (hgrows : d.Grows d')
    (hfiles : ∀ l content, d.get? l = some (.file content) → ∃ content', d'.get? l = some (.file content'))
    (h : d.read p = .error fault) (hfault : fault ≠ .notFound) : d'.read p = .error fault := by
  simp only [read, bind, Except.bind] at h ⊢
  cases hl : d.locate p with
  | error fault' =>
    rw [hl] at h
    cases h
    rw [locate_error_kept hgrows hfiles hl hfault]
  | ok l =>
    rw [hl] at h
    rw [hgrows.locate hl]
    cases hg : d.get? l with
    | none =>
      simp only [hg] at h
      cases h
      exact absurd rfl hfault
    | some entry =>
      cases entry with
      | directory =>
        simp only [hg] at h
        simp only [hgrows l hg]
        exact h
      | file content =>
        obtain ⟨content', hg'⟩ := hfiles l content hg
        simp only [hg] at h
        simp only [hg']
        split at h
        · rename_i hn
          rw [if_pos hn]
          exact h
        · cases h

/-- **Where a save that fails may show.** Either a directory on the way is missing, which a save makes, and the way
climbs or goes by a name that is too long; or the path means a directory, and its name is one of files that are being
written. -/
def Exposed (d : Disk) (p : Path) : Prop :=
  (d.locate p = .error .notFound ∧ ¬ Descend p.steps) ∨ (p.namesDirectory = true ∧ p.IsTemporary)

end Disk

namespace Storage

open Disk

variable {st st' : Storage} {d d' : Disk} {p q : Path} {c : Bytes} {e : Error}

theorem load_eq_none_iff : st.load (.file p) = .ok none ↔
    st.disk.locate p = .error .notFound ∨ (st.disk.locate p = .ok p.place ∧ st.disk.get? p.place = none) := by
  simp only [load, Disk.read, bind, Except.bind]
  cases hl : st.disk.locate p with
  | error fault => cases fault <;> simp
  | ok l =>
    obtain rfl := locate_eq_place hl
    cases hg : st.disk.get? p.place with
    | none => simp [hg]
    | some entry =>
      cases entry with
      | directory => simp [hg]
      | file content => cases p.namesDirectory <;> simp [hg]

/-- The directories that a save makes are on the way to its target. -/
theorem mem_directories (h : q ∈ directories p) :
    q.place = [] ∨ ∃ n < p.steps.length, q.place = (p.steps.take n).foldl PathStep.from [] := by
  unfold directories at h
  split at h
  · obtain ⟨n, hn, rfl⟩ := List.mem_map.1 h
    have hlt : n + 1 < p.steps.length := by
      have := List.mem_range.1 hn
      simp only [Path.parent, List.length_dropLast] at this
      omega
    refine .inr ⟨n + 1, hlt, ?_⟩
    simp only [Path.place, Path.parent, List.dropLast_eq_take, List.take_take]
    rw [Nat.min_eq_left (by omega)]
  · rw [List.mem_singleton.1 h]
    cases hlen : p.steps.length with
    | zero =>
      left
      simp [Path.place, Path.parent, List.length_eq_zero_iff.1 hlen]
    | succ n =>
      refine .inr ⟨n, Nat.lt_succ_self n, ?_⟩
      simp [Path.place, Path.parent, List.dropLast_eq_take, hlen]

/-- **No directory is made at the target** of a path that leads somewhere already, or that only goes down. -/
theorem directory_not_target (h : st.disk.locate p = .ok p.place ∨ Descend p.steps) (hq : q ∈ directories p)
    (hfree : st.disk.get? p.place = none) : q.place ≠ p.place := by
  intro heq
  rcases mem_directories hq with hroot | ⟨n, hn, hplace⟩
  · rw [← heq, hroot] at hfree
    cases hfree
  · rcases h with hlocate | hdescend
    · have hthere := locate_passes hlocate hn
      rw [← hplace, heq, hfree] at hthere
      cases hthere
    · obtain ⟨names, hnames, hlength⟩ := place_of_descend [] hdescend
      obtain ⟨names', hnames', hlength'⟩ := place_of_descend [] (hdescend.take n)
      have hsame : names' = names := by
        have hall : q.place = p.place := heq
        rw [hplace, hnames'] at hall
        exact hall.trans hnames
      rw [hsame, List.length_take] at hlength'
      omega

/-- **The place that a load looks at is as empty as before**, unless the path means a directory and a file is opened in
its place. -/
theorem get?_target_kept (hd : st.disk.IsTree) (h : st.save (.file p) c = (.error e, st'))
    (hway : st.disk.locate p = .ok p.place ∨ Descend p.steps) (hfree : st.disk.get? p.place = none)
    (hp : p.namesDirectory = true → ¬ p.IsTemporary) : st'.disk.get? p.place = none := by
  cases save_error_prepared hd h p.place with
  | same hsame => rw [hsame, hfree]
  | made _ _ hmade =>
    obtain ⟨q, hq, hplace⟩ := hmade
    exact absurd hplace (directory_not_target hway hq hfree)
  | put _ content hput hname hbeside =>
    obtain ⟨name, hname⟩ := Option.ne_none_iff_exists'.1 hname
    have htemporary := (place_withSuffix_iff hname).1 hbeside.symm
    have hn : p.namesDirectory = false := by
      cases hn : p.namesDirectory with
      | false => rfl
      | true => exact absurd htemporary (hp hn)
    -- what is kept at the target stays
    have hkept := save_error h
    simp only [kept, hn, Bool.false_eq_true, if_false] at hkept
    rw [fileAt_eq_some.2 hput] at hkept
    rw [fileAt_eq_some.1 hkept.symm] at hfree
    cases hfree

/-- **A way down on which a directory was missing is no other way now**: it may come to its end, but no file is on it. -/
theorem locate_missing_kept {fault : DiskFault} (hd : st.disk.IsTree) (h : st.save (.file p) c = (.error e, st'))
    (hdescend : Descend p.steps) (hmissing : st.disk.locate p = .error .notFound)
    (hl : st'.disk.locate p = .error fault) : fault = .notFound := by
  unfold locate at hl hmissing
  split at hmissing
  · rename_i hu
    rw [if_pos hu] at hl
    rcases walk_error hl hdescend with rfl | ⟨-, n, hn, content, hat⟩
    · rfl
    · -- the file on the way was there before, or it is one beside the target
      exfalso
      cases save_error_prepared hd h ((p.steps.take n).foldl PathStep.from []) with
      | same hsame =>
        rw [hd.walk_file hdescend hn (hsame ▸ hat)] at hmissing
        cases hmissing
      | made _ hmade =>
        rw [hat] at hmade
        cases hmade
      | put _ _ _ _ hbeside =>
        obtain ⟨names, hnames, hlength⟩ := place_of_descend [] hdescend
        obtain ⟨names', hnames', hlength'⟩ := place_of_descend [] (hdescend.take n)
        have hdeep := congrArg List.length hbeside
        rw [length_place_withSuffix, hnames', List.nil_append, hlength', List.length_take] at hdeep
        have hplace : p.place = names := hnames
        rw [hplace, hlength] at hdeep
        omega
  · cases hmissing

/-- A load that found nothing finds nothing, unless the path is exposed. -/
theorem load_none_kept (hd : st.disk.IsTree) (h : st.save (.file p) c = (.error e, st'))
    (hnone : st.load (.file p) = .ok none) (hp : ¬ st.disk.Exposed p) : st'.load (.file p) = .ok none := by
  have hdirectory : p.namesDirectory = true → ¬ p.IsTemporary := fun hn ht => hp (.inr ⟨hn, ht⟩)
  refine load_eq_none_iff.2 ?_
  rcases load_eq_none_iff.1 hnone with hmissing | ⟨hlocate, hfree⟩
  · have hdescend : Descend p.steps := by
      by_contra hnot
      exact hp (.inl ⟨hmissing, hnot⟩)
    cases hl : st'.disk.locate p with
    | error fault => exact .inl (by rw [locate_missing_kept hd h hdescend hmissing hl])
    | ok l =>
      obtain rfl := locate_eq_place hl
      have hfree : st.disk.get? p.place = none := by
        by_contra hthere
        rw [hd.locate hl hdescend.neverClimbs hthere] at hmissing
        cases hmissing
      exact .inr ⟨rfl, get?_target_kept hd h (.inr hdescend) hfree hdirectory⟩
  · exact .inr ⟨(save_grows h).locate hlocate, get?_target_kept hd h (.inl hlocate) hfree hdirectory⟩

/-- **What a load answers after a save that failed**: what it answered before, unless it found nothing and the path is
exposed; then it may find what was there all along, or fail. -/
theorem refused_load (hd : st.disk.IsTree) (h : st.save (.file p) c = (.error e, st')) :
    st'.load (.file p) = st.load (.file p) ∨ (st.load (.file p) = .ok none ∧ st.disk.Exposed p ∧
      (st'.load (.file p) = .ok (st.kept (.file p)) ∨ ∃ e', st'.load (.file p) = .error e')) := by
  cases hload : st.load (.file p) with
  | ok found =>
    cases found with
    | some b => exact .inl (blob_eq_some.1 ((Keeps.save_error h).blob b (blob_eq_some.2 hload)))
    | none =>
      by_cases hp : st.disk.Exposed p
      · cases hload' : st'.load (.file p) with
        | error e' => exact .inr ⟨rfl, hp, .inr ⟨e', rfl⟩⟩
        | ok found' =>
          cases found' with
          | none => exact .inl rfl
          | some b =>
            have hkept := kept_of_blob (blob_eq_some.2 hload')
            exact .inr ⟨rfl, hp, .inl (by rw [← save_error h, hkept])⟩
      · exact .inl (load_none_kept hd h hload hp)
  | error e' =>
    left
    have hprepared := save_error_prepared hd h
    have hread : ∃ fault, st.disk.read p = .error fault ∧ fault ≠ .notFound ∧ e' = failure fault := by
      simp only [load] at hload
      split at hload
      · cases hload
      · cases hload
      · rename_i fault hnot hread
        exact ⟨fault, hread, hnot, (Except.error.inj hload).symm⟩
    obtain ⟨fault, hread, hfault, rfl⟩ := hread
    have hread' : st'.disk.read p = .error fault :=
      read_error_kept (save_grows h) (fun l content hf => (hprepared l).file hf) hread hfault
    simp only [load, hread']

end Storage

end FlowHost
