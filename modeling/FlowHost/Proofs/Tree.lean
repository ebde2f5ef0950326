import FlowHost.Proofs.Register

/-!
# Disks are trees

Whatever is on a disk lies in a directory of it, and operations leave it so. On such a disk a path that
never climbs leads to what is there without any directory that a save would have to make first.

* `Storage.save_isTree`: **a save leaves a tree**, failed or not.
* `Storage.save_error_blob`: **a save that fails leaves the blob that a load returns**, if its path never
  climbs; `save_error_reveals`: otherwise it may bring one to light that was kept all along.
-/

namespace FlowHost

/-- A path that never goes to the directory that holds the present one. -/
def Path.NeverClimbs (p : Path) : Prop := ∀ step ∈ p.steps, step ≠ .up

namespace Disk

/-- **Whatever is on a disk lies in a directory.** -/
def IsTree (d : Disk) : Prop := ∀ l name, d.get? (l ++ [name]) ≠ none → d.get? l = some .directory

variable {d d' : Disk} {p q : Path} {l here : Location} {steps : List PathStep} {e : Entry}

theorem empty_isTree : Disk.empty.IsTree := by
  intro l name h
  simp [get?, Disk.empty] at h

/-- All directories on the way to what is there are there. -/
theorem IsTree.directory (hd : d.IsTree) {name : String} {more : Location}
    (h : d.get? (l ++ name :: more) ≠ none) : d.get? l = some .directory := by
  induction more generalizing l name with
  | nil => exact hd l name h
  | cons next more ih =>
    have hnext : d.get? (l ++ [name]) = some .directory := ih (by simpa using h)
    exact hd l name (by simp [hnext])

/-- What holds a directory is one. -/
theorem IsTree.dropLast (hd : d.IsTree) (h : d.get? l = some .directory) : d.get? l.dropLast = some .directory := by
  rcases List.eq_nil_or_concat l with rfl | ⟨init, name, rfl⟩
  · rfl
  · rw [List.concat_eq_append] at h ⊢
    rw [List.dropLast_concat]
    exact hd init name (by simp [h])

/-! ### Walks -/

/-- The directory that would hold a place is there. -/
def Holds (d : Disk) (l : Location) : Prop := ∀ l' name, l = l' ++ [name] → d.get? l' = some .directory

/-- **A walk ends in a directory**, perhaps at nothing. -/
theorem IsTree.walk_holds (hd : d.IsTree) (h : d.walk here steps = .ok l) (hh : d.Holds here) :
    d.Holds l := by
  induction steps generalizing here with
  | nil =>
    have heq : here = l := by simpa [Disk.walk] using h
    exact heq ▸ hh
  | cons step rest ih =>
    obtain ⟨hg, -, hrest⟩ := walk_cons_ok_iff.1 h
    refine ih hrest fun l' name hl' => ?_
    cases step with
    | up =>
      have hup : d.get? (l' ++ [name]) = some .directory := hl' ▸ hd.dropLast hg
      exact hd l' name (by simp [hup])
    | down name' =>
      have hsame : here = l' := (List.append_inj' hl' rfl).1
      exact hsame ▸ hg

theorem IsTree.locate_holds (hd : d.IsTree) (h : d.locate p = .ok l) : d.Holds l := by
  unfold locate at h
  split at h
  · refine hd.walk_holds h fun l' name hl' => ?_
    exact absurd hl' (by simp)
  · cases h

/-- A walk that never climbs goes down from where it begins. -/
theorem walk_descends (h : d.walk here steps = .ok l) (hs : ∀ step ∈ steps, step ≠ .up) :
    here <+: l := by
  rw [walk_eq h]
  clear h
  induction steps generalizing here with
  | nil => exact List.prefix_rfl
  | cons step rest ih =>
    have hrest : ∀ step ∈ rest, step ≠ .up := fun s hm => hs s (List.mem_cons_of_mem _ hm)
    cases step with
    | up => exact absurd rfl (hs _ List.mem_cons_self)
    | down name => exact (List.prefix_append here [name]).trans (ih hrest)

/-- **What is there is found without going elsewhere**, if it can be found at all. -/
theorem IsTree.walk (hd : d.IsTree) (h : d'.walk here steps = .ok l)
    (hs : ∀ step ∈ steps, step ≠ .up) (hl : d.get? l ≠ none) : d.walk here steps = .ok l := by
  induction steps generalizing here with
  | nil => simpa [Disk.walk] using h
  | cons step rest ih =>
    have hrest : ∀ step ∈ rest, step ≠ .up := fun s hm => hs s (List.mem_cons_of_mem _ hm)
    obtain ⟨-, hfits, hnext⟩ := walk_cons_ok_iff.1 h
    cases step with
    | up => exact absurd rfl (hs _ List.mem_cons_self)
    | down name =>
      obtain ⟨more, rfl⟩ := walk_descends hnext hrest
      have hhere : d.get? here = some .directory := hd.directory (by simpa [PathStep.from] using hl)
      exact walk_cons_ok_iff.2 ⟨hhere, hfits, ih hnext hrest⟩

/-- On a tree, a path that never climbs leads to what is there. -/
theorem IsTree.locate (hd : d.IsTree) (h : d'.locate p = .ok l) (hp : p.NeverClimbs)
    (hl : d.get? l ≠ none) : d.locate p = .ok l := by
  unfold Disk.locate at h ⊢
  split at h
  · rename_i hu
    rw [if_pos hu]
    exact hd.walk h hp hl
  · cases h

/-! ### Operations -/

theorem IsTree.insert (hd : d.IsTree) (hl : d.get? l ≠ some .directory) (hh : d.Holds l) :
    (d.insert l e).IsTree := by
  have hl0 : l ≠ [] := ne_root hl
  intro l' name h
  have hdir : d.get? l' = some .directory := by
    rw [get?_insert hl0] at h
    by_cases heq : l' ++ [name] = l
    · exact hh l' name heq.symm
    · rw [if_neg heq] at h
      exact hd l' name h
  have hne : l' ≠ l := by rintro rfl; exact hl hdir
  rw [get?_insert hl0, if_neg hne]
  exact hdir

theorem IsTree.erase (hd : d.IsTree) (hl : d.get? l ≠ some .directory) : (d.erase l).IsTree := by
  have hl0 : l ≠ [] := ne_root hl
  intro l' name h
  rw [get?_erase hl0] at h
  have hne : l' ++ [name] ≠ l := fun heq => h (if_pos heq)
  rw [if_neg hne] at h
  have hdir : d.get? l' = some .directory := hd l' name h
  have hne' : l' ≠ l := by rintro rfl; exact hl hdir
  rw [get?_erase hl0, if_neg hne']
  exact hdir

namespace Operation

theorem putFile_isTree {c : Bytes} (hd : d.IsTree) (h : putFile d p c = .ok d') : d'.IsTree := by
  obtain ⟨hl, hn, -, rfl⟩ := putFile_ok_iff.1 h
  exact hd.insert hn (hd.locate_holds hl)

/-- **Operations leave trees.** -/
theorem perform_isTree {o : Operation} (hd : d.IsTree) (h : o.perform d = .ok d') : d'.IsTree := by
  cases o with
  | makeDirectory p =>
    rcases perform_makeDirectory h with rfl | ⟨hn, rfl⟩
    · exact hd
    · cases hl : d.locate p with
      | error fault => simp [perform, bind, Except.bind, hl] at h
      | ok l =>
        obtain rfl := locate_eq_place hl
        exact hd.insert (by simp [hn]) (hd.locate_holds hl)
  | create p => exact putFile_isTree hd h
  | fill p c => exact putFile_isTree hd h
  | rename p q =>
    obtain ⟨c, hl, hp, hq, -, rfl⟩ := perform_rename h
    split
    · exact hd
    · rename_i hs
      have hp0 : p.place ≠ [] := ne_root (d := d) (by simp [hp])
      refine (hd.erase (by simp [hp])).insert ?_ fun l' name hl' => ?_
      · rw [get?_erase hp0, if_neg (fun heq => hs heq.symm)]
        exact hq
      · -- the directory of the target is no file, so it is not what was moved
        have hdir := hd.locate_holds hl l' name hl'
        rw [get?_erase hp0, if_neg (by rintro rfl; rw [hp] at hdir; cases hdir)]
        exact hdir

end Operation

end Disk

namespace Storage

variable {st st' : Storage} {d d' : Disk} {p : Path} {c : Bytes} {place : BlobPlace}

theorem performAll_isTree {os : List Disk.Operation} {r : Option DiskFault} (hd : d.IsTree)
    (h : performAll d os = (d', r)) : d'.IsTree := by
  induction os generalizing d with
  | nil => cases h; exact hd
  | cons o os ih =>
    unfold performAll at h
    cases ho : o.perform d with
    | error fault => rw [ho] at h; cases h; exact hd
    | ok d1 => rw [ho] at h; exact ih (Disk.Operation.perform_isTree hd ho) h

/-- **A save leaves a tree**, failed or not. -/
theorem save_isTree {r : Except Error Unit} (hd : st.disk.IsTree) (h : st.save place c = (r, st')) :
    st'.disk.IsTree := by
  cases place with
  | memory => cases h; exact hd
  | file p =>
    simp only [save] at h
    cases hp : performAll st.disk (saveOperations p c) with
    | mk disk fault =>
      have hdisk := performAll_isTree hd hp
      cases fault <;> simp only [hp] at h <;> cases h <;> exact hdisk

/-- **A save that fails changes nothing of what a load returns**, but it may bring to light what was kept
all along. -/
theorem save_error_reveals {e : Error} (h : st.save place c = (.error e, st')) :
    st'.blob place = st.blob place ∨ (st.blob place = none ∧ st'.blob place = st.kept place) := by
  have hkept := save_error h
  have hkeeps := Keeps.save_error h
  cases hb : st.blob place with
  | some b => exact .inl (hkeeps.blob b (by simpa using hb))
  | none =>
    cases hb' : st'.blob place with
    | none => exact .inl rfl
    | some b => exact .inr ⟨rfl, by rw [← hkept, kept_of_blob hb']⟩

/-- **On a tree, a save that fails leaves the blob that a load returns**, if its path never climbs. -/
theorem save_error_blob {e : Error} (h : st.save place c = (.error e, st')) (hd : st.disk.IsTree)
    (hp : ∀ p ∈ place.path?, p.NeverClimbs) : st'.blob place = st.blob place := by
  rcases save_error_reveals h with hsame | ⟨hnone, hkept⟩
  · exact hsame
  cases hb : st'.blob place with
  | none => exact hnone.symm
  | some b =>
    cases place with
    | memory => simp [save] at h
    | file p =>
      -- what comes to light was there, so nothing was in the way of it
      obtain ⟨hl, hn, -⟩ := blob_file_iff.1 hb
      have hfile : st.disk.fileAt p.place = some b := by
        rw [hb, kept, hn] at hkept
        exact hkept.symm
      have hthere : st.disk.get? p.place ≠ none := by simp [Disk.fileAt_eq_some.1 hfile]
      exact (blob_file_iff.2 ⟨hd.locate hl (hp p rfl) hthere, hn, hfile⟩).symm

end Storage

end FlowHost
