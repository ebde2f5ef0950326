import FlowHost.Proofs.Replacement

/-!
# Saves that are cut off

A save to a file may be cut off between two of its operations, or in the middle of putting content into a file
(`Storage.CutOff`). Whether the target is still whole then depends on its name: the content is put beside the target
first, unless the target has the very name that the file beside has.

* `Storage.leaves_cases`: a save that is cut off has done preparations only, or all.
* `Storage.cut_off_whole`: **the target is as it was or as it should be**, unless its name is one of files that are
  being written; then any part of the new content may be left in it.
-/

namespace FlowHost.Storage

variable {st st' : Storage} {p : Path} {content part : Bytes} {os done : List Disk.Operation}

/-- **What is done of operations that are cut off**: the first ones, and any part from the start of the content that is
being put into a file. -/
inductive CutOff : List Disk.Operation → List Disk.Operation → Prop
  | before (os : List Disk.Operation) : CutOff os []
  | within {p : Path} {content part : Bytes} (os : List Disk.Operation) (hpart : part <+: content) :
      CutOff (.fill p content :: os) [.fill p part]
  | after (o : Disk.Operation) {os done : List Disk.Operation} (h : CutOff os done) : CutOff (o :: os) (o :: done)

/-- The storage that a save to a file leaves which is cut off somewhere. -/
def Leaves (st : Storage) (p : Path) (content : Bytes) (st' : Storage) : Prop :=
  ∃ done, CutOff (saveOperations p content) done ∧ st' = { st with disk := (performAll st.disk done).1 }

/-- Part of a preparation is one as well. -/
theorem CutOff.prepare (h : CutOff os done) (hos : ∀ o ∈ os, Prepares p o) : ∀ o ∈ done, Prepares p o := by
  induction h with
  | before os => exact fun o ho => absurd ho (List.not_mem_nil)
  | within os hpart =>
    intro o ho
    rw [List.mem_singleton.1 ho]
    cases hos _ List.mem_cons_self with
    | fill => exact .fill _
  | after o _ ih =>
    intro o' ho'
    rcases List.mem_cons.1 ho' with rfl | ho'
    · exact hos _ List.mem_cons_self
    · exact ih (fun o ho => hos o (List.mem_cons_of_mem _ ho)) o' ho'

/-- The move is done wholly or not at all. -/
theorem CutOff.of_concat_rename {q r : Path} (h : CutOff (os ++ [.rename q r]) done) :
    done = os ++ [.rename q r] ∨ CutOff os done := by
  induction os generalizing done with
  | nil =>
    cases h with
    | before => exact .inr (.before _)
    | after o h =>
      cases h with
      | before => exact .inl rfl
  | cons o os ih =>
    cases h with
    | before => exact .inr (.before _)
    | within _ hpart => exact .inr (.within _ hpart)
    | after _ h =>
      rcases ih h with rfl | h
      · exact .inl rfl
      · exact .inr (.after o h)

/-- **A save that is cut off has done preparations only**, or everything. -/
theorem leaves_cases (hd : st.disk.IsTree) (h : Leaves st p content st') :
    (∀ l, Disk.Prepared p st.disk st'.disk l) ∨ st.save (.file p) content = (.ok (), st') := by
  obtain ⟨done, hcut, rfl⟩ := h
  rw [saveOperations_eq] at hcut
  rcases hcut.of_concat_rename with rfl | hprep
  · rw [← saveOperations_eq]
    cases hall : performAll st.disk (saveOperations p content) with
    | mk d r =>
      cases r with
      | none => exact .inr (by simp only [save, hall])
      | some fault =>
        have hsave : st.save (.file p) content = (.error (failure fault), { st with disk := d }) := by
          simp only [save, hall]
        exact .inl (save_error_prepared hd hsave)
  · have hprepare := hprep.prepare fun o ho => preparations_prepare ho
    exact .inl (performAll_prepared hd hprepare rfl)

/-- **The file at the target is whole**, what was there or what was to be there. -/
theorem leaves_fileAt (hp : ¬ p.IsTemporary) (hd : st.disk.IsTree) (h : Leaves st p content st') :
    st'.disk.fileAt p.place = st.disk.fileAt p.place ∨ st'.disk.fileAt p.place = some content := by
  rcases leaves_cases hd h with hprepared | hsave
  · exact .inl ((hprepared p.place).fileAt_target hp)
  · exact .inr (blob_file_iff.1 (save_ok hsave).2).2.2

/-- A blob that could be loaded can be loaded still, or the new one can. -/
theorem leaves_load {b : Bytes} (hp : ¬ p.IsTemporary) (hd : st.disk.IsTree) (h : Leaves st p content st')
    (hb : st.load (.file p) = .ok (some b)) :
    st'.load (.file p) = .ok (some b) ∨ st'.load (.file p) = .ok (some content) := by
  rcases leaves_cases hd h with hprepared | hsave
  · obtain ⟨hlocate, hfile, hat⟩ := blob_file_iff.1 (blob_eq_some.2 hb)
    have hgrows : st.disk.Grows st'.disk := fun l hl => (hprepared l).directory hl
    refine .inl (blob_eq_some.1 (blob_file_iff.2 ⟨hgrows.locate hlocate, hfile, ?_⟩))
    rw [(hprepared p.place).fileAt_target hp, hat]
  · exact .inr (blob_eq_some.1 (save_ok hsave).2)

theorem CutOff.append {xs : List Disk.Operation} (h : CutOff os done) : CutOff (xs ++ os) (xs ++ done) := by
  induction xs with
  | nil => exact h
  | cons x xs ih => exact .after x ih

/-- **A file that is its own file beside is overwritten where it is**: any part of the content may be left. -/
theorem leaves_part (hp : p.IsTemporary) (hsave : (st.save (.file p) content).1 = .ok ()) (hpart : part <+: content) :
    ∃ st', Leaves st p content st' ∧ st'.load (.file p) = .ok (some part) := by
  obtain ⟨d', hall⟩ : ∃ d', performAll st.disk ((directories p).map .makeDirectory ++ replacement p content) =
      (d', none) := by
    have hops : saveOperations p content = (directories p).map .makeDirectory ++ replacement p content := rfl
    simp only [save, hops] at hsave
    split at hsave
    · rename_i d' hall
      exact ⟨d', hall⟩
    · cases hsave
  obtain ⟨d0, hdirs, hreplace⟩ := performAll_append_ok_iff.1 hall
  obtain ⟨d1, d2, hcreate, -, hmove⟩ := replacement_ok_iff.1 hreplace
  obtain ⟨-, -, -, -, hfile, -⟩ := Disk.Operation.perform_rename hmove
  obtain ⟨d3, hfill, hlocate, hget⟩ := fill_after_create hcreate part
  obtain ⟨name, hname, -⟩ := Option.bind_eq_some_iff.1 hp
  have hself := (Path.place_withSuffix_iff hname).2 hp
  have hdone : performAll st.disk ((directories p).map .makeDirectory ++
      [.create (p.withSuffix temporarySuffix), .fill (p.withSuffix temporarySuffix) part]) = (d3, none) :=
    performAll_append_ok_iff.2 ⟨d0, hdirs,
      performAll_cons_ok_iff.2 ⟨d1, hcreate, performAll_cons_ok_iff.2 ⟨d3, hfill, rfl⟩⟩⟩
  refine ⟨_, ⟨_, CutOff.append (.after _ (.within _ hpart)), rfl⟩, ?_⟩
  refine blob_eq_some.1 (blob_file_iff.2 ⟨?_, hfile, ?_⟩)
  · rw [hdone, ← Disk.locate_congr (Path.steps_withSuffix temporarySuffix hself), hlocate, hself]
  · rw [hdone, Disk.fileAt_eq_some, ← hself, hget]

/-- **A save that is cut off anywhere leaves a whole file at its target**, and what could be loaded or its successor can
be, unless the target's name ends like those of files that are being written. Then the file is overwritten where it is. -/
theorem cut_off_whole (p : Path) :
    (¬ p.IsTemporary → ∀ st content st', st.disk.IsTree → Leaves st p content st' →
      (st'.disk.fileAt p.place = st.disk.fileAt p.place ∨ st'.disk.fileAt p.place = some content) ∧
      (∀ b, st.load (.file p) = .ok (some b) →
        st'.load (.file p) = .ok (some b) ∨ st'.load (.file p) = .ok (some content)) ∧
      ∀ b, st'.load (.file p) = .ok (some b) → st.disk.fileAt p.place = some b ∨ b = content) ∧
    (p.IsTemporary → ∀ st content part, (st.save (.file p) content).1 = .ok () → part <+: content →
      ∃ st', Leaves st p content st' ∧ st'.load (.file p) = .ok (some part)) := by
  refine ⟨fun hp st content st' hd h => ⟨leaves_fileAt hp hd h, fun b => leaves_load hp hd h, fun b hb => ?_⟩,
    fun hp st content part => leaves_part hp⟩
  have hat := (blob_file_iff.1 (blob_eq_some.2 hb)).2.2
  rcases leaves_fileAt hp hd h with hold | hnew
  · exact .inl (hold.symm.trans hat)
  · exact .inr (Option.some.inj (hat.symm.trans hnew))

end FlowHost.Storage

/-! ### A save in the middle of its content -/

namespace FlowHost.Halfway

open Storage

/-- A disk on which three octets were saved at a path. -/
def saved (p : Path) : Storage := ((⟨.empty, none⟩ : Storage).save (.file p) [111, 108, 100]).2

/-- A file whose file beside is another. -/
def plain : Path := ⟨[.down "a.bin"], false⟩

/-- A file that is its own file beside. -/
def temporary : Path := ⟨[.down "a.tmp"], false⟩

end FlowHost.Halfway

namespace FlowHost.Storage

open Halfway

/-- The first two octets of three are put beside the file, which is loaded as it was. -/
theorem cut_off_whole_beside : ∃ st', Leaves (saved plain) plain [110, 101, 119] st' ∧
    st'.disk.fileAt ["a.tmp"] = some [110, 101] ∧ st'.load (.file plain) = .ok (some [111, 108, 100]) := by
  have hplain : ¬ plain.IsTemporary := by decide
  have hsave : (⟨.empty, none⟩ : Storage).save (.file plain) [111, 108, 100] = (.ok (), saved plain) := rfl
  have htree : (saved plain).disk.IsTree := save_isTree Disk.empty_isTree hsave
  have hcut : Leaves (saved plain) plain [110, 101, 119] _ :=
    ⟨[.create temporary, .fill temporary [110, 101]], .after _ (.within _ (by decide)), rfl⟩
  refine ⟨_, hcut, by decide, ?_⟩
  rcases ((cut_off_whole plain).1 hplain _ _ _ htree hcut).2.1 [111, 108, 100] (by decide) with hold | hnew
  · exact hold
  · exact absurd hnew (by decide)

/-- **Half a file is left** of one that is its own file beside. -/
theorem cut_off_half : ∃ st', (saved temporary).load (.file temporary) = .ok (some [111, 108, 100]) ∧
    Leaves (saved temporary) temporary [110, 101, 119] st' ∧ st'.load (.file temporary) = .ok (some [110, 101]) :=
  ⟨_, by decide,
    ⟨[.create temporary, .fill temporary [110, 101]], .after _ (.within _ (by decide)), rfl⟩, by decide⟩

end FlowHost.Storage
