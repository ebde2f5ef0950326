import FlowHost.Proofs.Tree

/-!
# What a save does before the move

All operations of a save but the last only prepare it: they make directories on the way to the target and put content
into the file beside it (`Storage.Prepares`). That is all that a save which fails, or is cut off, has done to a disk.

* `Path.place_withSuffix_iff`: **the paths whose file beside is the file itself.**
* `Storage.performAll_prepared`: what preparations make of a place.
* `Storage.save_error_prepared`: a save that fails has done no more.
-/

namespace FlowHost

namespace Path

variable {p : Path} {name ending : String}

/-- A path whose name already ends like the ones of files that are being written. -/
def IsTemporary (p : Path) : Prop := p.fileName?.bind suffix? = some Storage.temporarySuffix

instance (p : Path) : Decidable p.IsTemporary := inferInstanceAs (Decidable (_ = _))

/-- A name without a suffix is its own stem, and another is its stem, a dot and the suffix. -/
theorem stem_suffix (name : String) : (suffix? name = none ∧ stem name = name) ∨
    ∃ ending, suffix? name = some ending ∧ stem name ++ "." ++ ending = name := by
  unfold suffix? stem
  have hsplit := List.takeWhile_append_dropWhile (p := (· ≠ '.')) (l := name.toList.reverse)
  have hdot := List.head?_dropWhile_not (· ≠ '.') name.toList.reverse
  cases hrest : name.toList.reverse.dropWhile (· ≠ '.') with
  | nil => exact .inl ⟨rfl, rfl⟩
  | cons dot before =>
    rw [hrest] at hsplit hdot
    obtain rfl : dot = '.' := by simpa using hdot
    cases before with
    | nil => exact .inl ⟨rfl, rfl⟩
    | cons b before =>
      refine .inr ⟨_, rfl, String.toList_inj.1 ?_⟩
      have hname := congrArg List.reverse hsplit
      simpa using hname

/-- A name has the suffix that it may be given without becoming another. -/
theorem suffix?_eq_iff : suffix? name = some ending ↔ stem name ++ "." ++ ending = name := by
  obtain ⟨hnone, hstem⟩ | ⟨ending', hsome, hname⟩ := stem_suffix name
  · rw [hnone, hstem]
    refine iff_of_false (by simp) fun h => ?_
    have hlength := congrArg (fun s => s.toList.length) h
    simp at hlength
  · rw [hsome, Option.some_inj]
    refine ⟨fun h => h ▸ hname, fun h => ?_⟩
    have hsame := congrArg String.toList (hname.trans h.symm)
    exact String.toList_inj.1 (by simpa using hsame)

/-- **The file beside a path that ends in a name is the file itself** if and only if the name ends so already. -/
theorem place_withSuffix_iff (h : p.fileName? = some name) :
    (p.withSuffix Storage.temporarySuffix).place = p.place ↔ p.IsTemporary := by
  rw [place_withSuffix _ h, place_of_fileName? h, List.append_cancel_left_eq, List.singleton_inj, ← suffix?_eq_iff,
    IsTemporary, h, Option.bind_some]

end Path

namespace Disk

variable {d d' d'' : Disk} {p : Path} {l here : Location} {steps : List PathStep}

/-- A walk that comes to its end passes directories only. -/
theorem walk_passes (h : d.walk here steps = .ok l) {n : Nat} (hn : n < steps.length) :
    d.get? ((steps.take n).foldl PathStep.from here) = some .directory := by
  induction steps generalizing here n with
  | nil => cases hn
  | cons step rest ih =>
    obtain ⟨hhere, -, hrest⟩ := walk_cons_ok_iff.1 h
    cases n with
    | zero => exact hhere
    | succ n => exact ih hrest (Nat.lt_of_succ_lt_succ hn)

theorem locate_passes (h : d.locate p = .ok l) {n : Nat} (hn : n < p.steps.length) :
    d.get? ((p.steps.take n).foldl PathStep.from []) = some .directory := by
  unfold locate at h
  split at h
  · exact walk_passes h hn
  · cases h

/-- On a tree, a path that does not end in a name leads to a directory. -/
theorem IsTree.directory_of_fileName? (hd : d.IsTree) (h : d.locate p = .ok l) (hp : p.fileName? = none) :
    d.get? p.place = some .directory := by
  rcases List.eq_nil_or_concat p.steps with hnil | ⟨init, last, hconcat⟩
  · simp [Path.place, hnil]
  · rw [List.concat_eq_append] at hconcat
    have hlast : last = .up := by
      cases last with
      | up => rfl
      | down name => simp [Path.fileName?, hconcat] at hp
    have hinit := locate_passes (n := init.length) h (by simp [hconcat])
    rw [hconcat, List.take_left' rfl] at hinit
    have hplace : p.place = (init.foldl PathStep.from []).dropLast := by
      simp [Path.place, hconcat, hlast, PathStep.from]
    rw [hplace]
    exact hd.dropLast hinit

/-- What preparations of a save to a path may make of a place. -/
inductive Prepared (p : Path) (d d' : Disk) (l : Location) : Prop
  | same (h : d'.get? l = d.get? l)
  /-- There is a directory on the way now. -/
  | made (hfree : d.get? l = none) (h : d'.get? l = some .directory)
      (hway : ∃ q ∈ Storage.directories p, q.place = l)
  /-- There is a file beside the target now. -/
  | put (hfree : d.get? l ≠ some .directory) (content : Bytes) (h : d'.get? l = some (.file content))
      (hname : p.fileName? ≠ none) (hbeside : l = (p.withSuffix Storage.temporarySuffix).place)

theorem Prepared.trans (h : Prepared p d d' l) (h' : Prepared p d' d'' l) : Prepared p d d'' l := by
  cases h with
  | same hsame =>
    cases h' with
    | same hsame' => exact .same (hsame'.trans hsame)
    | made hfree hmade hway => exact .made (hsame ▸ hfree) hmade hway
    | put hfree content hput hname hbeside => exact .put (hsame ▸ hfree) content hput hname hbeside
  | made hfree hmade hway =>
    cases h' with
    | same hsame' => exact .made hfree (hsame'.trans hmade) hway
    | made hfree' => simp [hmade] at hfree'
    | put hfree' => exact absurd hmade hfree'
  | put hfree content hput hname hbeside =>
    cases h' with
    | same hsame' => exact .put hfree content (hsame'.trans hput) hname hbeside
    | made hfree' => simp [hput] at hfree'
    | put _ content' hput' => exact .put hfree content' hput' hname hbeside

/-- What was a directory stays one. -/
theorem Prepared.directory (h : Prepared p d d' l) (hd : d.get? l = some .directory) :
    d'.get? l = some .directory := by
  cases h with
  | same hsame => rwa [hsame]
  | made hfree => simp [hfree] at hd
  | put hfree => exact absurd hd hfree

/-- What was a file stays one. -/
theorem Prepared.file {content : Bytes} (h : Prepared p d d' l) (hf : d.get? l = some (.file content)) :
    ∃ content', d'.get? l = some (.file content') := by
  cases h with
  | same hsame => exact ⟨content, by rwa [hsame]⟩
  | made hfree => simp [hfree] at hf
  | put _ content' hput => exact ⟨content', hput⟩

/-- **The file at the target is as it was**, unless its name is one of files that are being written. -/
theorem Prepared.fileAt_target (h : Prepared p d d' p.place) (hp : ¬ p.IsTemporary) :
    d'.fileAt p.place = d.fileAt p.place := by
  unfold Disk.fileAt
  cases h with
  | same hsame => rw [hsame]
  | made hfree hmade => rw [hfree, hmade]
  | put _ _ _ hname hbeside =>
    obtain ⟨name, hname⟩ := Option.ne_none_iff_exists'.1 hname
    exact absurd ((Path.place_withSuffix_iff hname).1 hbeside.symm) hp

end Disk

namespace Storage

open Disk

variable {st st' : Storage} {d d' : Disk} {p : Path} {c : Bytes}

/-- **The operations of a save that come before the move.** -/
inductive Prepares (p : Path) : Disk.Operation → Prop
  | makeDirectory (q : Path) (hq : q ∈ directories p) : Prepares p (.makeDirectory q)
  | create : Prepares p (.create (p.withSuffix temporarySuffix))
  | fill (content : Bytes) : Prepares p (.fill (p.withSuffix temporarySuffix) content)

theorem perform_prepared {o : Disk.Operation} (hd : d.IsTree) (ho : Prepares p o) (h : o.perform d = .ok d')
    (l : Location) : Prepared p d d' l := by
  have hput : ∀ content, Disk.Operation.putFile d (p.withSuffix temporarySuffix) content = .ok d' → Prepared p d d' l := by
    intro content h
    obtain ⟨hlocate, hfree, -, rfl⟩ := Disk.Operation.putFile_ok_iff.1 h
    have hname : p.fileName? ≠ none := fun hname => by
      have hself : p.withSuffix temporarySuffix = p := by simp [Path.withSuffix, hname]
      rw [hself] at hlocate hfree
      exact hfree (hd.directory_of_fileName? hlocate hname)
    have hget : (d.insert (p.withSuffix temporarySuffix).place (.file content)).get? l =
        if l = (p.withSuffix temporarySuffix).place then some (.file content) else d.get? l :=
      get?_insert (ne_root hfree)
    by_cases hl : l = (p.withSuffix temporarySuffix).place
    · rw [if_pos hl] at hget
      exact .put (hl ▸ hfree) content hget hname hl
    · rw [if_neg hl] at hget
      exact .same hget
  cases ho with
  | makeDirectory q hq =>
    obtain rfl | ⟨hfree, rfl⟩ := Disk.Operation.perform_makeDirectory h
    · exact .same rfl
    · have hroot : q.place ≠ [] := ne_root (d := d) (by simp [hfree])
      have hget : (d.insert q.place .directory).get? l = if l = q.place then some .directory else d.get? l :=
        get?_insert hroot
      by_cases hl : l = q.place
      · rw [if_pos hl] at hget
        exact .made (hl ▸ hfree) hget ⟨q, hq, hl.symm⟩
      · rw [if_neg hl] at hget
        exact .same hget
  | create => exact hput [] h
  | fill content => exact hput content h

/-- **What preparations make of a place**, however many of them are done. -/
theorem performAll_prepared {os : List Disk.Operation} {r : Option DiskFault} (hd : d.IsTree)
    (hos : ∀ o ∈ os, Prepares p o) (h : performAll d os = (d', r)) (l : Location) : Prepared p d d' l := by
  induction os generalizing d with
  | nil =>
    cases h
    exact .same rfl
  | cons o os ih =>
    unfold performAll at h
    cases ho : o.perform d with
    | error fault =>
      rw [ho] at h
      cases h
      exact .same rfl
    | ok d1 =>
      rw [ho] at h
      exact (perform_prepared hd (hos o List.mem_cons_self) ho l).trans
        (ih (Disk.Operation.perform_isTree hd ho) (fun o ho => hos o (List.mem_cons_of_mem _ ho)) h)

/-- The operations of a save before the move. -/
def preparations (p : Path) (c : Bytes) : List Disk.Operation :=
  (directories p).map .makeDirectory ++ [.create (p.withSuffix temporarySuffix), .fill (p.withSuffix temporarySuffix) c]

theorem saveOperations_eq (p : Path) (c : Bytes) :
    saveOperations p c = preparations p c ++ [.rename (p.withSuffix temporarySuffix) p] := by
  simp [saveOperations, preparations]

theorem preparations_prepare {o : Disk.Operation} (h : o ∈ preparations p c) : Prepares p o := by
  simp only [preparations, List.mem_append, List.mem_map, List.mem_cons, List.not_mem_nil, or_false] at h
  obtain ⟨q, hq, rfl⟩ | rfl | rfl := h
  · exact .makeDirectory q hq
  · exact .create
  · exact .fill c

/-- **A save that fails has done no more than preparations.** -/
theorem save_error_prepared {e : Error} (hd : st.disk.IsTree) (h : st.save (.file p) c = (.error e, st'))
    (l : Location) : Prepared p st.disk st'.disk l := by
  have hall : ∃ r, performAll st.disk (preparations p c) = (st'.disk, r) := by
    simp only [save, saveOperations_eq, performAll_append] at h
    cases hprep : performAll st.disk (preparations p c) with
    | mk d r =>
      cases r with
      | some fault =>
        simp only [hprep] at h
        cases h
        exact ⟨_, rfl⟩
      | none =>
        simp only [hprep, performAll] at h
        cases hmove : (Disk.Operation.rename (p.withSuffix temporarySuffix) p).perform d with
        | ok d' => simp [hmove] at h
        | error fault =>
          simp only [hmove] at h
          cases h
          exact ⟨_, rfl⟩
  obtain ⟨r, hprep⟩ := hall
  exact performAll_prepared hd (fun o ho => preparations_prepare ho) hprep l

end Storage

end FlowHost
