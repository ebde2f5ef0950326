import FlowHost.Storage
import FlowHost.Proofs.Disk

/-!
# Blobs as registers

`Storage.kept` is what a blob's place holds, `Storage.blob` what a load returns. A load returns
nothing else than what is kept (`kept_of_blob`), and it keeps returning it (`Keeps`).

* `save_ok`: **a save that succeeds is what is kept and loaded then.**
* `save_error`: a save that fails leaves what is kept.
* `save_clear`: a save leaves the places that it is clear of.
-/

namespace FlowHost

namespace Path

variable {p q : Path}

/-- No save to `q` uses the place of `p`, neither as its target nor for the file beside it. -/
def ClearOf (p q : Path) : Prop :=
  p.place ≠ q.place ∧ p.place ≠ (q.withSuffix Storage.temporarySuffix).place

theorem place_concat (init : List PathStep) (name : String) (b b' : Bool) :
    Path.place ⟨init ++ [.down name], b⟩ = Path.place ⟨init, b'⟩ ++ [name] := by
  simp [place, List.foldl_append, PathStep.from]

theorem steps_of_fileName? {name : String} (h : p.fileName? = some name) :
    p.steps = p.steps.dropLast ++ [.down name] := by
  have hlast : p.steps.getLast? = some (.down name) := by
    unfold fileName? at h
    split at h
    · simp_all
    · cases h
  exact (List.dropLast_append_getLast? _ hlast).symm

/-- A path that ends in a name leads to that name in its parent. -/
theorem place_of_fileName? {name : String} (h : p.fileName? = some name) : p.place = p.parent.place ++ [name] := by
  have hsteps : p.place = Path.place ⟨p.steps.dropLast ++ [.down name], false⟩ := by
    rw [← steps_of_fileName? h]
    rfl
  exact hsteps.trans (place_concat _ _ _ _)

/-- The path beside a path that ends in a name leads to another name in the same parent. -/
theorem place_withSuffix {name : String} (suffix : String) (h : p.fileName? = some name) :
    (p.withSuffix suffix).place = p.parent.place ++ [stem name ++ "." ++ suffix] := by
  simp only [withSuffix, h]
  exact place_concat _ _ _ _

/-- The path beside a path leads elsewhere, or it is spelled alike. -/
theorem steps_withSuffix (suffix : String) (h : (p.withSuffix suffix).place = p.place) :
    (p.withSuffix suffix).steps = p.steps := by
  cases hf : p.fileName? with
  | none => simp [withSuffix, hf]
  | some name =>
    rw [place_withSuffix suffix hf, place_of_fileName? hf, List.append_cancel_left_eq] at h
    simp only [withSuffix, hf]
    rw [List.singleton_inj.1 h]
    exact (steps_of_fileName? hf).symm

end Path

/-- The path of a blob that is kept in a file. -/
def BlobPlace.path? : BlobPlace → Option Path
  | .memory => none
  | .file p => some p

namespace Disk

variable {d : Disk} {p q : Path}

theorem locate_congr (h : p.steps = q.steps) : d.locate p = d.locate q := by
  unfold locate Path.isUsable Path.width; rw [h]

end Disk

namespace Storage

/-- What the place of a blob holds. -/
def kept (st : Storage) : BlobPlace → Option Bytes
  | .memory => st.held
  | .file p => if p.namesDirectory then none else st.disk.fileAt p.place

/-- The blob that a load returns, if it returns one. -/
def blob (st : Storage) (place : BlobPlace) : Option Bytes :=
  match st.load place with
  | .ok b => b
  | .error _ => none

variable {st st' st'' : Storage} {d d' : Disk} {p q : Path} {c : Bytes} {place : BlobPlace}

theorem blob_eq_some {b : Bytes} : st.blob place = some b ↔ st.load place = .ok (some b) := by
  unfold blob
  cases st.load place <;> simp

/-- When a load from a file returns a blob. -/
theorem blob_file_iff {b : Bytes} : st.blob (.file p) = some b ↔
    st.disk.locate p = .ok p.place ∧ p.namesDirectory = false ∧ st.disk.fileAt p.place = some b := by
  rw [blob_eq_some]
  simp only [load, Disk.read, bind, Except.bind, Disk.fileAt_eq_some]
  cases hl : st.disk.locate p with
  | error fault => cases fault <;> simp
  | ok l =>
    obtain rfl := Disk.locate_eq_place hl
    simp only [true_and]
    cases hg : st.disk.get? p.place with
    | none => simp
    | some e =>
      cases e with
      | directory => simp
      | file content => cases p.namesDirectory <;> simp

/-- **A load returns nothing else than what is kept.** -/
theorem kept_of_blob {b : Bytes} (h : st.blob place = some b) : st.kept place = some b := by
  cases place with
  | memory => simpa [blob, load, kept] using h
  | file p =>
    obtain ⟨-, hn, hf⟩ := blob_file_iff.1 h
    simp [kept, hn, hf]

/-! ### The operations of a save -/

theorem performAll_append (xs ys : List Disk.Operation) : performAll d (xs ++ ys) =
    match performAll d xs with
    | (d', none) => performAll d' ys
    | (d', some fault) => (d', some fault) := by
  induction xs generalizing d with
  | nil => rfl
  | cons x xs ih =>
    simp only [List.cons_append, performAll]
    cases x.perform d with
    | error fault => rfl
    | ok d1 => exact ih

/-- Operations are all done if each is done after the ones before it. -/
theorem performAll_cons_ok_iff {o : Disk.Operation} {os : List Disk.Operation} :
    performAll d (o :: os) = (d', none) ↔ ∃ d1, o.perform d = .ok d1 ∧ performAll d1 os = (d', none) := by
  rw [performAll]
  cases o.perform d <;> simp

theorem performAll_append_ok_iff {xs ys : List Disk.Operation} :
    performAll d (xs ++ ys) = (d', none) ↔ ∃ d1, performAll d xs = (d1, none) ∧ performAll d1 ys = (d', none) := by
  induction xs generalizing d with
  | nil => simp [performAll]
  | cons x xs ih => simp only [List.cons_append, performAll_cons_ok_iff, ih]; grind

theorem performAll_grows {os : List Disk.Operation} {r : Option DiskFault}
    (h : performAll d os = (d', r)) : d.Grows d' := by
  induction os generalizing d with
  | nil => cases h; exact Disk.Grows.refl
  | cons o os ih =>
    unfold performAll at h
    cases ho : o.perform d with
    | error fault => rw [ho] at h; cases h; exact Disk.Grows.refl
    | ok d1 => rw [ho] at h; exact (Disk.Operation.perform_grows ho).trans (ih h)

/-- Making directories leaves every file. -/
theorem fileAt_makeDirectories {ps : List Path} {r : Option DiskFault}
    (h : performAll d (ps.map .makeDirectory) = (d', r)) (l : Location) : d'.fileAt l = d.fileAt l := by
  induction ps generalizing d with
  | nil => cases h; rfl
  | cons p ps ih =>
    rw [List.map_cons, performAll] at h
    cases ho : (Disk.Operation.makeDirectory p).perform d with
    | error fault => rw [ho] at h; cases h; rfl
    | ok d1 => rw [ho] at h; rw [ih h, Disk.Operation.fileAt_makeDirectory ho]

/-- The operations of a save after its directories are there. -/
def replacement (p : Path) (c : Bytes) : List Disk.Operation :=
  [.create (p.withSuffix temporarySuffix), .fill (p.withSuffix temporarySuffix) c,
    .rename (p.withSuffix temporarySuffix) p]

/-- A replacement succeeds if all three of its operations do. -/
theorem replacement_ok_iff : performAll d (replacement p c) = (d', none) ↔ ∃ d1 d2,
    Disk.Operation.putFile d (p.withSuffix temporarySuffix) [] = .ok d1 ∧
      Disk.Operation.putFile d1 (p.withSuffix temporarySuffix) c = .ok d2 ∧
      (Disk.Operation.rename (p.withSuffix temporarySuffix) p).perform d2 = .ok d' := by
  constructor
  · intro h
    obtain ⟨d1, h1, hrest⟩ := performAll_cons_ok_iff.1 h
    obtain ⟨d2, h2, hrest⟩ := performAll_cons_ok_iff.1 hrest
    obtain ⟨d3, h3, hdone⟩ := performAll_cons_ok_iff.1 hrest
    cases hdone
    exact ⟨d1, d2, h1, h2, h3⟩
  · rintro ⟨d1, d2, h1, h2, h3⟩
    exact performAll_cons_ok_iff.2 ⟨d1, h1, performAll_cons_ok_iff.2 ⟨d2, h2, performAll_cons_ok_iff.2 ⟨d', h3, rfl⟩⟩⟩

/-- Content that was written beside a path and moved over it is there. -/
theorem replacement_ok (h : performAll d (replacement p c) = (d', none)) :
    d'.locate p = .ok p.place ∧ p.namesDirectory = false ∧ d'.fileAt p.place = some c ∧
      ∀ l, l ≠ p.place → l ≠ (p.withSuffix temporarySuffix).place → d'.fileAt l = d.fileAt l := by
  obtain ⟨d1, d2, h1, h2, h3⟩ := replacement_ok_iff.1 h
  -- the move is last, and its source is the file that was filled
  obtain ⟨_, hl, -, -, hn, -⟩ := Disk.Operation.perform_rename h3
  refine ⟨(Disk.Operation.perform_grows h3).locate hl, hn, ?_, fun l h4 h5 => ?_⟩
  · rw [Disk.Operation.fileAt_rename h3, if_pos rfl, Disk.Operation.fileAt_putFile h2, if_pos rfl]
  · rw [Disk.Operation.fileAt_rename h3, if_neg h4, if_neg h5, Disk.Operation.fileAt_putFile h2, if_neg h5,
      Disk.Operation.fileAt_putFile h1, if_neg h5]

/-- Nothing is left beside a path once the content was moved over it. -/
theorem replacement_beside (h : performAll d (replacement p c) = (d', none))
    (hp : (p.withSuffix temporarySuffix).place ≠ p.place) :
    d'.fileAt (p.withSuffix temporarySuffix).place = none := by
  obtain ⟨d1, d2, -, -, h3⟩ := replacement_ok_iff.1 h
  rw [Disk.Operation.fileAt_rename h3, if_neg hp, if_pos rfl]

/-- A replacement that fails touches no file but the one beside. -/
theorem replacement_error {fault : DiskFault} (h : performAll d (replacement p c) = (d', some fault))
    (l : Location) (hl : l ≠ (p.withSuffix temporarySuffix).place) : d'.fileAt l = d.fileAt l := by
  simp only [replacement, performAll] at h
  set b := p.withSuffix temporarySuffix
  cases h1 : (Disk.Operation.create b).perform d with
  | error fault => simp only [h1, Prod.mk.injEq] at h; rw [← h.1]
  | ok d1 =>
    simp only [h1] at h
    have e1 : d1.fileAt l = d.fileAt l := by rw [Disk.Operation.fileAt_putFile h1, if_neg hl]
    cases h2 : (Disk.Operation.fill b c).perform d1 with
    | error fault => simp only [h2, Prod.mk.injEq] at h; rw [← h.1, e1]
    | ok d2 =>
      simp only [h2] at h
      have e2 : d2.fileAt l = d.fileAt l := by rw [Disk.Operation.fileAt_putFile h2, if_neg hl, e1]
      cases h3 : (Disk.Operation.rename b p).perform d2 with
      | error fault => simp only [h3, Prod.mk.injEq] at h; rw [← h.1, e2]
      | ok d3 => simp [h3] at h

/-- A file that was opened can be filled with anything. -/
theorem fill_after_create {q : Path} {d1 : Disk} (h : Disk.Operation.putFile d q [] = .ok d1) (c : Bytes) :
    ∃ d2, Disk.Operation.putFile d1 q c = .ok d2 ∧ d2.locate q = .ok q.place ∧ d2.get? q.place = some (.file c) := by
  obtain ⟨hl, hd, hn, rfl⟩ := Disk.Operation.putFile_ok_iff.1 h
  have hroot : q.place ≠ [] := Disk.ne_root hd
  have hl1 := (Disk.grows_insert (e := .file []) hd).locate hl
  have hg1 : (d.insert q.place (.file [])).get? q.place = some (.file []) := by rw [Disk.get?_insert hroot, if_pos rfl]
  refine ⟨_, Disk.Operation.putFile_ok_iff.2 ⟨hl1, by simp [hg1], hn, rfl⟩, ?_, ?_⟩
  · exact (Disk.grows_insert (e := .file c) (by simp [hg1])).locate hl1
  · rw [Disk.get?_insert hroot, if_pos rfl]

/-- Where the file beside is the file itself, a replacement fails before it does anything. -/
theorem replacement_inPlace {fault : DiskFault} (h : performAll d (replacement p c) = (d', some fault))
    (hp : (p.withSuffix temporarySuffix).place = p.place) (hn : p.namesDirectory = false) : d' = d := by
  cases h1 : Disk.Operation.putFile d (p.withSuffix temporarySuffix) [] with
  | error fault =>
    simp only [replacement, performAll, Disk.Operation.perform, h1, Prod.mk.injEq] at h
    exact h.1.symm
  | ok d1 =>
    exfalso
    obtain ⟨d2, h2, hl2, hg2⟩ := fill_after_create h1 c
    have hlp : d2.locate p = .ok (p.withSuffix temporarySuffix).place := by
      rw [← Disk.locate_congr (Path.steps_withSuffix temporarySuffix hp)]
      exact hl2
    -- nothing is in the way of moving the file to where it is
    have h3 : (Disk.Operation.rename (p.withSuffix temporarySuffix) p).perform d2 = .ok d2 := by
      simp [Disk.Operation.perform, bind, Except.bind, hl2, hlp, hg2, hn]
    rw [replacement_ok_iff.2 ⟨d1, d2, h1, h2, h3⟩] at h
    cases h

/-! ### Saves -/

/-- **What a save to a file goes through**: its directories, then the replacement. -/
theorem save_file_cases {r : Except Error Unit} (h : st.save (.file p) c = (r, st')) :
    ∃ d, st.disk.Grows d ∧ (∀ l, d.fileAt l = st.disk.fileAt l) ∧ st'.held = st.held ∧
      ((∃ fault, r = .error (failure fault) ∧ st'.disk = d) ∨
        (∃ fault, r = .error (failure fault) ∧
          performAll d (replacement p c) = (st'.disk, some fault)) ∨
        r = .ok () ∧ performAll d (replacement p c) = (st'.disk, none)) := by
  have hops : saveOperations p c = (directories p).map .makeDirectory ++ replacement p c := rfl
  simp only [save, hops, performAll_append] at h
  cases h1 : performAll st.disk ((directories p).map .makeDirectory) with
  | mk d r1 =>
    refine ⟨d, performAll_grows h1, fileAt_makeDirectories h1, ?_⟩
    cases r1 with
    | some fault =>
      simp only [h1, Prod.mk.injEq] at h
      obtain ⟨rfl, rfl⟩ := h
      exact ⟨rfl, .inl ⟨fault, rfl, rfl⟩⟩
    | none =>
      simp only [h1] at h
      cases h2 : performAll d (replacement p c) with
      | mk d2 r2 =>
        cases r2 with
        | some fault =>
          simp only [h2, Prod.mk.injEq] at h
          obtain ⟨rfl, rfl⟩ := h
          exact ⟨rfl, .inr (.inl ⟨fault, rfl, rfl⟩)⟩
        | none =>
          simp only [h2, Prod.mk.injEq] at h
          obtain ⟨rfl, rfl⟩ := h
          exact ⟨rfl, .inr (.inr ⟨rfl, rfl⟩)⟩

theorem save_grows {r : Except Error Unit} (h : st.save place c = (r, st')) :
    st.disk.Grows st'.disk := by
  cases place with
  | memory => simp only [save, Prod.mk.injEq] at h; rw [← h.2]; exact Disk.Grows.refl
  | file p =>
    obtain ⟨d, hd, -, -, ⟨_, -, h1⟩ | ⟨_, -, h1⟩ | ⟨-, h1⟩⟩ := save_file_cases h
    · rw [h1]; exact hd
    · exact hd.trans (performAll_grows h1)
    · exact hd.trans (performAll_grows h1)

/-- **A save that succeeds is what is kept and loaded then.** -/
theorem save_ok {u : Unit} (h : st.save place c = (.ok u, st')) :
    st'.kept place = some c ∧ st'.blob place = some c := by
  suffices hb : st'.blob place = some c from ⟨kept_of_blob hb, hb⟩
  cases place with
  | memory => simp only [save, Prod.mk.injEq, true_and] at h; subst h; rfl
  | file p =>
    obtain ⟨d, -, -, -, ⟨_, hr, -⟩ | ⟨_, hr, -⟩ | ⟨-, h1⟩⟩ := save_file_cases h
    · cases hr
    · cases hr
    · obtain ⟨hl, hn, hf, -⟩ := replacement_ok h1
      exact blob_file_iff.2 ⟨hl, hn, hf⟩

/-- **A save that fails leaves what is kept.** -/
theorem save_error {e : Error} (h : st.save place c = (.error e, st')) :
    st'.kept place = st.kept place := by
  cases place with
  | memory => simp [save] at h
  | file p =>
    simp only [kept]
    cases hn : p.namesDirectory with
    | true => rfl
    | false =>
      simp only [Bool.false_eq_true, if_false]
      obtain ⟨d, -, hf, -, ⟨_, -, h1⟩ | ⟨_, -, h1⟩ | ⟨hr, -⟩⟩ := save_file_cases h
      · rw [h1, hf]
      -- a name that ends in the suffix already is its own file beside
      · by_cases hp : (p.withSuffix temporarySuffix).place = p.place
        · rw [replacement_inPlace h1 hp hn, hf]
        · rw [replacement_error h1 _ (Ne.symm hp), hf]
      · cases hr

/-- **A save touches no file but its target and the file beside it.** -/
theorem save_fileAt {r : Except Error Unit} (h : st.save (.file q) c = (r, st')) {l : Location}
    (hq : l ≠ q.place) (hb : l ≠ (q.withSuffix temporarySuffix).place) :
    st'.disk.fileAt l = st.disk.fileAt l := by
  obtain ⟨d, -, hf, -, ⟨_, -, h1⟩ | ⟨_, -, h1⟩ | ⟨-, h1⟩⟩ := save_file_cases h
  · rw [h1, hf]
  · rw [replacement_error h1 _ hb, hf]
  · rw [(replacement_ok h1).2.2.2 _ hq hb, hf]

/-- **A save leaves the places that it is clear of.** -/
theorem save_clear {r : Except Error Unit} (h : st.save (.file q) c = (r, st'))
    (hc : ∀ p ∈ place.path?, p.ClearOf q) : st'.kept place = st.kept place := by
  cases place with
  | memory =>
    obtain ⟨_, -, -, hh, -⟩ := save_file_cases h
    exact hh
  | file p =>
    obtain ⟨hq, hb⟩ := hc p rfl
    simp only [kept]
    congr 1
    exact save_fileAt h hq hb

/-- **A save that succeeds leaves nothing beside its target.** -/
theorem save_beside {u : Unit} (h : st.save (.file q) c = (.ok u, st'))
    (hq : (q.withSuffix temporarySuffix).place ≠ q.place) :
    st'.disk.fileAt (q.withSuffix temporarySuffix).place = none := by
  obtain ⟨d, -, -, -, ⟨_, hr, -⟩ | ⟨_, hr, -⟩ | ⟨-, h1⟩⟩ := save_file_cases h
  · cases hr
  · cases hr
  · exact replacement_beside h1 hq

/-- A blob in memory has nothing to do with files. -/
theorem save_memory {r : Except Error Unit} (h : st.save .memory c = (r, st')) :
    st'.kept (.file p) = st.kept (.file p) := by
  simp only [save, Prod.mk.injEq] at h; rw [← h.2]; rfl

/-! ### What a place keeps over time -/

/-- Over time the place of a blob keeps what was saved last, and a load that returned a blob or
could return the one saved last does so. -/
structure Keeps (place : BlobPlace) (last : Option Bytes) (st st' : Storage) : Prop where
  kept : st'.kept place = last.or (st.kept place)
  blob : ∀ b, last.or (st.blob place) = some b → st'.blob place = some b

variable {last last' : Option Bytes}

theorem Keeps.refl : Keeps place none st st := ⟨by simp, fun _ h => by simpa using h⟩

theorem Keeps.trans (h : Keeps place last st st') (h' : Keeps place last' st' st'') :
    Keeps place (last'.or last) st st'' := by
  refine ⟨by rw [h'.kept, h.kept, Option.or_assoc], fun b hb => h'.blob b ?_⟩
  cases last' with
  | some c => simpa using hb
  | none => simpa using h.blob b (by simpa using hb)

/-- Where directories stay and what is kept stays, a load returns what it returned. -/
theorem Keeps.of_grows (hd : st.disk.Grows st'.disk) (hk : st'.kept place = st.kept place) :
    Keeps place none st st' := by
  refine ⟨by simpa using hk, fun b hb => ?_⟩
  simp only [Option.none_or] at hb
  cases place with
  | memory => rw [kept_of_blob hb] at hk; exact hk
  | file p =>
    obtain ⟨hl, hn, hf⟩ := blob_file_iff.1 hb
    simp only [Storage.kept, hn, Bool.false_eq_true, if_false] at hk
    exact blob_file_iff.2 ⟨hd.locate hl, hn, hk.trans hf⟩

theorem Keeps.save_ok {u : Unit} (h : st.save place c = (.ok u, st')) :
    Keeps place (some c) st st' := by
  obtain ⟨hk, hb⟩ := Storage.save_ok h
  exact ⟨by simpa using hk, fun b h => by simp at h; rw [← h]; exact hb⟩

theorem Keeps.save_error {e : Error} (h : st.save place c = (.error e, st')) :
    Keeps place none st st' := .of_grows (save_grows h) (Storage.save_error h)

/-- **If a load sees what is kept, it always does**: it then returns what was saved last. -/
theorem Keeps.blob_eq_kept (h : Keeps place last st st') (hs : st.blob place = st.kept place) :
    st'.blob place = st'.kept place := by
  cases hk : st'.kept place with
  | none =>
    cases hb : st'.blob place with
    | none => rfl
    | some b => rw [kept_of_blob hb] at hk; cases hk
  | some b => exact h.blob b (by rw [hs, ← h.kept, hk])

end Storage

end FlowHost
