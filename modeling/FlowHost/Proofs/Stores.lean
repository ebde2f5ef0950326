import FlowHost.Proofs.Register

/-!
# Stores side by side

Several stores, each with a path of its own, are used in turn on one disk. A store is undisturbed by another as
long as its file is not the one that the other writes beside its own.

* `Storage.uses_keep`, `uses_fileAt`: what a run of uses keeps.
* `Storage.stores_apart`: **a load returns what was saved last at its own path**, unless that path is beside
  the other; then a save at the other takes the file away.
-/

namespace FlowHost

/-- A use of the store at a path, with what it was given or what it returned. -/
inductive StoreUse where
  | save (path : Path) (content : Bytes)
  | load (path : Path) (found : Option Bytes)

namespace StoreUse

/-- The path of the store that is used. -/
def path : StoreUse → Path
  | save p _ => p
  | load p _ => p

/-- What a use saves at a path. -/
def saved? (q : Path) : StoreUse → Option Bytes
  | save p content => if p = q then some content else none
  | load _ _ => none

/-- A use that succeeds. -/
def Succeeds : StoreUse → Storage → Storage → Prop
  | save p content, st, st' => st.save (.file p) content = (.ok (), st')
  | load p found, st, st' => st.load (.file p) = .ok found ∧ st' = st

/-- What uses saved last at a path. -/
def lastSaved (q : Path) (uses : List StoreUse) : Option Bytes := (uses.filterMap (saved? q)).getLast?

theorem lastSaved_cons (q : Path) (x : StoreUse) (xs : List StoreUse) :
    lastSaved q (x :: xs) = (lastSaved q xs).or (x.saved? q) := by
  unfold lastSaved
  rw [List.filterMap_cons]
  cases x.saved? q with
  | none => rw [Option.or_none]
  | some content =>
    simp only [List.getLast?_cons]
    cases (xs.filterMap (saved? q)).getLast? <;> rfl

end StoreUse

open StoreUse

namespace Storage

/-- **Uses of stores, one after another, that all succeed.** -/
inductive Uses : Storage → List StoreUse → Storage → Prop
  | nil (st : Storage) : Uses st [] st
  | cons {st st' st'' : Storage} {x : StoreUse} {xs : List StoreUse} (h : x.Succeeds st st')
      (h' : Uses st' xs st'') : Uses st (x :: xs) st''

variable {p q : Path} {st st' : Storage} {x : StoreUse} {xs : List StoreUse}

/-- One use, of the store itself or of one that it is clear of. -/
theorem keeps_of_succeeds (h : x.Succeeds st st') (hx : x.path = q ∨ q.ClearOf x.path) :
    Keeps (.file q) (x.saved? q) st st' := by
  cases x with
  | load p found =>
    obtain ⟨-, rfl⟩ := h
    exact .refl
  | save p content =>
    have hsave : st.save (.file p) content = (.ok (), st') := h
    by_cases hp : p = q
    · subst hp
      simp only [saved?, if_true]
      exact .save_ok hsave
    · simp only [saved?, if_neg hp]
      refine .of_grows (save_grows hsave) (save_clear hsave ?_)
      rintro _ ⟨⟩
      exact hx.resolve_left hp

/-- **Over any number of uses** a place keeps what was saved last in its own store. -/
theorem uses_keep (h : Uses st xs st') (hxs : ∀ x ∈ xs, x.path = q ∨ q.ClearOf x.path) :
    Keeps (.file q) (lastSaved q xs) st st' := by
  induction h with
  | nil => exact .refl
  | cons hx _ ih =>
    rw [lastSaved_cons]
    exact (keeps_of_succeeds hx (hxs _ List.mem_cons_self)).trans
      (ih fun x hx => hxs x (List.mem_cons_of_mem _ hx))

/-- **Files that are neither a store's own nor beside it** stay as they are. -/
theorem uses_fileAt (h : Uses st xs st') {l : Location}
    (hxs : ∀ x ∈ xs, l ≠ x.path.place ∧ l ≠ (x.path.withSuffix temporarySuffix).place) :
    st'.disk.fileAt l = st.disk.fileAt l := by
  induction h with
  | nil => rfl
  | @cons st st1 st2 x xs hx _ ih =>
    rw [ih fun x hx => hxs x (List.mem_cons_of_mem _ hx)]
    obtain ⟨hp, hb⟩ := hxs x List.mem_cons_self
    cases x with
    | load p found =>
      obtain ⟨-, rfl⟩ := hx
      rfl
    | save p content => exact save_fileAt hx hp hb

/-- **A store at `q` that the uses in between did not disturb**: what it keeps and what a load returns is what was
saved last in it, or else what was there. -/
structure Undisturbed (q : Path) (uses : List StoreUse) (st st' : Storage) : Prop where
  kept : st'.kept (.file q) = (lastSaved q uses).or (st.kept (.file q))
  /-- What was saved last, or else found before, is loaded. -/
  loads : ∀ b, (lastSaved q uses).or (st.blob (.file q)) = some b → st'.load (.file q) = .ok (some b)
  /-- Nothing else is loaded than what was saved last, or else kept before. -/
  loaded : ∀ b, st'.load (.file q) = .ok (some b) → (lastSaved q uses).or (st.kept (.file q)) = some b
  /-- Where a load sees at first what is there, every load returns what was saved last, or what it
  returned at first. -/
  found : st.blob (.file q) = st.kept (.file q) → ∀ r, st'.load (.file q) = .ok r →
    r = (lastSaved q uses).or (st.blob (.file q))
  /-- All files stay that are neither a store's own nor beside it. -/
  others : ∀ l, (∀ x ∈ uses, l ≠ x.path.place ∧ l ≠ (x.path.withSuffix temporarySuffix).place) →
    st'.disk.fileAt l = st.disk.fileAt l

theorem Uses.undisturbed (h : Uses st xs st') (hxs : ∀ x ∈ xs, x.path = q ∨ q.ClearOf x.path) :
    Undisturbed q xs st st' := by
  have hkeeps := uses_keep h hxs
  have hloads : ∀ b, (lastSaved q xs).or (st.blob (.file q)) = some b →
      st'.load (.file q) = .ok (some b) := fun b hb => blob_eq_some.1 (hkeeps.blob b hb)
  have hloaded : ∀ b, st'.load (.file q) = .ok (some b) →
      (lastSaved q xs).or (st.kept (.file q)) = some b := by
    intro b hb
    rw [← hkeeps.kept]
    exact kept_of_blob (blob_eq_some.2 hb)
  refine ⟨hkeeps.kept, hloads, hloaded, fun hsees r hr => ?_, fun l hl => uses_fileAt h hl⟩
  cases r with
  | some b => rw [hsees, hloaded b hr]
  | none =>
    cases hb : (lastSaved q xs).or (st.blob (.file q)) with
    | none => rfl
    | some b =>
      rw [hloads b hb] at hr
      cases hr

/-- **Two stores with files of their own.** Neither saves at `p` nor loads disturb the store at `q`, unless `q` is
where a save at `p` writes beside its file: then nothing is left there after a save at `p`. -/
theorem stores_apart (p q : Path) (hpq : q.place ≠ p.place) :
    (q.place ≠ (p.withSuffix temporarySuffix).place →
        ∀ st uses st', (∀ x ∈ uses, x.path = p ∨ x.path = q) → Uses st uses st' →
          Undisturbed q uses st st') ∧
      (q.place = (p.withSuffix temporarySuffix).place →
        ∀ (st : Storage) (content : Bytes) (st' : Storage),
          st.save (.file p) content = (.ok (), st') → st'.kept (.file q) = none) := by
  refine ⟨fun hbeside st uses st' huses h => ?_, fun hbeside st content st' h => ?_⟩
  · refine h.undisturbed fun x hx => ?_
    rcases huses x hx with hxp | hxq
    · exact .inr (hxp ▸ ⟨hpq, hbeside⟩)
    · exact .inl hxq
  · have hnone := save_beside h (hbeside ▸ hpq)
    simp only [kept, hbeside, hnone, ite_self]

end Storage

/-! ### A file beside another -/

namespace Beside

/-- Where a guest's blob is kept. -/
def blobFile : Path := ⟨[.down "a.tmp"], false⟩

/-- Where bundles are kept: a save writes beside this file what is the blob's. -/
def bundleFile : Path := ⟨[.down "a.bin"], false⟩

/-- Where bundles could be kept as well. -/
def clearFile : Path := ⟨[.down "b.bin"], false⟩

/-- Storage in which nothing was saved yet. -/
def empty : Storage := ⟨.empty, none⟩

end Beside

namespace Storage

open Beside

/-- The blob is loaded as it was saved, after a bundle was saved under another name. -/
theorem stores_apart_clear :
    blobFile.place ≠ clearFile.place ∧ blobFile.place ≠ (clearFile.withSuffix temporarySuffix).place ∧
      ∃ st', Uses empty [.save blobFile [120], .save clearFile [121]] st' ∧
        st'.load (.file blobFile) = .ok (some [120]) := by
  have hpq : blobFile.place ≠ clearFile.place := by decide
  have hbeside : blobFile.place ≠ (clearFile.withSuffix temporarySuffix).place := by decide
  have huses : Uses empty [.save blobFile [120], .save clearFile [121]] _ := .cons rfl (.cons rfl (.nil _))
  have hall : ∀ x ∈ [StoreUse.save blobFile [120], .save clearFile [121]],
      x.path = clearFile ∨ x.path = blobFile := by
    intro x hx
    simp only [List.mem_cons, List.not_mem_nil, or_false] at hx
    rcases hx with rfl | rfl
    · exact .inr rfl
    · exact .inl rfl
  have happart := (stores_apart clearFile blobFile hpq).1 hbeside empty _ _ hall huses
  exact ⟨hpq, hbeside, _, huses, happart.loads [120] rfl⟩

/-- **A save takes the file of another store away**, if that is beside its own. -/
theorem save_takes_beside :
    blobFile.place ≠ bundleFile.place ∧
      ∃ st st', empty.save (.file blobFile) [120] = (.ok (), st) ∧
        st.load (.file blobFile) = .ok (some [120]) ∧
        st.save (.file bundleFile) [121] = (.ok (), st') ∧ st'.load (.file blobFile) = .ok none :=
  ⟨by decide, _, _, rfl, rfl, rfl, rfl⟩

end Storage

end FlowHost
