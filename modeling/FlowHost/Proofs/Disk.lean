import FlowHost.Storage.Disk
import Mathlib.Data.List.Basic

/-!
# What operations do to a disk

A path that leads anywhere leads to its own place (`Disk.locate_eq_place`), whatever the disk.
Operations never take a directory away (`perform_grows`), so a path that leads somewhere
leads there ever after (`Disk.Grows.locate`), and **each operation changes the files of its own
places only** (`fileAt_makeDirectory`, `fileAt_putFile`, `fileAt_rename`).
-/

namespace FlowHost

/-- The place that one step leads to. -/
def PathStep.from (here : Location) : PathStep → Location
  | .up => here.dropLast
  | .down name => here ++ [name]

/-- The place that a path leads to if every directory on the way is there. -/
def Path.place (p : Path) : Location := p.steps.foldl PathStep.from []

namespace Disk

/-- The content of the file at a place, if there is a file. -/
def fileAt (d : Disk) (l : Location) : Option Bytes :=
  match d.get? l with
  | some (.file c) => some c
  | _ => none

/-- Every directory of one disk is a directory of another. -/
def Grows (d d' : Disk) : Prop := ∀ l, d.get? l = some .directory → d'.get? l = some .directory

variable {d d' d'' : Disk} {p q : Path} {l l' here : Location} {steps : List PathStep} {e : Entry}

theorem Grows.refl : d.Grows d := fun _ h => h

theorem Grows.trans (h : d.Grows d') (h' : d'.Grows d'') : d.Grows d'' := fun l hl => h' l (h l hl)

@[simp] theorem get?_root : d.get? [] = some .directory := rfl

theorem fileAt_eq_some {c : Bytes} : d.fileAt l = some c ↔ d.get? l = some (.file c) := by
  unfold fileAt
  split <;> simp_all

/-- The root is a directory, so a place without one is not the root. -/
theorem ne_root (h : d.get? l ≠ some .directory) : l ≠ [] := by
  rintro rfl
  exact h rfl

theorem lookup_filter_ne (es : List (Location × Entry)) (h : l' ≠ l) :
    (es.filter fun e => e.1 ≠ l).lookup l' = es.lookup l' := by
  induction es with
  | nil => rfl
  | cons e es ih =>
    obtain ⟨k, v⟩ := e
    by_cases hk : k = l
    · have hne : (l' == k) = false := beq_eq_false_iff_ne.2 (hk ▸ h)
      rw [List.filter_cons_of_neg (by simp [hk]), ih, List.lookup_cons, hne]
    · rw [List.filter_cons_of_pos (by simp [hk]), List.lookup_cons, List.lookup_cons, ih]

theorem lookup_filter_self (es : List (Location × Entry)) :
    (es.filter fun e => e.1 ≠ l).lookup l = none := by
  induction es with
  | nil => rfl
  | cons e es ih =>
    obtain ⟨k, v⟩ := e
    by_cases hk : k = l
    · rw [List.filter_cons_of_neg (by simp [hk]), ih]
    · have hne : (l == k) = false := beq_eq_false_iff_ne.2 (Ne.symm hk)
      rw [List.filter_cons_of_pos (by simp [hk]), List.lookup_cons, hne, ih]

theorem get?_insert (h : l ≠ []) : (d.insert l e).get? l' = if l' = l then some e else d.get? l' := by
  by_cases hl : l' = l
  · subst hl
    simp [get?, insert, h]
  · have hne : (l' == l) = false := by simp [hl]
    simp only [get?, insert, List.lookup_cons, hne, hl, if_false, lookup_filter_ne _ hl]

theorem get?_erase (h : l ≠ []) : (d.erase l).get? l' = if l' = l then none else d.get? l' := by
  by_cases hl : l' = l
  · subst hl
    simp only [get?, erase, h, if_false, if_true, lookup_filter_self]
  · simp only [get?, erase, hl, if_false, lookup_filter_ne _ hl]

/-- **A walk takes a step** from a directory, by a name that is not too long. -/
theorem walk_cons_ok_iff {step : PathStep} {rest : List PathStep} : d.walk here (step :: rest) = .ok l ↔
    d.get? here = some .directory ∧ (∀ name, step = .down name → name.utf8ByteSize ≤ maxName) ∧
      d.walk (step.from here) rest = .ok l := by
  conv_lhs => unfold walk
  cases hg : d.get? here with
  | none => simp
  | some entry =>
    cases entry with
    | file c => simp
    | directory =>
      cases step with
      | up => simp [PathStep.from]
      | down name =>
        by_cases hw : maxName < name.utf8ByteSize
        · simp [hw, Nat.not_le.2 hw]
        · simp [hw, Nat.le_of_not_lt hw, PathStep.from]

/-- **A walk ends at the place that its steps spell.** -/
theorem walk_eq (h : d.walk here steps = .ok l) : l = steps.foldl PathStep.from here := by
  induction steps generalizing here with
  | nil => simpa [walk] using h.symm
  | cons step rest ih => exact ih (walk_cons_ok_iff.1 h).2.2

theorem locate_eq_place (h : d.locate p = .ok l) : l = p.place := by
  unfold locate at h
  split at h
  · exact walk_eq h
  · cases h

/-- A walk that comes to its end does so on every disk with more directories. -/
theorem Grows.walk (hd : d.Grows d') (h : d.walk here steps = .ok l) : d'.walk here steps = .ok l := by
  induction steps generalizing here with
  | nil => simpa [Disk.walk] using h
  | cons step rest ih =>
    obtain ⟨hhere, hfits, hrest⟩ := walk_cons_ok_iff.1 h
    exact walk_cons_ok_iff.2 ⟨hd here hhere, hfits, ih hrest⟩

theorem Grows.locate (hd : d.Grows d') (h : d.locate p = .ok l) : d'.locate p = .ok l := by
  unfold Disk.locate at h ⊢
  split at h
  · rename_i hu; rw [if_pos hu]; exact hd.walk h
  · cases h

/-- Putting an entry where there is no directory takes no directory away. -/
theorem grows_insert (h : d.get? l ≠ some .directory) : d.Grows (d.insert l e) := by
  have hl : l ≠ [] := ne_root h
  intro l' hl'
  rw [get?_insert hl, if_neg (by rintro rfl; exact h hl')]
  exact hl'

theorem grows_erase (h : d.get? l ≠ some .directory) : d.Grows (d.erase l) := by
  have hl : l ≠ [] := ne_root h
  intro l' hl'
  rw [get?_erase hl, if_neg (by rintro rfl; exact h hl')]
  exact hl'

namespace Operation

/-- A directory that is made is new, or the disk stays as it is. -/
theorem perform_makeDirectory (h : (makeDirectory p).perform d = .ok d') :
    d' = d ∨ d.get? p.place = none ∧ d' = d.insert p.place .directory := by
  simp only [perform, bind, Except.bind] at h
  cases hl : d.locate p with
  | error fault => simp [hl] at h
  | ok l =>
    obtain rfl := locate_eq_place hl
    cases hg : d.get? p.place with
    | none => right; exact ⟨rfl, by simpa [hl, hg] using h.symm⟩
    | some entry =>
      cases entry with
      | file c => simp [hl, hg] at h
      | directory => left; simpa [hl, hg] using h.symm

/-- What it takes to put content into a file, and what it does. -/
theorem putFile_ok_iff {c : Bytes} : putFile d p c = .ok d' ↔
    d.locate p = .ok p.place ∧ d.get? p.place ≠ some .directory ∧ p.namesDirectory = false ∧
      d' = d.insert p.place (.file c) := by
  simp only [putFile, bind, Except.bind]
  cases hl : d.locate p with
  | error fault => simp
  | ok l =>
    obtain rfl := locate_eq_place hl
    simp only
    split
    · simp_all
    · cases p.namesDirectory <;> simp_all [eq_comm]

/-- **What a move does**: nothing where both paths lead to one file. -/
theorem perform_rename (h : (rename p q).perform d = .ok d') :
    ∃ c, d.locate q = .ok q.place ∧ d.get? p.place = some (.file c) ∧
      d.get? q.place ≠ some .directory ∧ q.namesDirectory = false ∧
      d' = if p.place = q.place then d else (d.erase p.place).insert q.place (.file c) := by
  simp only [perform, bind, Except.bind] at h
  cases hp : d.locate p with
  | error fault => simp [hp] at h
  | ok l =>
    obtain rfl := locate_eq_place hp
    cases hq : d.locate q with
    | error fault => simp [hp, hq] at h
    | ok l =>
      obtain rfl := locate_eq_place hq
      simp only [hp, hq] at h
      cases hg : d.get? p.place with
      | none => simp [hg] at h
      | some entry =>
        cases entry with
        | directory => simp [hg] at h
        | file c =>
          simp only [hg] at h
          cases hn : q.namesDirectory with
          | true => simp [hn] at h
          | false =>
            simp only [hn, Bool.false_eq_true, if_false] at h
            refine ⟨c, rfl, rfl, ?_, rfl, ?_⟩
            · intro hd; simp [hd] at h
            · split at h
              · cases h
              · split at h
                · rename_i hs; rw [if_pos hs]; simpa using h.symm
                · rename_i hs; rw [if_neg hs]; simpa using h.symm

/-- **Operations take no directory away.** -/
theorem perform_grows {o : Operation} (h : o.perform d = .ok d') : d.Grows d' := by
  cases o with
  | makeDirectory p =>
    rcases perform_makeDirectory h with rfl | ⟨hn, rfl⟩
    · exact Grows.refl
    · exact grows_insert (by simp [hn])
  | create p => obtain ⟨-, hn, -, rfl⟩ := putFile_ok_iff.1 h; exact grows_insert hn
  | fill p c => obtain ⟨-, hn, -, rfl⟩ := putFile_ok_iff.1 h; exact grows_insert hn
  | rename p q =>
    obtain ⟨c, -, hp, hq, -, rfl⟩ := perform_rename h
    split
    · exact Grows.refl
    · rename_i hs
      have hp0 : p.place ≠ [] := ne_root (d := d) (by simp [hp])
      refine (grows_erase (by simp [hp])).trans (grows_insert ?_)
      rw [get?_erase hp0, if_neg (fun h => hs h.symm)]
      exact hq

theorem fileAt_makeDirectory (h : (makeDirectory p).perform d = .ok d') : d'.fileAt l = d.fileAt l := by
  rcases perform_makeDirectory h with rfl | ⟨hn, rfl⟩
  · rfl
  · have hp : p.place ≠ [] := ne_root (d := d) (by simp [hn])
    unfold fileAt
    rw [get?_insert hp]
    by_cases hl : l = p.place
    · simp [hl, hn]
    · rw [if_neg hl]

theorem fileAt_putFile {c : Bytes} (h : putFile d p c = .ok d') :
    d'.fileAt l = if l = p.place then some c else d.fileAt l := by
  obtain ⟨-, hn, -, rfl⟩ := putFile_ok_iff.1 h
  have hp : p.place ≠ [] := ne_root hn
  unfold fileAt
  rw [get?_insert hp]
  by_cases hl : l = p.place
  · simp [hl]
  · rw [if_neg hl, if_neg hl]

/-- **A move leaves the content at its target** and nothing at its source. -/
theorem fileAt_rename (h : (rename p q).perform d = .ok d') :
    d'.fileAt l = if l = q.place then d.fileAt p.place
      else if l = p.place then none else d.fileAt l := by
  obtain ⟨c, -, hp, hq, -, rfl⟩ := perform_rename h
  have hp0 : p.place ≠ [] := ne_root (d := d) (by simp [hp])
  have hq0 : q.place ≠ [] := ne_root hq
  by_cases hs : p.place = q.place
  · rw [if_pos hs, hs]
    by_cases hl : l = q.place
    · rw [if_pos hl, hl]
    · rw [if_neg hl, if_neg hl]
  · rw [if_neg hs]
    unfold fileAt
    rw [get?_insert hq0, get?_erase hp0, hp]
    by_cases hl : l = q.place
    · simp [hl]
    · by_cases hl' : l = p.place
      · simp [hl', hs]
      · simp [hl, hl']

end Operation

end Disk

end FlowHost
