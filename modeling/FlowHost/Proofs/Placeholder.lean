import FlowHost.Proofs.Expansion
import FlowHost.Proofs.Quotes
import Mathlib.Data.List.Infix

/-!
# References in documents

A document with one reference, in quotes, as the value of a field (`Placeholder`). The environment puts the value of the
variable between the quotes, and the document is read up to them as it was.

* `Placeholder.expand_eq`: **what the environment makes of the document.**
* `Placeholder.read?_plain`: a value that spells itself **stands in the field and changes nothing else.**
* `Placeholder.held`: whatever the value is, **no text that is as long as it gets out of it.**
-/

namespace FlowHost

open Json

/-- **A document with a reference in quotes**, and the object that it is: the members before the field, its name, and
the members after it. -/
structure Placeholder where
  opening : List Char
  name : List Char
  closing : List Char
  before : List (Option String × Json)
  key : String
  after : List (Option String × Json)

namespace Placeholder

/-- The document with some characters between the quotes. -/
def holding (d : Placeholder) (v : List Char) : List Char := d.opening ++ '"' :: (v ++ '"' :: d.closing)

/-- The reference to the variable. -/
def reference (d : Placeholder) : List Char := '$' :: '\x7b' :: d.name ++ ['\x7d']

/-- The document. -/
def text (d : Placeholder) : String := String.ofList (d.holding d.reference)

/-- The object with a value for the field. -/
def object (d : Placeholder) (j : Json) : Json := .object (d.before ++ (some d.key, j) :: d.after)

/-- What ends the document early: nothing for the field, and nothing after it. -/
def early : List Char := ['n', 'u', 'l', 'l', '\x7d']

/-- **The reference is the value of the field, and the only one in the document.** -/
structure IsPlaced (d : Placeholder) : Prop where
  reads : read? d.text = some (d.object (ofText (String.ofList d.reference)))
  sound : (d.object (ofText (String.ofList d.reference))).isSound 128 = true
  opens : read? (String.ofList (d.opening ++ early)) = some (.object (d.before ++ [(some d.key, .null)]))
  refers : Environment.reference? (d.reference ++ '"' :: d.closing) = some (d.name, '"' :: d.closing)
  alone : ∀ i < (d.holding d.reference).length, i ≠ d.opening.length + 1 →
    Environment.reference? ((d.holding d.reference).drop i) = none

/-! ### What the environment puts in -/

variable {d : Placeholder} {env : Environment} {value : String}

/-- What stands before and after the reference are the pieces of the document. -/
theorem isSplit_holding (hd : d.IsPlaced) :
    Environment.Pieces.IsSplit ⟨d.opening ++ ['"'], [(d.name, '"' :: d.closing)]⟩ (d.holding d.reference) := by
  obtain ⟨hname, hrefers⟩ := Environment.reference?_iff.1 hd.refers
  have hholding : d.holding d.reference = (d.opening ++ ['"']) ++ (Environment.reference d.name ++ '"' :: d.closing) := by
    simp [holding, reference, Environment.reference]
  refine ⟨by simp [hholding, Environment.Pieces.join], by simpa using hname, fun before name after hname' h => ?_⟩
  have hread : Environment.reference? ((d.holding d.reference).drop before.length) = some (name, after) := by
    rw [h, List.drop_left]
    exact Environment.reference?_iff.2 ⟨hname', rfl⟩
  have hplace : before.length = (d.opening ++ ['"']).length := by
    by_contra hne
    have hnone := hd.alone before.length (by rw [h]; simp [Environment.reference]) (by simpa using hne)
    rw [hread] at hnone
    cases hnone
  obtain ⟨rfl, hrest⟩ := List.append_inj (h.symm.trans hholding) hplace
  have hsame : some (name, after) = some (d.name, '"' :: d.closing) := by
    rw [← hd.refers, hrefers, ← hrest]
    exact (Environment.reference?_iff.2 ⟨hname', rfl⟩).symm
  obtain ⟨rfl, rfl⟩ := Prod.mk.inj (Option.some.inj hsame)
  exact ⟨[], _, [], rfl, by simp [Environment.Pieces.join]⟩

/-- **The environment puts the value between the quotes.** -/
theorem expand_eq (hd : d.IsPlaced) (hvalue : env.lookup (String.ofList d.name) = some value) :
    env.expand d.text = String.ofList (d.holding value.toList) := by
  rw [Environment.expand, text, String.toList_ofList, Environment.expandChars_eq, ← (isSplit_holding hd).eq_split]
  simp [Environment.Pieces.join, Environment.standing, hvalue, holding]

/-! ### Up to the reference -/

variable {u p r rest cs : List Char}

/-- What stands before the early end is the early end's last part, or has it all. -/
theorem suffix_early (h : u ++ r = p ++ early) : (∃ w, p = u ++ w ∧ r = w ++ early) ∨ r ∈ early.tails := by
  obtain ⟨w, hp, hr⟩ | ⟨w, -, hr⟩ := List.append_eq_append_iff.1 h
  · exact .inl ⟨w, hp, hr⟩
  · exact .inr ((List.mem_tails _ _).2 ⟨w, hr.symm⟩)

/-- What is not of the early end stands before it. -/
theorem before_early {c : Char} (h : u ++ r = p ++ early) (hr : skipBlanks r = c :: rest) (hc : c ∉ early) :
    ∃ b w, p = u ++ b :: w ∧ r = b :: w ++ early := by
  obtain ⟨w, hp, hw⟩ | hmem := suffix_early h
  · cases w with
    | nil =>
      rw [hw] at hr
      obtain ⟨rfl, -⟩ := List.cons.inj hr
      exact absurd (by simp [early]) hc
    | cons b w => exact ⟨b, w, hp, hw⟩
  · simp only [early, List.tails, List.mem_cons, List.not_mem_nil, or_false] at hmem
    rcases hmem with rfl | rfl | rfl | rfl | rfl | rfl <;> cases hr <;> exact absurd (by simp [early]) hc

/-- The brace that closes the document is that of the early end. -/
theorem brace_of_early (h : u ++ r = p ++ early) (hr : skipBlanks r = '\x7d' :: rest) (hrest : skipBlanks rest = []) :
    r = ['\x7d'] := by
  obtain ⟨w, -, rfl⟩ | hmem := suffix_early h
  · -- the letters of the early end are neither blank nor the brace
    obtain ⟨bs, hbs, hcs⟩ := eq_append_of_skipBlanks hr
    obtain ⟨bs', hbs', hcs'⟩ := eq_append_of_skipBlanks hrest
    have hletter : 'l' ∈ w ++ early := by simp [early]
    rw [hcs, hcs', List.append_nil, List.mem_append, List.mem_cons] at hletter
    obtain hmem | hmem | hmem := hletter
    · cases hbs 'l' hmem
    · cases hmem
    · cases hbs' 'l' hmem
  · simp only [early, List.tails, List.mem_cons, List.not_mem_nil, or_false] at hmem
    rcases hmem with rfl | rfl | rfl | rfl | rfl | rfl <;> first | rfl | cases hr

/-- A value depends on the blanks before it no more than its reader does. -/
theorem reads_of_skipBlanks {part : Part} (h : Reads cs part rest) (heq : skipBlanks p = skipBlanks cs) :
    Reads p part rest := by
  cases h with
  | word hj h => exact .word hj (heq.trans h)
  | number h => exact .number (by rw [heq, h])
  | text h hx => exact .text (heq.trans h) hx
  | noItems h hr => exact .noItems (heq.trans h) hr
  | array h hj hjs => exact .array (heq.trans h) hj hjs
  | noMembers h hr => exact .noMembers (heq.trans h) hr
  | object h hm hms => exact .object (heq.trans h) hm hms
  | member h hx hr hj => exact .member (heq.trans h) hx hr hj
  | lastItem h => exact .lastItem (heq.trans h)
  | item h hj hjs => exact .item (heq.trans h) hj hjs
  | lastMember h => exact .lastMember (heq.trans h)
  | further h hm hms => exact .further (heq.trans h) hm hms

theorem skipBlanks_of_null (h : Reads cs (.value .null) ['\x7d']) : skipBlanks cs = early := by
  obtain ⟨j, hj⟩ : ∃ j, j = Json.null := ⟨_, rfl⟩
  rw [← hj] at h
  cases h with
  | word hw h =>
    simp only [words, hj, List.mem_cons, List.not_mem_nil, or_false, Prod.mk.injEq, reduceCtorEq, and_false,
      and_true] at hw
    rw [h, hw]
    rfl
  | number h => cases hj
  | text h hx => cases hj
  | noItems h hr => cases hj
  | array h h' h'' => cases hj
  | noMembers h hr => cases hj
  | object h h' h'' => cases hj

/-- **The name of the field is the last thing that is read** before the early end. -/
theorem reads_name {key : Option String} (h : Reads cs (.member (key, .null)) ['\x7d']) (hcs : cs = p ++ early)
    (s rest : List Char) (m : Option String × Json) :
    Reads (p ++ s) (.member m) rest ↔ ∃ j, m = (key, j) ∧ Reads s (.value j) rest := by
  cases h with
  | @member _ body x r r' _ _ hname hx hcolon hvalue =>
    obtain ⟨bs, rfl, hbs⟩ := skipBlanks_replace hname
    obtain ⟨u, rfl, hu⟩ := hx.replace
    obtain ⟨bs', rfl, hbs'⟩ := skipBlanks_replace hcolon
    obtain ⟨bs'', hblank, rfl⟩ := eq_append_of_skipBlanks (skipBlanks_of_null hvalue)
    have hp : p = bs ++ '"' :: (u ++ (bs' ++ ':' :: bs'')) := by
      have hsame : p ++ early = (bs ++ '"' :: (u ++ (bs' ++ ':' :: bs''))) ++ early := by
        rw [← hcs]
        simp
      exact List.append_cancel_right hsame
    have hps : p ++ s = bs ++ '"' :: (u ++ (bs' ++ ':' :: (bs'' ++ s))) := by simp [hp]
    rw [hps]
    refine ⟨fun h => ?_, ?_⟩
    · cases h with
      | @member _ body x' r r' _ j hname' hx' hcolon' hvalue' =>
        rw [hbs] at hname'
        obtain ⟨-, rfl⟩ := List.cons.inj hname'
        obtain ⟨rfl, rfl⟩ := hx'.unique (hu _)
        rw [hbs'] at hcolon'
        obtain ⟨-, rfl⟩ := List.cons.inj hcolon'
        exact ⟨j, rfl, reads_of_skipBlanks hvalue' (skipBlanks_append hblank s).symm⟩
    · rintro ⟨j, rfl, hj⟩
      exact .member (hbs _) (hu _) (hbs' _) (reads_of_skipBlanks hj (skipBlanks_append hblank s))

theorem further_iff {ms : List (Option String × Json)} (h : skipBlanks cs = ',' :: r) :
    Reads cs (.members ms) rest ↔
      ∃ m ms' r', ms = m :: ms' ∧ Reads r (.member m) r' ∧ Reads r' (.members ms') rest := by
  refine ⟨fun hms => ?_, ?_⟩
  · cases hms with
    | lastMember h' => rw [h] at h'; cases h'
    | further h' hm hms =>
      rw [h] at h'
      obtain ⟨-, rfl⟩ := List.cons.inj h'
      exact ⟨_, _, _, rfl, hm, hms⟩
  · rintro ⟨m, ms', r', rfl, hm, hms⟩
    exact .further h hm hms

/-- **Members are read up to the field as before the early end**, whatever stands after its name. -/
theorem reads_members {key : Option String} {before ms : List (Option String × Json)} {m : Option String × Json}
    (hm : Reads cs (.member m) r) (hms : Reads r (.members ms) rest) (hrest : skipBlanks rest = [])
    (hbefore : m :: ms = before ++ [(key, .null)]) (hcs : cs = p ++ early) (s end' : List Char)
    (m' : Option String × Json) (ms' : List (Option String × Json)) :
    (∃ r', Reads (p ++ s) (.member m') r' ∧ Reads r' (.members ms') end') ↔
      ∃ j r' after, m' :: ms' = before ++ (key, j) :: after ∧ Reads s (.value j) r' ∧
        Reads r' (.members after) end' := by
  induction before generalizing cs p m ms r m' ms' with
  | nil =>
    obtain ⟨rfl, rfl⟩ := List.cons.inj hbefore
    obtain ⟨u, hu, -⟩ := hm.replace
    have hr : r = ['\x7d'] := by
      cases hms with
      | lastMember h => exact brace_of_early (hu.symm.trans hcs) h hrest
    subst hr
    refine ⟨?_, ?_⟩
    · rintro ⟨r', hm', hms'⟩
      obtain ⟨j, rfl, hj⟩ := (reads_name hm hcs s r' m').1 hm'
      exact ⟨j, r', ms', rfl, hj, hms'⟩
    · rintro ⟨j, r', after, heq, hj, hafter⟩
      obtain ⟨rfl, rfl⟩ := List.cons.inj heq
      exact ⟨r', (reads_name hm hcs s r' _).2 ⟨j, rfl, hj⟩, hafter⟩
  | cons b before ih =>
    obtain ⟨rfl, htail⟩ := List.cons.inj hbefore
    have htail : ms = before ++ [(key, .null)] := htail
    obtain ⟨u, hu, hagain⟩ := hm.replace
    -- a further member follows, up to the early end
    obtain ⟨m₂, ms₂, hmore⟩ : ∃ m₂ ms₂, before ++ [(key, .null)] = m₂ :: ms₂ :=
      List.exists_cons_of_ne_nil (by simp)
    rw [htail, hmore] at hms
    cases hms with
    | @further _ r₂ r₃ _ _ _ hcomma hm₂ hms₂ =>
      obtain ⟨c, w, hp, hr⟩ := before_early (hu.symm.trans hcs) hcomma (by decide)
      subst hp hr
      obtain ⟨bs, hbs, hskip⟩ := skipBlanks_replace hcomma
      obtain ⟨name, hname⟩ : ∃ name, skipBlanks r₂ = '"' :: name := by
        cases hm₂ with
        | member h => exact ⟨_, h⟩
      have hjoin : (bs ++ [',']) ++ r₂ = (c :: w) ++ early := by rw [hbs]; simp
      obtain ⟨c₂, w₂, hw, rfl⟩ := before_early hjoin hname (by decide)
      have hnext : skipBlanks (c :: w ++ s) = ',' :: (c₂ :: w₂ ++ s) := by
        rw [hw, List.append_assoc, List.append_assoc]
        exact hskip _
      have ih := ih hm₂ hms₂ hmore.symm rfl
      have hfirst : Reads (u ++ c :: w ++ s) (.member m) (c :: w ++ s) := by
        rw [List.append_assoc]
        exact hagain _ rfl
      refine ⟨?_, ?_⟩
      · rintro ⟨r', hm', hms'⟩
        obtain ⟨rfl, rfl⟩ := hm'.member_unique hfirst
        obtain ⟨m₃, ms₃, r₄, rfl, hm₃, hms₃⟩ := (further_iff hnext).1 hms'
        obtain ⟨j, r', after, heq, hj, hafter⟩ := (ih m₃ ms₃).1 ⟨r₄, hm₃, hms₃⟩
        exact ⟨j, r', after, by rw [heq, List.cons_append], hj, hafter⟩
      · rintro ⟨j, r', after, heq, hj, hafter⟩
        obtain ⟨rfl, hms'⟩ := List.cons.inj heq
        obtain ⟨m₃, ms₃, heq'⟩ : ∃ m₃ ms₃, before ++ (key, j) :: after = m₃ :: ms₃ :=
          List.exists_cons_of_ne_nil (by simp)
        obtain ⟨r₄, hm₃, hms₃⟩ := (ih m₃ ms₃).2 ⟨j, r', after, heq'.symm, hj, hafter⟩
        exact ⟨c :: w ++ s, hfirst, (further_iff hnext).2 ⟨m₃, ms₃, r₄, hms'.trans heq', hm₃, hms₃⟩⟩

/-- A name that begins before the early end begins there whatever follows. -/
theorem quote_before_early (h : skipBlanks (p ++ early) = '"' :: rest) (s : List Char) :
    ∃ rest', skipBlanks (p ++ s) = '"' :: rest' := by
  obtain ⟨bs, hbs, hskip⟩ := skipBlanks_replace h
  obtain ⟨w, rfl, hw⟩ | ⟨w, -, hw⟩ := List.append_eq_append_iff.1 hbs.symm
  · cases w with
    | nil => cases hw
    | cons c w =>
      obtain ⟨rfl, -⟩ := List.cons.inj hw
      exact ⟨w ++ s, by rw [List.append_assoc]; exact hskip _⟩
  · have hmem : '"' ∈ early := by rw [hw]; simp
    exact absurd hmem (by decide)

theorem object_iff {j : Json} (h : skipBlanks cs = '\x7b' :: r) (hr : skipBlanks r = '"' :: u) :
    Reads cs (.value j) rest ↔
      ∃ m ms r', j = .object (m :: ms) ∧ Reads r (.member m) r' ∧ Reads r' (.members ms) rest := by
  refine ⟨fun hj => ?_, ?_⟩
  · obtain ⟨-, hbrace⟩ | hsome := hj.of_brace h
    · rw [hr] at hbrace
      cases hbrace
    · exact hsome
  · rintro ⟨m, ms, r', rfl, hm, hms⟩
    exact .object h hm hms

variable {d : Placeholder}

theorem membersSound_append (a : Nat) (ms ms' : List (Option String × Json)) :
    membersSound a (ms ++ ms') = (membersSound a ms && membersSound a ms') := by
  induction ms with
  | nil => rfl
  | cons m ms ih => simp only [List.cons_append, membersSound, ih, Bool.and_assoc]

/-- With another sound value for the field the document is sound. -/
theorem sound_object (hd : d.IsPlaced) {v : Json} (hv : v.isSound 127 = true) :
    (d.object v).isSound 128 = true ∧ (Json.object (d.before ++ [(some d.key, v)])).isSound 128 = true := by
  have hsound := hd.sound
  simp only [object, isSound, membersSound_append, membersSound, Option.isSome_some, Bool.true_and,
    Bool.and_eq_true, decide_eq_true_eq, Bool.and_true] at hsound ⊢
  exact ⟨⟨hsound.1, hsound.2.1, hv, hsound.2.2.2⟩, hsound.1, hsound.2.1, hv⟩

/-- **The document is read up to the reference**, whatever stands in its place. -/
theorem reads_opening (hd : d.IsPlaced) (s rest : List Char) (j : Json) :
    Reads (d.opening ++ s) (.value j) rest ↔
      ∃ v r after, j = .object (d.before ++ (some d.key, v) :: after) ∧ Reads s (.value v) r ∧
        Reads r (.members after) rest := by
  obtain ⟨last, hread, hlast⟩ := reads_of_read? hd.opens (sound_object hd (v := .null) rfl).2
  rw [String.toList_ofList] at hread
  obtain ⟨m, ms, hms⟩ : ∃ m ms, d.before ++ [(some d.key, Json.null)] = m :: ms :=
    List.exists_cons_of_ne_nil (by simp)
  rw [hms] at hread
  cases hread with
  | word hw h => simp [words] at hw
  | @object _ r r' _ _ _ hbrace hfirst hmore =>
    obtain ⟨bs, hbs, hskip⟩ := skipBlanks_replace hbrace
    obtain ⟨name, hname⟩ : ∃ name, skipBlanks r = '"' :: name := by
      cases hfirst with
      | member h => exact ⟨_, h⟩
    have hjoin : (bs ++ ['\x7b']) ++ r = d.opening ++ early := by rw [hbs]; simp
    obtain ⟨c, w, hopening, rfl⟩ := before_early hjoin hname (by decide)
    have hinside : skipBlanks (d.opening ++ s) = '\x7b' :: (c :: w ++ s) := by
      rw [hopening, List.append_assoc, List.append_assoc]
      exact hskip _
    obtain ⟨name', hname'⟩ := quote_before_early hname s
    have hmembers := reads_members hfirst hmore hlast hms.symm rfl s rest
    rw [object_iff hinside hname']
    refine ⟨?_, ?_⟩
    · rintro ⟨m', ms', r'', rfl, hm', hms'⟩
      obtain ⟨v, r₂, after, heq, hv, hafter⟩ := (hmembers m' ms').1 ⟨r'', hm', hms'⟩
      exact ⟨v, r₂, after, by rw [heq], hv, hafter⟩
    · rintro ⟨v, r₂, after, rfl, hv, hafter⟩
      obtain ⟨m', ms', heq⟩ : ∃ m' ms', d.before ++ (some d.key, v) :: after = m' :: ms' :=
        List.exists_cons_of_ne_nil (by simp)
      obtain ⟨r'', hm', hms'⟩ := (hmembers m' ms').2 ⟨v, r₂, after, heq.symm, hv, hafter⟩
      exact ⟨m', ms', r'', by rw [heq], hm', hms'⟩

/-! ### The value in its place -/

theorem isPlain_name {name : List Char} (h : Environment.IsName name) : IsPlain name := by
  intro c hc
  have hpart : Environment.isNamePart c = true := h.part c hc
  have hnone : ∀ n < 0x20, Environment.isNamePart (Char.ofNat n) = false := by decide
  refine ⟨?_, ?_, fun hlt => ?_⟩
  · rintro rfl
    cases hpart
  · rintro rfl
    cases hpart
  · have hcontrol := hnone c.toNat hlt
    rw [Char.ofNat_toNat, hpart] at hcontrol
    cases hcontrol

theorem isPlain_reference (hd : d.IsPlaced) : IsPlain d.reference := by
  have hname := isPlain_name (Environment.reference?_iff.1 hd.refers).1
  have hbrace : IsPlain ['\x7d'] := by decide
  simp only [IsPlain, reference, List.cons_append, List.forall_mem_cons, List.forall_mem_append]
  exact ⟨by decide, by decide, hname, List.forall_mem_cons.1 hbrace⟩

theorem reads_quoted {v : List Char} (hv : IsPlain v) (closing : List Char) :
    Reads ('"' :: (v ++ '"' :: closing)) (.value (ofText (String.ofList v))) closing :=
  .text (skipBlanks_cons (by decide) _) (spells_plain hv closing)

/-- **What stands after the reference** are the members after the field, and the end. -/
theorem reads_closing (hd : d.IsPlaced) :
    ∃ last, Reads d.closing (.members d.after) last ∧ skipBlanks last = [] := by
  obtain ⟨last, hread, hlast⟩ := reads_of_read? hd.reads hd.sound
  rw [text, String.toList_ofList] at hread
  obtain ⟨v, r, after, heq, hv, hafter⟩ := (reads_opening hd _ _ _).1 hread
  obtain ⟨-, rfl⟩ := hv.value_unique (reads_quoted (isPlain_reference hd) d.closing)
  obtain ⟨-, htail⟩ := List.append_inj (Json.object.inj heq) rfl
  obtain ⟨-, rfl⟩ := List.cons.inj htail
  exact ⟨last, hafter, hlast⟩

/-- **A value that spells itself stands in the field**, and changes nothing else. -/
theorem read?_plain (hd : d.IsPlaced) {v : List Char} (hv : IsPlain v) :
    read? (String.ofList (d.holding v)) = some (d.object (ofText (String.ofList v))) := by
  obtain ⟨last, hclosing, hlast⟩ := reads_closing hd
  have hread : Reads (String.ofList (d.holding v)).toList (.value (d.object (ofText (String.ofList v)))) last := by
    rw [String.toList_ofList]
    exact (reads_opening hd _ _ _).2 ⟨_, _, _, rfl, reads_quoted hv d.closing, hclosing⟩
  exact read?_of_reads hread hlast

/-- A value that is read breaks off inside the text that it stands in. -/
theorem scan_value (hd : d.IsPlaced) {v last : List Char} {j : Json}
    (h : Reads (d.holding v) (.value j) last) (hlast : skipBlanks last = []) : scan .inside v = some .inside := by
  obtain ⟨end', hclosing, hend⟩ := reads_closing hd
  have hout : scan .outside d.closing = some .outside := hclosing.scan_eq.trans (scan_blank hend)
  have hnot : scan .inside d.closing ≠ some .outside := fun hin => not_scan_both _ ⟨hout, hin⟩
  have hopening : scan .outside d.opening = some .outside := by
    obtain ⟨last, hread, hlast⟩ := reads_of_read? hd.opens (sound_object hd (v := .null) rfl).2
    rw [String.toList_ofList] at hread
    have hscan := hread.scan_eq.trans (scan_blank hlast)
    rw [scan_append] at hscan
    cases hq : scan .outside d.opening with
    | none => rw [hq] at hscan; cases hscan
    | some q =>
      rw [hq] at hscan
      cases q with
      | outside => rfl
      | inside => cases hscan
      | escaped => cases hscan
  have hscan := h.scan_eq.trans (scan_blank hlast)
  rw [holding, scan_append, hopening, Option.bind_some] at hscan
  change scan .inside (v ++ '"' :: d.closing) = some .outside at hscan
  rw [scan_append] at hscan
  cases hq : scan .inside v with
  | none => rw [hq] at hscan; cases hscan
  | some q =>
    rw [hq] at hscan
    cases q with
    | outside => exact absurd hscan hnot
    | inside => rfl
    | escaped => exact absurd hscan hnot

/-- **What a value gets out of its place.** The text in the field is the value only if it spells itself; and of the
members after the field, those of the document are the last, and no text before these is as long as the value, which
has a quote then. -/
theorem held (hd : d.IsPlaced) {v : List Char} {j : Json} {a : Nat}
    (h : read? (String.ofList (d.holding v)) = some j) (hs : j.isSound a = true) :
    ∃ t ms, j = .object (d.before ++ (some d.key, ofText (String.ofList t)) :: (ms ++ d.after)) ∧
      (t = v → ms = [] ∧ IsPlain v) ∧ (ms ≠ [] → '"' ∈ v) ∧ ∀ m ∈ ms, IsShort m.2 v.length := by
  obtain ⟨last, hread, hlast⟩ := reads_of_read? h hs
  rw [String.toList_ofList] at hread
  have hscan := scan_value hd hread hlast
  obtain ⟨end', hclosing, hend⟩ := reads_closing hd
  obtain ⟨value, r, after, rfl, hvalue, hafter⟩ := (reads_opening hd _ _ _).1 hread
  obtain ⟨x, rfl, hx⟩ := hvalue.of_quote (skipBlanks_cons (by decide) _)
  obtain ⟨hquote, w, rfl, hw, hlt⟩ | ⟨rfl, hle, hplain⟩ := hx.held rfl hscan
  · obtain ⟨w', rfl, -⟩ | ⟨-, ms, rfl, hshort⟩ := hclosing.held hend hafter rfl hw
    · -- the quote after the value is not blank
      obtain ⟨bs, hbs, hw'⟩ := eq_append_of_skipBlanks hlast
      have hmem : '"' ∈ bs ++ [] := by rw [← hw']; simp
      rw [List.append_nil] at hmem
      cases hbs _ hmem
    · refine ⟨x, ms, rfl, ?_, fun _ => hquote, fun m hm => (hshort m hm).mono (by omega)⟩
      rintro rfl
      omega
  · obtain ⟨rfl, -⟩ := hafter.members_unique hclosing
    exact ⟨x, [], rfl, fun heq => ⟨rfl, (hplain (by rw [heq])).2⟩, fun hne => absurd rfl hne, by simp⟩

end Placeholder

end FlowHost
