import FlowHost.Proofs.Grammar

/-!
# Quotes in documents

Whether a place in a document stands inside a text or outside of all texts follows from the characters before it
(`Json.scan`): quotes open and close texts, and a backslash takes the next character along. So characters that are put
between two quotes can only be read as part of the document if the document is still inside a text after them.

* `Json.Reads.scan_eq`: what is read begins and ends outside of texts.
* `Json.not_scan_both`: **no characters lead outside from both sides of a quote.**
* `Json.Spells.held`: where a text ends that begins before characters that break off inside a text.
* `Json.Reads.held`: **what is read from characters that break off inside a text**, and what of the rest of the document
  belongs to it.
-/

namespace FlowHost.Json

variable {cs u r rest closing w x : List Char} {c : Char}

/-! ### Inside and outside -/

/-- Where a character stands: outside of all texts, inside a text, or behind a backslash in one. -/
inductive Place where
  | outside
  | inside
  | escaped
  deriving DecidableEq

/-- Where the next character stands. Outside of texts there are no backslashes. -/
def Place.next (p : Place) (c : Char) : Option Place :=
  match p with
  | .outside => if c = '"' then some .inside else if c = '\\' then none else some .outside
  | .inside => if c = '"' then some .outside else if c = '\\' then some .escaped else some .inside
  | .escaped => some .inside

/-- **Where characters lead** from a place. -/
def scan (p : Place) : List Char → Option Place
  | [] => some p
  | c :: cs => (p.next c).bind fun q => scan q cs

theorem scan_append (p : Place) (u cs : List Char) : scan p (u ++ cs) = (scan p u).bind fun q => scan q cs := by
  induction u generalizing p with
  | nil => rfl
  | cons c u ih =>
    rw [List.cons_append, scan, scan, Option.bind_assoc]
    congr 1
    funext q
    exact ih q

/-- A character that opens and closes nothing. -/
def IsQuiet (c : Char) : Prop := c ≠ '"' ∧ c ≠ '\\'

theorem next_quiet (hc : IsQuiet c) : Place.outside.next c = some .outside ∧ Place.inside.next c = some .inside :=
  ⟨by rw [Place.next, if_neg hc.1, if_neg hc.2], by rw [Place.next, if_neg hc.1, if_neg hc.2]⟩

theorem scan_quiet (hu : ∀ c ∈ u, IsQuiet c) (cs : List Char) :
    scan .outside (u ++ cs) = scan .outside cs ∧ scan .inside (u ++ cs) = scan .inside cs := by
  induction u with
  | nil => exact ⟨rfl, rfl⟩
  | cons c u ih =>
    obtain ⟨hc, hu⟩ := List.forall_mem_cons.1 hu
    obtain ⟨hout, hin⟩ := next_quiet hc
    rw [List.cons_append, scan, hout, Option.bind_some, scan, hin, Option.bind_some]
    exact ih hu

/-- **No characters lead outside from both sides of a quote**: what was outside on one side is inside on the other. -/
theorem not_scan_both (cs : List Char) : ¬ (scan .outside cs = some .outside ∧ scan .inside cs = some .outside) := by
  induction cs with
  | nil => rintro ⟨-, h⟩; cases h
  | cons c cs ih =>
    rintro ⟨hout, hin⟩
    by_cases hquote : c = '"'
    · subst hquote
      exact ih ⟨hin, hout⟩
    · by_cases hescape : c = '\\'
      · subst hescape
        cases hout
      · obtain ⟨ho, hi⟩ := next_quiet ⟨hquote, hescape⟩
        rw [scan, ho] at hout
        rw [scan, hi] at hin
        exact ih ⟨hout, hin⟩

/-! ### What is read -/

theorem isQuiet_blank (h : isBlank c = true) : IsQuiet c := by
  simp only [isBlank, Bool.or_eq_true, beq_iff_eq] at h
  obtain ((rfl | rfl) | rfl) | rfl := h <;> exact ⟨by decide, by decide⟩

theorem isQuiet_numeral (h : IsNumeralChar c) : IsQuiet c := by
  rcases h with h | rfl | rfl | rfl | rfl | rfl
  · constructor <;> (rintro rfl; cases h)
  all_goals exact ⟨by decide, by decide⟩

theorem isQuiet_hex {n : Nat} (h : Bytes.hexValue? c = some n) : IsQuiet c := by
  constructor <;> (rintro rfl; cases h)

theorem isQuiet_word {j : Json} (h : (w, j) ∈ words) : ∀ c ∈ w, IsQuiet c := by
  simp only [words, List.mem_cons, List.not_mem_nil, or_false, Prod.mk.injEq] at h
  obtain ⟨rfl, -⟩ | ⟨rfl, -⟩ | ⟨rfl, -⟩ := h <;> simp [IsQuiet]

theorem isQuiet_hexQuad {a b c d : Char} {n : Nat} (h : hexQuad a b c d = some n) :
    IsQuiet a ∧ IsQuiet b ∧ IsQuiet c ∧ IsQuiet d := by
  unfold hexQuad at h
  obtain ⟨na, ha, h⟩ := Option.bind_eq_some_iff.1 h
  obtain ⟨nb, hb, h⟩ := Option.bind_eq_some_iff.1 h
  obtain ⟨nc, hc, h⟩ := Option.bind_eq_some_iff.1 h
  obtain ⟨nd, hd, h⟩ := Option.bind_eq_some_iff.1 h
  exact ⟨isQuiet_hex ha, isQuiet_hex hb, isQuiet_hex hc, isQuiet_hex hd⟩

theorem scan_skipBlanks (cs : List Char) : scan .outside (skipBlanks cs) = scan .outside cs := by
  obtain ⟨bs, hbs, hcs⟩ := eq_append_of_skipBlanks (show skipBlanks cs = skipBlanks cs from rfl)
  conv_rhs => rw [hcs]
  exact (scan_quiet (fun b hb => isQuiet_blank (hbs b hb)) _).1.symm

/-- What stands for a character in a text leads back into the text, and holds no quote but a first one. -/
theorem Escapes.scan_eq {e : Char} (h : Escapes u e) :
    ∃ c u', u = c :: u' ∧ '"' ∉ u' ∧ ∀ cs, scan .inside (u' ++ cs) = scan .inside cs := by
  have four {a b c d : Char} {n : Nat} (h : hexQuad a b c d = some n) :
      '"' ∉ [a, b, c, d] ∧ ∀ cs, scan .inside ([a, b, c, d] ++ cs) = scan .inside cs := by
    obtain ⟨ha, hb, hc, hd⟩ := isQuiet_hexQuad h
    refine ⟨?_, fun cs => (scan_quiet (by simp [ha, hb, hc, hd]) cs).2⟩
    simp [ha.1.symm, hb.1.symm, hc.1.symm, hd.1.symm]
  cases h with
  | @short c _ _ => exact ⟨c, [], rfl, by simp, fun _ => rfl⟩
  | @code a b c d n h =>
    obtain ⟨hquote, hscan⟩ := four h
    exact ⟨'u', [a, b, c, d], rfl, hquote, hscan⟩
  | @pair a b c d a' b' c' d' n low h _ h' _ =>
    obtain ⟨hquote, hscan⟩ := four h
    obtain ⟨hquote', hscan'⟩ := four h'
    refine ⟨'u', [a, b, c, d] ++ '\\' :: 'u' :: [a', b', c', d'], rfl, ?_, fun cs => ?_⟩
    · simp only [List.mem_append, List.mem_cons, not_or] at hquote hquote' ⊢
      exact ⟨hquote, by decide, by decide, hquote'⟩
    · rw [List.append_assoc, hscan]
      exact hscan' cs

theorem Spells.scan_eq (h : Spells cs x rest) : scan .inside cs = scan .outside rest := by
  induction h with
  | close => rfl
  | plain hquote hescape _ _ ih => rw [scan, (next_quiet ⟨hquote, hescape⟩).2, Option.bind_some, ih]
  | escape he _ ih =>
    obtain ⟨c, u', rfl, -, hscan⟩ := he.scan_eq
    exact (hscan _).trans ih

theorem scan_of_skipBlanks (h : skipBlanks cs = c :: r) (hc : IsQuiet c) : scan .outside cs = scan .outside r := by
  rw [← scan_skipBlanks, h, scan, (next_quiet hc).1, Option.bind_some]

/-- Brackets, commas and colons stand outside of texts. -/
theorem isQuiet_bracket (hc : c ∈ ['[', ']', '\x7b', '\x7d', ',', ':']) : IsQuiet c := by
  simp only [List.mem_cons, List.not_mem_nil, or_false] at hc
  rcases hc with rfl | rfl | rfl | rfl | rfl | rfl <;> exact ⟨by decide, by decide⟩

/-- **What is read begins and ends outside of texts.** -/
theorem Reads.scan_eq {p : Part} (h : Reads cs p rest) : scan .outside cs = scan .outside rest := by
  induction h with
  | word hj h => rw [← scan_skipBlanks, h, (scan_quiet (isQuiet_word hj) _).1]
  | number h =>
    obtain ⟨u, hu, hchars, -⟩ := took_numeral h
    rw [← scan_skipBlanks, hu, (scan_quiet (fun c hc => isQuiet_numeral (hchars c hc)) _).1]
  | text h hx =>
    rw [← scan_skipBlanks, h]
    exact hx.scan_eq
  | noItems h hr => rw [scan_of_skipBlanks h (isQuiet_bracket (by simp)), scan_of_skipBlanks hr (isQuiet_bracket (by simp))]
  | array h _ _ ih ih' => rw [scan_of_skipBlanks h (isQuiet_bracket (by simp)), ih, ih']
  | noMembers h hr => rw [scan_of_skipBlanks h (isQuiet_bracket (by simp)), scan_of_skipBlanks hr (isQuiet_bracket (by simp))]
  | object h _ _ ih ih' => rw [scan_of_skipBlanks h (isQuiet_bracket (by simp)), ih, ih']
  | @member cs body x r r' rest j h hx hr _ ih =>
    have hopen : scan .outside cs = scan .outside r := by
      rw [← scan_skipBlanks, h]
      exact hx.scan_eq
    rw [hopen, scan_of_skipBlanks hr (isQuiet_bracket (by simp)), ih]
  | lastItem h => exact scan_of_skipBlanks h (isQuiet_bracket (by simp))
  | item h _ _ ih ih' => rw [scan_of_skipBlanks h (isQuiet_bracket (by simp)), ih, ih']
  | lastMember h => exact scan_of_skipBlanks h (isQuiet_bracket (by simp))
  | further h _ _ ih ih' => rw [scan_of_skipBlanks h (isQuiet_bracket (by simp)), ih, ih']

/-- Blanks lead nowhere. -/
theorem scan_blank (h : skipBlanks cs = []) : scan .outside cs = some .outside := by
  rw [← scan_skipBlanks, h, scan]

/-! ### Characters that break off inside a text -/

/-- **Characters that break off inside a text.** -/
def IsHeld (w : List Char) : Prop := scan .outside w = some .inside

theorem split_before {t : List Char} (h : u ++ r = w ++ '"' :: t) (hu : '"' ∉ u) :
    ∃ w', w = u ++ w' ∧ r = w' ++ '"' :: t := by
  obtain ⟨a, rfl, hr⟩ | ⟨a, rfl, ht⟩ := List.append_eq_append_iff.1 h
  · exact ⟨a, rfl, hr⟩
  · cases a with
    | nil => exact ⟨[], by simp, by simpa using ht.symm⟩
    | cons c a =>
      obtain ⟨rfl, -⟩ := List.cons.inj ht
      exact absurd (by simp) hu

/-- What follows a part of such characters: fewer of them, and the rest of the document. -/
def Within (closing w rest : List Char) : Prop :=
  ∃ w', rest = w' ++ '"' :: closing ∧ IsHeld w' ∧ w'.length < w.length

theorem Within.trans {w' : List Char} (h : Within closing w' rest) (hle : w'.length < w.length) :
    Within closing w rest := by
  obtain ⟨v, hrest, hv, hlt⟩ := h
  exact ⟨v, hrest, hv, lt_trans hlt hle⟩

/-- Characters outside of texts stand among them. -/
theorem IsHeld.enter_quiet (hw : IsHeld w) (h : skipBlanks (w ++ '"' :: closing) = u ++ r)
    (hu : ∀ c ∈ u, IsQuiet c) (hne : u ≠ []) : Within closing w r := by
  obtain ⟨bs, hbs, hcs⟩ := eq_append_of_skipBlanks h
  have hquiet : ∀ d ∈ bs ++ u, IsQuiet d :=
    List.forall_mem_append.2 ⟨fun b hb => isQuiet_blank (hbs b hb), hu⟩
  have hcs' : (bs ++ u) ++ r = w ++ '"' :: closing := by rw [hcs, List.append_assoc]
  obtain ⟨w', rfl, hr⟩ := split_before hcs' fun hmem => (hquiet _ hmem).1 rfl
  have hpos := List.length_pos_of_ne_nil hne
  refine ⟨w', hr, ?_, by simp only [List.length_append]; omega⟩
  rw [IsHeld, (scan_quiet hquiet w').1] at hw
  exact hw

theorem IsHeld.enter (hw : IsHeld w) (h : skipBlanks (w ++ '"' :: closing) = c :: r) (hc : IsQuiet c) :
    Within closing w r :=
  hw.enter_quiet (u := [c]) h (by simpa using hc) (by simp)

/-- A text begins among them. -/
theorem IsHeld.enter_text (hw : IsHeld w) (h : skipBlanks (w ++ '"' :: closing) = '"' :: r) :
    ∃ w', r = w' ++ '"' :: closing ∧ scan .inside w' = some .inside ∧ w'.length < w.length := by
  obtain ⟨bs, hbs, hcs⟩ := eq_append_of_skipBlanks h
  have hquiet : ∀ d ∈ bs, IsQuiet d := fun b hb => isQuiet_blank (hbs b hb)
  obtain ⟨v, rfl, hv⟩ := split_before hcs.symm fun hmem => (hquiet _ hmem).1 rfl
  rw [IsHeld, (scan_quiet hquiet v).1] at hw
  cases v with
  | nil => cases hw
  | cons c v =>
    obtain ⟨rfl, rfl⟩ := List.cons.inj hv
    exact ⟨v, rfl, hw, by simp; omega⟩

/-- **Characters that spell themselves** in a text. -/
def IsPlain (v : List Char) : Prop := ∀ c ∈ v, c ≠ '"' ∧ c ≠ '\\' ∧ ¬ c.toNat < 0x20

instance (v : List Char) : Decidable (IsPlain v) :=
  List.decidableBAll (fun c => c ≠ '"' ∧ c ≠ '\\' ∧ ¬ c.toNat < 0x20) v

theorem spells_plain {v : List Char} (hv : IsPlain v) (rest : List Char) : Spells (v ++ '"' :: rest) v rest := by
  induction v with
  | nil => exact .close
  | cons c v ih =>
    obtain ⟨⟨hquote, hescape, hcontrol⟩, hv⟩ := List.forall_mem_cons.1 hv
    exact .plain hquote hescape hcontrol (ih hv)

/-- **Where a text ends** that begins before characters that break off inside it: at a quote among them, or with the
quote after them. It has as many characters as they are only if they spell themselves. -/
theorem Spells.held (h : Spells cs x r) (hcs : cs = w ++ '"' :: closing) (hw : scan .inside w = some .inside) :
    ('"' ∈ w ∧ ∃ w', r = w' ++ '"' :: closing ∧ IsHeld w' ∧ x.length + w'.length < w.length) ∨
      (r = closing ∧ x.length ≤ w.length ∧ (x.length = w.length → x = w ∧ IsPlain w)) := by
  induction h generalizing w with
  | close =>
    cases w with
    | nil =>
      obtain ⟨-, rfl⟩ := List.cons.inj hcs
      exact .inr ⟨rfl, le_rfl, fun _ => ⟨rfl, by simp [IsPlain]⟩⟩
    | cons c w =>
      obtain ⟨rfl, rfl⟩ := List.cons.inj hcs
      exact .inl ⟨by simp, w, rfl, hw, by simp⟩
  | @plain c cs x rest hquote hescape hcontrol h ih =>
    cases w with
    | nil => exact absurd (List.cons.inj hcs).1 hquote
    | cons d w =>
      obtain ⟨rfl, rfl⟩ := List.cons.inj hcs
      rw [scan, (next_quiet ⟨hquote, hescape⟩).2, Option.bind_some] at hw
      obtain ⟨hmem, w', hr, hw', hlt⟩ | ⟨hr, hle, hplain⟩ := ih rfl hw
      · exact .inl ⟨List.mem_cons_of_mem _ hmem, w', hr, hw', by simp only [List.length_cons]; omega⟩
      · refine .inr ⟨hr, by simp only [List.length_cons]; omega, fun heq => ?_⟩
        obtain ⟨rfl, hplain⟩ := hplain (by simpa using heq)
        exact ⟨rfl, List.forall_mem_cons.2 ⟨⟨hquote, hescape, hcontrol⟩, hplain⟩⟩
  | @escape e u cs x rest he h ih =>
    obtain ⟨d, u', rfl, hquote, hscan⟩ := he.scan_eq
    cases w with
    | nil => cases (List.cons.inj hcs).1
    | cons b w =>
      obtain ⟨rfl, hbody⟩ := List.cons.inj hcs
      cases w with
      | nil => cases hw
      | cons b w =>
        obtain ⟨rfl, hmore⟩ := List.cons.inj hbody
        obtain ⟨v, rfl, rfl⟩ := split_before hmore hquote
        have hv : scan .inside v = some .inside := (hscan v).symm.trans hw
        obtain ⟨hmem, w', hr, hw', hlt⟩ | ⟨hr, hle, -⟩ := ih rfl hv
        · refine .inl ⟨by simp [hmem], w', hr, hw', ?_⟩
          simp only [List.length_cons, List.length_append]
          omega
        · -- two characters at least stand for one
          refine .inr ⟨hr, ?_, fun heq => ?_⟩
          · simp only [List.length_cons, List.length_append]
            omega
          · simp only [List.length_cons, List.length_append] at heq
            omega

/-- A value that is a text only if it is a short one. -/
def IsShort (j : Json) (n : Nat) : Prop := ∀ t, j = .text (some t) → t.toList.length < n

theorem IsShort.mono {j : Json} {m n : Nat} (h : IsShort j m) (hle : m ≤ n) : IsShort j n :=
  fun t ht => lt_of_lt_of_le (h t ht) hle

/-- **What can follow a part** that is read from characters which break off inside a text, before a quote and the end of
an object: fewer of these characters, or what follows the quote, or nothing. -/
def Held (closing : List Char) (after : List (Option String × Json)) (w rest : List Char) : Part → Prop
  | .value j => IsShort j w.length ∧ (Within closing w rest ∨ rest = closing ∨ skipBlanks rest = [])
  | .member m => IsShort m.2 w.length ∧ (Within closing w rest ∨ rest = closing ∨ skipBlanks rest = [])
  | .items _ => Within closing w rest
  | .members ms => Within closing w rest ∨
      (skipBlanks rest = [] ∧ ∃ ms', ms = ms' ++ after ∧ ∀ m ∈ ms', IsShort m.2 w.length)

/-- No further members stand behind the end of a document. -/
theorem not_members_of_end {ms : List (Option String × Json)} (hr : skipBlanks r = []) :
    ¬ Reads r (.members ms) rest := by
  intro h
  cases h with
  | lastMember h | further h =>
    rw [hr] at h
    cases h

/-- No further items stand behind the end of a document. -/
theorem not_items_of_end {js : List Json} (hr : skipBlanks r = []) : ¬ Reads r (.items js) rest := by
  intro h
  cases h with
  | lastItem h | item h =>
    rw [hr] at h
    cases h

/-- **What is read from characters that break off inside a text**: of the object that ends behind them, the last members
are those that stood there anyway, and no text before these is as long as the characters. -/
theorem Reads.held {p : Part} {after : List (Option String × Json)} {last : List Char}
    (hafter : Reads closing (.members after) last) (hlast : skipBlanks last = []) (h : Reads cs p rest)
    (hcs : cs = w ++ '"' :: closing) (hw : IsHeld w) : Held closing after w rest p := by
  -- on what is read: each part takes up where the one before it ended, so either all of it is among the characters, or
  -- the text that they break off in ends at the quote and the members after that follow
  induction h generalizing w with
  | @word cs wd rest j hj h =>
    subst hcs
    have hne : wd ≠ [] ∧ IsShort j w.length := by
      simp only [words, List.mem_cons, List.not_mem_nil, or_false, Prod.mk.injEq] at hj
      obtain ⟨rfl, rfl⟩ | ⟨rfl, rfl⟩ | ⟨rfl, rfl⟩ := hj <;> simp [IsShort]
    exact ⟨hne.2, .inl (hw.enter_quiet h (isQuiet_word hj) hne.1)⟩
  | number h =>
    subst hcs
    obtain ⟨u, hu, hchars, -⟩ := took_numeral h
    have hlt := (head_of_numeral h).1
    have hne : u ≠ [] := by
      rintro rfl
      rw [hu] at hlt
      exact lt_irrefl _ hlt
    exact ⟨by simp [IsShort], .inl (hw.enter_quiet hu (fun c hc => isQuiet_numeral (hchars c hc)) hne)⟩
  | @text cs body x rest h hx =>
    subst hcs
    obtain ⟨v, rfl, hv, hlt⟩ := hw.enter_text h
    have hshort {n : Nat} (hn : x.length < n) : IsShort (ofText (String.ofList x)) n := by
      intro t ht
      obtain rfl := Option.some.inj (Json.text.inj ht)
      rwa [String.toList_ofList]
    obtain ⟨-, w', hr, hw', hlen⟩ | ⟨hr, hle, -⟩ := hx.held rfl hv
    · exact ⟨hshort (by omega), .inl ⟨w', hr, hw', by omega⟩⟩
    · exact ⟨hshort (by omega), .inr (.inl hr)⟩
  | noItems h hr =>
    subst hcs
    obtain ⟨v, rfl, hv, hlt⟩ := hw.enter h (isQuiet_bracket (by simp))
    exact ⟨by simp [IsShort], .inl ((hv.enter hr (isQuiet_bracket (by simp))).trans hlt)⟩
  | array h hj hjs ih ih' =>
    subst hcs
    obtain ⟨v, rfl, hv, hlt⟩ := hw.enter h (isQuiet_bracket (by simp))
    obtain ⟨-, ⟨v', rfl, hv', hlt'⟩ | rfl | hr⟩ := ih rfl hv
    · exact ⟨by simp [IsShort], .inl ((ih' rfl hv').trans (by omega))⟩
    · exact absurd hjs hafter.not_items
    · exact absurd hjs (not_items_of_end hr)
  | noMembers h hr =>
    subst hcs
    obtain ⟨v, rfl, hv, hlt⟩ := hw.enter h (isQuiet_bracket (by simp))
    exact ⟨by simp [IsShort], .inl ((hv.enter hr (isQuiet_bracket (by simp))).trans hlt)⟩
  | object h hm hms ih ih' =>
    subst hcs
    obtain ⟨v, rfl, hv, hlt⟩ := hw.enter h (isQuiet_bracket (by simp))
    refine ⟨by simp [IsShort], ?_⟩
    obtain ⟨-, ⟨v', rfl, hv', hlt'⟩ | rfl | hr⟩ := ih rfl hv
    · obtain hin | ⟨hend, -⟩ := ih' rfl hv'
      · exact .inl (hin.trans (by omega))
      · exact .inr (.inr hend)
    · obtain ⟨-, rfl⟩ := hms.members_unique hafter
      exact .inr (.inr hlast)
    · exact absurd hms (not_members_of_end hr)
  | @member cs body x r r' rest j h hx hr hj ih =>
    subst hcs
    obtain ⟨v, rfl, hv, hlt⟩ := hw.enter_text h
    obtain ⟨-, w', rfl, hw', hlen⟩ | ⟨rfl, -⟩ := hx.held rfl hv
    · obtain ⟨v', rfl, hv', hlt'⟩ := hw'.enter hr (isQuiet_bracket (by simp))
      obtain ⟨hshort, hcase⟩ := ih rfl hv'
      refine ⟨hshort.mono (by omega), hcase.imp_left fun hin => hin.trans (by omega)⟩
    · -- no colon stands where further members do
      cases hafter with
      | lastMember h => rw [hr] at h; cases h
      | further h => rw [hr] at h; cases h
  | lastItem h =>
    subst hcs
    exact hw.enter h (isQuiet_bracket (by simp))
  | item h hj hjs ih ih' =>
    subst hcs
    obtain ⟨v, rfl, hv, hlt⟩ := hw.enter h (isQuiet_bracket (by simp))
    obtain ⟨-, ⟨v', rfl, hv', hlt'⟩ | rfl | hr⟩ := ih rfl hv
    · exact (ih' rfl hv').trans (by omega)
    · exact absurd hjs hafter.not_items
    · exact absurd hjs (not_items_of_end hr)
  | lastMember h =>
    subst hcs
    exact .inl (hw.enter h (isQuiet_bracket (by simp)))
  | @further cs r r' rest m ms h hm hms ih ih' =>
    subst hcs
    obtain ⟨v, rfl, hv, hlt⟩ := hw.enter h (isQuiet_bracket (by simp))
    obtain ⟨hshort, ⟨v', rfl, hv', hlt'⟩ | rfl | hr⟩ := ih rfl hv
    · obtain hin | ⟨hend, ms', rfl, hshorts⟩ := ih' rfl hv'
      · exact .inl (hin.trans (by omega))
      · refine .inr ⟨hend, m :: ms', rfl, List.forall_mem_cons.2 ⟨hshort.mono (by omega), fun m' hm' => ?_⟩⟩
        exact (hshorts m' hm').mono (by omega)
    · obtain ⟨rfl, rfl⟩ := hms.members_unique hafter
      exact .inr ⟨hlast, [m], rfl, by simpa using hshort.mono (by omega)⟩
    · exact absurd hms (not_members_of_end hr)

end FlowHost.Json
