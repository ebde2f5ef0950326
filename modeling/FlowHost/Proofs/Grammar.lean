import FlowHost.Proofs.Numerals
import Mathlib.Data.List.DropRight

/-!
# The grammar of JSON

Which characters spell what, as a relation between a text, what stands at its start and what follows it. A list or an
object is a first item or member and then **further ones**, each after a comma, up to the closing bracket.

* `Json.Spells`: the characters of a text up to its closing quote.
* `Json.Reads`: a value, a member, and further items or members.
* `Json.read?_of_reads`: **a document that follows the grammar is read** as what it spells.
* `Json.reads_of_read?`: **a document that is read follows the grammar**, if everything in it has a value.
* `Json.Reads.replace`: what is read does not depend on what follows, apart from the next character.
-/

namespace FlowHost.Json

variable {cs cs' body rest rest' r r' : List Char} {c : Char} {n : Nat}

/-! ### Blanks -/

theorem skipBlanks_skipBlanks (cs : List Char) : skipBlanks (skipBlanks cs) = skipBlanks cs := by
  unfold skipBlanks
  exact List.dropWhile_idempotent isBlank cs

theorem length_skipBlanks_le (cs : List Char) : (skipBlanks cs).length ≤ cs.length :=
  (List.dropWhile_suffix isBlank).length_le

theorem length_of_skipBlanks (h : skipBlanks cs = c :: rest) : rest.length < cs.length := by
  have hle := length_skipBlanks_le cs
  rw [h, List.length_cons] at hle
  omega

theorem skipBlanks_cons (hc : isBlank c = false) (cs : List Char) : skipBlanks (c :: cs) = c :: cs := by
  unfold skipBlanks
  rw [List.dropWhile_cons_of_neg (by rw [hc]; decide)]

/-- What blanks hide stands after them. -/
theorem eq_append_of_skipBlanks (h : skipBlanks cs = r) : ∃ bs, (∀ b ∈ bs, isBlank b = true) ∧ cs = bs ++ r :=
  ⟨cs.takeWhile isBlank, fun _ => List.mem_takeWhile_imp, by rw [← h, skipBlanks, List.takeWhile_append_dropWhile]⟩

theorem skipBlanks_append {bs : List Char} (hbs : ∀ b ∈ bs, isBlank b = true) (r : List Char) :
    skipBlanks (bs ++ r) = skipBlanks r := by
  unfold skipBlanks
  exact List.dropWhile_append_of_pos hbs

/-! ### Texts -/

/-- **The characters after a backslash that stand for one character.** -/
inductive Escapes : List Char → Char → Prop where
  | short {c e : Char} (h : shortEscape c = some e) : Escapes [c] e
  | code {a b c d : Char} {n : Nat} (h : hexQuad a b c d = some n) (hl : isLeading n = false)
      (ht : isTrailing n = false) : Escapes ['u', a, b, c, d] (Char.ofNat n)
  | pair {a b c d a' b' c' d' : Char} {n low : Nat} (h : hexQuad a b c d = some n) (hl : isLeading n = true)
      (h' : hexQuad a' b' c' d' = some low) (ht : isTrailing low = true) :
      Escapes ['u', a, b, c, d, '\\', 'u', a', b', c', d'] (joinPair n low)

theorem readEscape_append {u : List Char} {e : Char} (h : Escapes u e) (rest : List Char) :
    readEscape (u ++ rest) = some (some e, rest) := by
  cases h with
  | @short c e h =>
    rw [List.singleton_append]
    unfold readEscape
    split
    · rename_i heq
      obtain ⟨rfl, -⟩ := List.cons.inj heq
      cases h
    · rename_i heq
      obtain ⟨rfl, rfl⟩ := List.cons.inj heq
      rw [h, Option.map_some]
    · rename_i heq
      cases heq
  | code h hl ht => simp [readEscape, h, hl, ht]
  | pair h hl h' ht => simp [readEscape, h, hl, h', ht]

theorem escapes_of_readEscape {e : Char} (h : readEscape cs = some (some e, rest)) :
    ∃ u, Escapes u e ∧ cs = u ++ rest := by
  unfold readEscape at h
  split at h
  · rename_i a b c d more
    obtain ⟨n, hn, h⟩ := Option.bind_eq_some_iff.1 h
    split at h
    · rename_i hl
      split at h
      · split at h
        · rename_i low hlow
          split at h
          · rename_i ht
            simp only [Option.some.injEq, Prod.mk.injEq] at h
            obtain ⟨rfl, rfl⟩ := h
            exact ⟨_, .pair hn hl hlow ht, rfl⟩
          · simp at h
        · cases h
      · simp at h
    · rename_i hl
      split at h
      · simp at h
      · rename_i ht
        simp only [Option.some.injEq, Prod.mk.injEq] at h
        obtain ⟨rfl, rfl⟩ := h
        exact ⟨_, .code hn (Bool.eq_false_iff.2 hl) (Bool.eq_false_iff.2 ht), rfl⟩
  · rename_i c more _
    obtain ⟨e', he', h⟩ := Option.map_eq_some_iff.1 h
    simp only [Prod.mk.injEq, Option.some.injEq] at h
    obtain ⟨rfl, rfl⟩ := h
    exact ⟨[c], .short he', rfl⟩
  · cases h

/-- **Characters that spell a text**, up to its closing quote. -/
inductive Spells : List Char → List Char → List Char → Prop where
  | close {rest : List Char} : Spells ('"' :: rest) [] rest
  | plain {c : Char} {cs x rest : List Char} (hquote : c ≠ '"') (hescape : c ≠ '\\') (hcontrol : ¬ c.toNat < 0x20)
      (h : Spells cs x rest) : Spells (c :: cs) (c :: x) rest
  | escape {e : Char} {u cs x rest : List Char} (he : Escapes u e) (h : Spells cs x rest) :
      Spells ('\\' :: (u ++ cs)) (e :: x) rest

variable {x : List Char}

theorem Escapes.length_pos {u : List Char} {e : Char} (h : Escapes u e) : 0 < u.length := by
  cases h <;> exact Nat.succ_pos _

theorem Spells.length_lt (h : Spells cs x rest) : rest.length < cs.length := by
  induction h with
  | close => exact Nat.lt_succ_self _
  | plain _ _ _ _ ih => exact Nat.lt_succ_of_lt ih
  | escape _ _ ih =>
    rw [List.length_cons, List.length_append]
    omega

/-- A text that is spelled is read. -/
theorem readText_of_spells (h : Spells cs x rest) (acc : List Char) (hn : cs.length - rest.length ≤ n) :
    readText n (some acc) cs = some (some (String.ofList (acc.reverse ++ x)), rest) := by
  induction h generalizing n acc with
  | close =>
    obtain ⟨n, rfl⟩ : ∃ m, n = m + 1 := ⟨n - 1, by rw [List.length_cons] at hn; omega⟩
    rw [readText, if_pos rfl, Option.map_some, List.append_nil]
  | @plain c cs x rest hquote hescape hcontrol h ih =>
    have hlt := h.length_lt
    obtain ⟨n, rfl⟩ : ∃ m, n = m + 1 := ⟨n - 1, by rw [List.length_cons] at hn; omega⟩
    rw [readText, if_neg hquote, if_neg hescape, if_neg hcontrol, Option.map_some, ih]
    · rw [List.reverse_cons, List.append_assoc, List.singleton_append]
    · rw [List.length_cons] at hn
      omega
  | @escape e u cs x rest he h ih =>
    have hlt := h.length_lt
    have hpos := he.length_pos
    obtain ⟨n, rfl⟩ : ∃ m, n = m + 1 := ⟨n - 1, by rw [List.length_cons, List.length_append] at hn; omega⟩
    rw [readText, if_neg (by decide), if_pos rfl, readEscape_append he]
    simp only [Option.map_some]
    rw [ih]
    · rw [List.reverse_cons, List.append_assoc, List.singleton_append]
    · rw [List.length_cons, List.length_append] at hn
      omega

/-- **A text that is read and has a value is spelled.** -/
theorem spells_of_readText {acc : Option (List Char)} {t : String}
    (h : readText n acc cs = some (some t, rest)) :
    ∃ as x, acc = some as ∧ t = String.ofList (as.reverse ++ x) ∧ Spells cs x rest := by
  induction n generalizing acc cs with
  | zero => simp [readText] at h
  | succ n ih =>
    cases cs with
    | nil => simp [readText] at h
    | cons c cs =>
      rw [readText] at h
      split at h
      · rename_i hc
        subst hc
        simp only [Option.some.injEq, Prod.mk.injEq, Option.map_eq_some_iff] at h
        obtain ⟨⟨as, rfl, rfl⟩, rfl⟩ := h
        exact ⟨as, [], rfl, by rw [List.append_nil], .close⟩
      · rename_i hquote
        split at h
        · rename_i hc
          subst hc
          split at h
          · rename_i e cs' he
            obtain ⟨u, hu, rfl⟩ := escapes_of_readEscape he
            obtain ⟨as, x, has, ht, hx⟩ := ih h
            obtain ⟨as, rfl, rfl⟩ := Option.map_eq_some_iff.1 has
            exact ⟨as, e :: x, rfl, by simp [ht], .escape hu hx⟩
          · -- once a part has no value the text has none
            obtain ⟨as, x, has, -⟩ := ih h
            cases has
          · cases h
        · rename_i hescape
          split at h
          · cases h
          · rename_i hcontrol
            obtain ⟨as, x, has, ht, hx⟩ := ih h
            obtain ⟨as, rfl, rfl⟩ := Option.map_eq_some_iff.1 has
            exact ⟨as, c :: x, rfl, by simp [ht], .plain hquote hescape hcontrol hx⟩

/-- What follows a text is of no account to it. -/
theorem Spells.replace (h : Spells cs x rest) : ∃ u, cs = u ++ rest ∧ ∀ rest', Spells (u ++ rest') x rest' := by
  induction h with
  | close => exact ⟨['"'], rfl, fun _ => .close⟩
  | @plain c _ _ _ hquote hescape hcontrol _ ih =>
    obtain ⟨u, rfl, hu⟩ := ih
    exact ⟨c :: u, rfl, fun rest' => .plain hquote hescape hcontrol (hu rest')⟩
  | @escape _ w _ _ _ he _ ih =>
    obtain ⟨u, rfl, hu⟩ := ih
    refine ⟨'\\' :: (w ++ u), by simp, fun rest' => ?_⟩
    rw [List.cons_append, List.append_assoc]
    exact .escape he (hu rest')

/-! ### Documents -/

/-- The words of the language, with what they stand for. -/
def words : List (List Char × Json) :=
  [(['n', 'u', 'l', 'l'], null), (['t', 'r', 'u', 'e'], bool true), (['f', 'a', 'l', 's', 'e'], bool false)]

/-- What stands at the start of a text: a value, a member, or further items or members up to the closing bracket. -/
inductive Part where
  | value (j : Json)
  | member (m : Option String × Json)
  | items (js : List Json)
  | members (ms : List (Option String × Json))

/-- **What stands at the start of a text**, with what follows it. -/
inductive Reads : List Char → Part → List Char → Prop where
  | word {cs w rest : List Char} {j : Json} (hj : (w, j) ∈ words) (h : skipBlanks cs = w ++ rest) :
      Reads cs (.value j) rest
  | number {cs rest : List Char} {num : Numeral} (h : readNumeral (skipBlanks cs) = some (num, rest)) :
      Reads cs (.value (number num)) rest
  | text {cs body x rest : List Char} (h : skipBlanks cs = '"' :: body) (hx : Spells body x rest) :
      Reads cs (.value (ofText (String.ofList x))) rest
  | noItems {cs r rest : List Char} (h : skipBlanks cs = '[' :: r) (hr : skipBlanks r = ']' :: rest) :
      Reads cs (.value (array [])) rest
  | array {cs r r' rest : List Char} {j : Json} {js : List Json} (h : skipBlanks cs = '[' :: r)
      (hj : Reads r (.value j) r') (hjs : Reads r' (.items js) rest) : Reads cs (.value (array (j :: js))) rest
  | noMembers {cs r rest : List Char} (h : skipBlanks cs = '\x7b' :: r) (hr : skipBlanks r = '\x7d' :: rest) :
      Reads cs (.value (object [])) rest
  | object {cs r r' rest : List Char} {m : Option String × Json} {ms : List (Option String × Json)}
      (h : skipBlanks cs = '\x7b' :: r) (hm : Reads r (.member m) r') (hms : Reads r' (.members ms) rest) :
      Reads cs (.value (object (m :: ms))) rest
  | member {cs body x r r' rest : List Char} {j : Json} (h : skipBlanks cs = '"' :: body) (hx : Spells body x r)
      (hr : skipBlanks r = ':' :: r') (hj : Reads r' (.value j) rest) :
      Reads cs (.member (some (String.ofList x), j)) rest
  | lastItem {cs rest : List Char} (h : skipBlanks cs = ']' :: rest) : Reads cs (.items []) rest
  | item {cs r r' rest : List Char} {j : Json} {js : List Json} (h : skipBlanks cs = ',' :: r)
      (hj : Reads r (.value j) r') (hjs : Reads r' (.items js) rest) : Reads cs (.items (j :: js)) rest
  | lastMember {cs rest : List Char} (h : skipBlanks cs = '\x7d' :: rest) : Reads cs (.members []) rest
  | further {cs r r' rest : List Char} {m : Option String × Json} {ms : List (Option String × Json)}
      (h : skipBlanks cs = ',' :: r) (hm : Reads r (.member m) r') (hms : Reads r' (.members ms) rest) :
      Reads cs (.members (m :: ms)) rest

variable {p : Part}

/-- Whatever stands there takes a character at least. -/
theorem Reads.length_lt (h : Reads cs p rest) : rest.length < cs.length := by
  induction h with
  | @word cs w rest j hj h =>
    have hle := length_skipBlanks_le cs
    have hw : 0 < w.length := by
      simp only [words, List.mem_cons, List.not_mem_nil, or_false, Prod.mk.injEq] at hj
      obtain ⟨rfl, -⟩ | ⟨rfl, -⟩ | ⟨rfl, -⟩ := hj <;> exact Nat.succ_pos _
    rw [h, List.length_append] at hle
    omega
  | @number cs _ _ h => exact lt_of_lt_of_le (head_of_numeral h).1 (length_skipBlanks_le cs)
  | text h hx => exact lt_trans hx.length_lt (length_of_skipBlanks h)
  | noItems h hr => exact lt_trans (length_of_skipBlanks hr) (length_of_skipBlanks h)
  | array h _ _ ih ih' => exact lt_trans ih' (lt_trans ih (length_of_skipBlanks h))
  | noMembers h hr => exact lt_trans (length_of_skipBlanks hr) (length_of_skipBlanks h)
  | object h _ _ ih ih' => exact lt_trans ih' (lt_trans ih (length_of_skipBlanks h))
  | member h hx hr _ ih =>
    exact lt_trans ih (lt_trans (length_of_skipBlanks hr) (lt_trans hx.length_lt (length_of_skipBlanks h)))
  | lastItem h => exact length_of_skipBlanks h
  | item h _ _ ih ih' => exact lt_trans ih' (lt_trans ih (length_of_skipBlanks h))
  | lastMember h => exact length_of_skipBlanks h
  | further h _ _ ih ih' => exact lt_trans ih' (lt_trans ih (length_of_skipBlanks h))

/-! ### The reader follows the grammar -/

/-- Blanks in front are of no account. -/
theorem readValue_skipBlanks (n : Nat) (cs : List Char) : readValue n (skipBlanks cs) = readValue n cs := by
  cases n with
  | zero => simp only [readValue]
  | succ n => simp only [readValue, skipBlanks_skipBlanks]

theorem readItems_skipBlanks (n : Nat) (cs : List Char) : readItems n (skipBlanks cs) = readItems n cs := by
  cases n with
  | zero => simp only [readItems]
  | succ n => simp only [readItems, readValue_skipBlanks]

theorem readMembers_skipBlanks (n : Nat) (cs : List Char) : readMembers n (skipBlanks cs) = readMembers n cs := by
  cases n with
  | zero => simp only [readMembers]
  | succ n => simp only [readMembers, skipBlanks_skipBlanks]

/-- What a number begins with begins nothing else. -/
theorem readValue_number {num : Numeral} (h : readNumeral (skipBlanks cs) = some (num, rest)) :
    readValue (n + 1) cs = some (number num, rest) := by
  obtain ⟨-, c, r, hcs, hc⟩ := head_of_numeral h
  have hne : ∀ d ∈ ['"', '[', '\x7b', 'n', 't', 'f'], c ≠ d := by
    intro d hd hcd
    subst hcd
    simp only [List.mem_cons, List.not_mem_nil, or_false] at hd
    rcases hd with rfl | rfl | rfl | rfl | rfl | rfl <;> simp [isDigit] at hc
  rw [hcs] at h
  rw [readValue, hcs]
  split
  case h_7 => rw [h, Option.map_some]
  all_goals
    rename_i heq
    exact absurd (List.cons.inj heq).1 (hne _ (by simp))

theorem readValue_word {w : List Char} {j : Json} (hj : (w, j) ∈ words) (h : skipBlanks cs = w ++ rest) :
    readValue (n + 1) cs = some (j, rest) := by
  simp only [words, List.mem_cons, List.not_mem_nil, or_false, Prod.mk.injEq] at hj
  rw [readValue, h]
  obtain ⟨rfl, rfl⟩ | ⟨rfl, rfl⟩ | ⟨rfl, rfl⟩ := hj <;> simp [expect]

/-- Words begin with their letters. -/
theorem head_of_word {w : List Char} {j : Json} (hj : (w, j) ∈ words) (h : c :: r = w ++ rest) :
    c ∈ ['n', 't', 'f'] := by
  simp only [words, List.mem_cons, List.not_mem_nil, or_false, Prod.mk.injEq] at hj
  obtain ⟨rfl, -⟩ | ⟨rfl, -⟩ | ⟨rfl, -⟩ := hj <;>
    (obtain ⟨rfl, -⟩ := List.cons.inj h; decide)

/-- Numbers begin with a minus sign or a digit. -/
theorem head_of_number {num : Numeral} (h : readNumeral (c :: r) = some (num, rest)) : c = '-' ∨ isDigit c = true := by
  obtain ⟨-, c', r', heq, hc⟩ := head_of_numeral h
  obtain ⟨rfl, -⟩ := List.cons.inj heq
  exact hc

/-- Nothing but a value stands before a comma or a bracket, so no list begins with one. -/
theorem Reads.head_ne {j : Json} (h : Reads cs (.value j) rest) {d : Char} (hd : d ∈ [',', ']', '\x7d', ':'])
    (r : List Char) : skipBlanks cs ≠ d :: r := by
  intro hcs
  simp only [List.mem_cons, List.not_mem_nil, or_false] at hd
  cases h with
  | word hj hw =>
    have hletter := head_of_word hj (hcs.symm.trans hw)
    rcases hd with rfl | rfl | rfl | rfl <;> simp at hletter
  | number hnum =>
    rw [hcs] at hnum
    have hfirst := head_of_number hnum
    rcases hd with rfl | rfl | rfl | rfl <;> simp [isDigit] at hfirst
  | text h | noItems h | array h | noMembers h | object h =>
    rw [hcs] at h
    obtain ⟨rfl, -⟩ := List.cons.inj h
    rcases hd with h | h | h | h <;> cases h

/-- Nothing but a text begins with a quote. -/
theorem Reads.of_quote {j : Json} (h : Reads cs (.value j) rest) (hcs : skipBlanks cs = '"' :: body) :
    ∃ x, j = ofText (String.ofList x) ∧ Spells body x rest := by
  cases h with
  | word hj hw => simpa using head_of_word hj (hcs.symm.trans hw)
  | number hnum =>
    rw [hcs] at hnum
    simpa [isDigit] using head_of_number hnum
  | text h hx =>
    rw [hcs] at h
    obtain ⟨-, rfl⟩ := List.cons.inj h
    exact ⟨_, rfl, hx⟩
  | noItems h | array h | noMembers h | object h =>
    rw [hcs] at h
    cases h

/-- Nothing but an object begins with a brace. -/
theorem Reads.of_brace {j : Json} (h : Reads cs (.value j) rest) (hcs : skipBlanks cs = '\x7b' :: r) :
    (j = .object [] ∧ skipBlanks r = '\x7d' :: rest) ∨
      ∃ m ms r', j = .object (m :: ms) ∧ Reads r (.member m) r' ∧ Reads r' (.members ms) rest := by
  cases h with
  | word hj hw => simpa using head_of_word hj (hcs.symm.trans hw)
  | number hnum =>
    rw [hcs] at hnum
    simpa [isDigit] using head_of_number hnum
  | noMembers h hr =>
    rw [hcs] at h
    obtain ⟨-, rfl⟩ := List.cons.inj h
    exact .inl ⟨rfl, hr⟩
  | object h hm hms =>
    rw [hcs] at h
    obtain ⟨-, rfl⟩ := List.cons.inj h
    exact .inr ⟨_, _, _, rfl, hm, hms⟩
  | text h | noItems h | array h =>
    rw [hcs] at h
    cases h

/-- How the reader reads a member, with a number of steps for its value. -/
def MemberBy (n : Nat) (cs : List Char) (m : Option String × Json) (rest : List Char) : Prop :=
  ∃ body r r', skipBlanks cs = '"' :: body ∧ readText (body.length + 1) (some []) body = some (m.1, r) ∧
    skipBlanks r = ':' :: r' ∧ readValue n r' = some (m.2, rest)

/-- **How the reader reads each part** in a number of steps: further items and members after one that was read. -/
def ReadBy (n : Nat) (cs rest : List Char) : Part → Prop
  | .value j => readValue n cs = some (j, rest)
  | .member m => MemberBy n cs m rest
  | .items js => ∀ j v, readValue n v = some (j, cs) → readItems (n + 1) v = some (j :: js, rest)
  | .members ms => ∀ m v, MemberBy n v m cs → readMembers (n + 1) v = some (m :: ms, rest)

/-- **What follows the grammar is read**, in as many steps as there are characters. -/
theorem Reads.readBy (h : Reads cs p rest) (hn : cs.length - rest.length ≤ n) : ReadBy n cs rest p := by
  have hlt := h.length_lt
  -- on what is read; a list or an object takes one step for itself and one for what follows its first part
  induction h generalizing n with
  | word hj h =>
    obtain ⟨n, rfl⟩ : ∃ m, n = m + 1 := ⟨n - 1, by omega⟩
    exact readValue_word hj h
  | number h =>
    obtain ⟨n, rfl⟩ : ∃ m, n = m + 1 := ⟨n - 1, by omega⟩
    exact readValue_number h
  | @text cs body x rest h hx =>
    obtain ⟨n, rfl⟩ : ∃ m, n = m + 1 := ⟨n - 1, by omega⟩
    have htext := readText_of_spells hx [] (show body.length - rest.length ≤ body.length + 1 by omega)
    simp [ReadBy, readValue, h, htext, ofText]
  | noItems h hr =>
    obtain ⟨n, rfl⟩ : ∃ m, n = m + 1 := ⟨n - 1, by omega⟩
    simp [ReadBy, readValue, h, hr]
  | @array cs r r' rest j js h hj hjs ih ih' =>
    have hr := length_of_skipBlanks h
    have hr' := hj.length_lt
    have hrest := hjs.length_lt
    obtain ⟨n, rfl⟩ : ∃ m, n = m + 1 + 1 := ⟨n - 2, by omega⟩
    have hread : readItems (n + 1) r = some (j :: js, rest) := ih' (by omega) hrest j r (ih (by omega) hr')
    rw [← readItems_skipBlanks] at hread
    -- the reader looks for the closing bracket first
    have hopen : ∀ rest, skipBlanks r ≠ ']' :: rest := fun rest => hj.head_ne (by simp) rest
    rw [ReadBy, readValue, h]
    simp [hread]
  | noMembers h hr =>
    obtain ⟨n, rfl⟩ : ∃ m, n = m + 1 := ⟨n - 1, by omega⟩
    simp [ReadBy, readValue, h, hr]
  | @object cs r r' rest m ms h hm hms ih ih' =>
    have hr := length_of_skipBlanks h
    have hr' := hm.length_lt
    have hrest := hms.length_lt
    obtain ⟨n, rfl⟩ : ∃ m, n = m + 1 + 1 := ⟨n - 2, by omega⟩
    have hmember : MemberBy n r m r' := ih (by omega) hr'
    have hread : readMembers (n + 1) r = some (m :: ms, rest) := ih' (by omega) hrest m r hmember
    obtain ⟨body, r₁, r₂, hbody, -⟩ := hmember
    rw [← readMembers_skipBlanks, hbody] at hread
    rw [ReadBy, readValue, h]
    simp [hbody, hread]
  | @member cs body x r r' rest j h hx hr hj ih =>
    have hbody := length_of_skipBlanks h
    have hx' := hx.length_lt
    have hr' := length_of_skipBlanks hr
    have hrest := hj.length_lt
    have htext := readText_of_spells hx [] (show body.length - r.length ≤ body.length + 1 by omega)
    exact ⟨body, r, r', h, htext, hr, ih (by omega) hrest⟩
  | lastItem h =>
    intro j v hv
    simp [readItems, hv, h]
  | @item cs r r' rest j js h hj hjs ih ih' =>
    intro j' v hv
    have hr := length_of_skipBlanks h
    have hr' := hj.length_lt
    have hrest := hjs.length_lt
    obtain ⟨n, rfl⟩ : ∃ m, n = m + 1 := ⟨n - 1, by omega⟩
    have hread : readItems (n + 1) r = some (j :: js, rest) := ih' (by omega) hrest j r (ih (by omega) hr')
    rw [readItems, hv]
    simp [h, hread]
  | lastMember h =>
    rintro m v ⟨body, r, r', hbody, htext, hcolon, hvalue⟩
    simp [readMembers, hbody, htext, hcolon, hvalue, h]
  | @further cs r r' rest m ms h hm hms ih ih' =>
    rintro m' v ⟨body, r₁, r₂, hbody, htext, hcolon, hvalue⟩
    have hr := length_of_skipBlanks h
    have hr' := hm.length_lt
    have hrest := hms.length_lt
    obtain ⟨n, rfl⟩ : ∃ m, n = m + 1 := ⟨n - 1, by omega⟩
    have hread : readMembers (n + 1) r = some (m :: ms, rest) := ih' (by omega) hrest m r (ih (by omega) hr')
    rw [readMembers, hbody]
    simp [htext, hcolon, hvalue, h, hread]

/-- **A document that follows the grammar is read** as what it spells. -/
theorem read?_of_reads {source : String} {j : Json} (h : Reads source.toList (.value j) rest)
    (hrest : skipBlanks rest = []) : read? source = some j := by
  have hread : readValue (2 * source.toList.length + 2) source.toList = some (j, rest) := h.readBy (by omega)
  rw [read?]
  simp [hread, hrest]

/-- **The grammar reads a text in one way.** -/
theorem Reads.value_unique {j j' : Json} (h : Reads cs (.value j) rest) (h' : Reads cs (.value j') rest') :
    j = j' ∧ rest = rest' := by
  have hread : readValue cs.length cs = some (j, rest) := h.readBy (by omega)
  have hread' : readValue cs.length cs = some (j', rest') := h'.readBy (by omega)
  rw [hread] at hread'
  exact Prod.mk.inj (Option.some.inj hread')

theorem Reads.member_unique {m m' : Option String × Json} (h : Reads cs (.member m) rest)
    (h' : Reads cs (.member m') rest') : m = m' ∧ rest = rest' := by
  obtain ⟨body, r₁, r₂, hbody, htext, hcolon, hvalue⟩ : MemberBy cs.length cs m rest := h.readBy (by omega)
  obtain ⟨body', r₁', r₂', hbody', htext', hcolon', hvalue'⟩ : MemberBy cs.length cs m' rest' := h'.readBy (by omega)
  obtain ⟨-, rfl⟩ := List.cons.inj (hbody.symm.trans hbody')
  rw [htext] at htext'
  obtain ⟨hname, rfl⟩ := Prod.mk.inj (Option.some.inj htext')
  obtain ⟨-, rfl⟩ := List.cons.inj (hcolon.symm.trans hcolon')
  rw [hvalue] at hvalue'
  obtain ⟨hj, hrest⟩ := Prod.mk.inj (Option.some.inj hvalue')
  exact ⟨Prod.ext hname hj, hrest⟩

theorem Reads.members_unique {ms ms' : List (Option String × Json)} (h : Reads cs (.members ms) rest)
    (h' : Reads cs (.members ms') rest') : ms = ms' ∧ rest = rest' := by
  -- after a first member that is the same for both
  have hfirst : Reads ('"' :: '"' :: ':' :: 'n' :: 'u' :: 'l' :: 'l' :: cs) (.member (some "", null)) cs :=
    .member (skipBlanks_cons (by decide) _) .close (skipBlanks_cons (by decide) _)
      (.word (w := ['n', 'u', 'l', 'l']) (by simp [words]) (skipBlanks_cons (by decide) _))
  have hmember : MemberBy (cs.length + 7) ('"' :: '"' :: ':' :: 'n' :: 'u' :: 'l' :: 'l' :: cs) (some "", null) cs :=
    hfirst.readBy (by simp only [List.length_cons]; omega)
  have hread : ReadBy (cs.length + 7) cs rest (.members ms) := h.readBy (by omega)
  have hread' : ReadBy (cs.length + 7) cs rest' (.members ms') := h'.readBy (by omega)
  have heq := (hread _ _ hmember).symm.trans (hread' _ _ hmember)
  obtain ⟨hms, hrest⟩ := Prod.mk.inj (Option.some.inj heq)
  exact ⟨(List.cons.inj hms).2, hrest⟩

theorem Spells.unique {x x' : List Char} (h : Spells cs x rest) (h' : Spells cs x' rest') : x = x' ∧ rest = rest' := by
  have hread := readText_of_spells h [] (show cs.length - rest.length ≤ cs.length by omega)
  have hread' := readText_of_spells h' [] (show cs.length - rest'.length ≤ cs.length by omega)
  obtain ⟨hx, hrest⟩ := Prod.mk.inj (Option.some.inj (hread.symm.trans hread'))
  exact ⟨by simpa using String.ofList_injective (Option.some.inj hx), hrest⟩

/-- Further members are no further items. -/
theorem Reads.not_items {ms : List (Option String × Json)} {js : List Json} (h : Reads cs (.members ms) rest) :
    ¬ Reads cs (.items js) rest' := by
  intro h'
  cases h with
  | lastMember h =>
    cases h' with
    | lastItem h' => rw [h] at h'; cases h'
    | item h' => rw [h] at h'; cases h'
  | further h hm hms =>
    cases h' with
    | lastItem h' => rw [h] at h'; cases h'
    | item h' hj hjs =>
      rw [h] at h'
      obtain ⟨-, rfl⟩ := List.cons.inj h'
      -- the name of a member would be an item, and what follows it is a colon
      cases hm with
      | member hname hx hcolon hvalue =>
        obtain ⟨-, rfl⟩ := hj.value_unique (.text hname hx)
        cases hjs with
        | lastItem h => rw [hcolon] at h; cases h
        | item h => rw [hcolon] at h; cases h

theorem spells_of_readText_nil {t : Option String} (ht : readText n (some []) body = some (t, rest))
    (hs : t.isSome = true) : ∃ x, t = some (String.ofList x) ∧ Spells body x rest := by
  obtain ⟨t, rfl⟩ := Option.isSome_iff_exists.1 hs
  obtain ⟨as, x, has, rfl, hx⟩ := spells_of_readText ht
  obtain rfl := Option.some.inj has
  exact ⟨x, rfl, hx⟩

theorem word_of_expect {w : List Char} {j : Json} {read : Json × List Char} (hj : (c :: w, j) ∈ words)
    (h : skipBlanks cs = c :: r) (he : ((expect w r).map fun rest => (j, rest)) = some read) :
    Reads cs (.value read.1) read.2 := by
  obtain ⟨rest, hexpect, rfl⟩ := Option.map_eq_some_iff.1 he
  unfold expect at hexpect
  split at hexpect
  · rename_i hprefix
    obtain ⟨t, rfl⟩ := List.isPrefixOf_iff_prefix.1 hprefix
    obtain rfl : t = rest := by simpa using hexpect
    exact .word hj (by rw [h, List.cons_append])
  · cases hexpect

/-- What a number of steps reads as a value follows the grammar. -/
def ValueFollows (n : Nat) : Prop :=
  ∀ cs j rest a, readValue n cs = some (j, rest) → j.isSound a = true → Reads cs (.value j) rest

/-- What a number of steps reads as items is a first one and further ones. -/
def ItemsFollow (n : Nat) : Prop :=
  ∀ cs js rest a, readItems n cs = some (js, rest) → allSound a js = true →
    ∃ j js' r, js = j :: js' ∧ Reads cs (.value j) r ∧ Reads r (.items js') rest

/-- What a number of steps reads as members is a first one and further ones. -/
def MembersFollow (n : Nat) : Prop :=
  ∀ cs ms rest a, readMembers n cs = some (ms, rest) → membersSound a ms = true →
    ∃ m ms' r, ms = m :: ms' ∧ Reads cs (.member m) r ∧ Reads r (.members ms') rest

theorem valueFollows_succ (hi : ItemsFollow n) (hm : MembersFollow n) : ValueFollows (n + 1) := by
  intro cs j rest a h hs
  rw [readValue] at h
  -- by the first character, in the order in which the reader looks for it
  split at h
  · rename_i body hcs
    obtain ⟨⟨t, r⟩, ht, h⟩ := Option.map_eq_some_iff.1 h
    obtain ⟨rfl, rfl⟩ := Prod.mk.inj h
    obtain ⟨x, rfl, hx⟩ := spells_of_readText_nil ht (by simpa [isSound] using hs)
    exact .text hcs hx
  · rename_i r hcs
    split at h
    · rename_i hr
      obtain ⟨rfl, rfl⟩ := Prod.mk.inj (Option.some.inj h)
      exact .noItems hcs hr
    · obtain ⟨⟨js, r'⟩, hjs, h⟩ := Option.map_eq_some_iff.1 h
      obtain ⟨rfl, rfl⟩ := Prod.mk.inj h
      rw [readItems_skipBlanks] at hjs
      simp only [isSound, Bool.and_eq_true] at hs
      obtain ⟨j, js', m, rfl, hj, hjs'⟩ := hi _ _ _ _ hjs hs.2
      exact .array hcs hj hjs'
  · rename_i r hcs
    split at h
    · rename_i hr
      obtain ⟨rfl, rfl⟩ := Prod.mk.inj (Option.some.inj h)
      exact .noMembers hcs hr
    · obtain ⟨⟨ms, r'⟩, hms, h⟩ := Option.map_eq_some_iff.1 h
      obtain ⟨rfl, rfl⟩ := Prod.mk.inj h
      rw [readMembers_skipBlanks] at hms
      simp only [isSound, Bool.and_eq_true] at hs
      obtain ⟨m, ms', mid, rfl, hm', hms'⟩ := hm _ _ _ _ hms hs.2
      exact .object hcs hm' hms'
  · rename_i hcs
    exact word_of_expect (by simp [words]) hcs h
  · rename_i hcs
    exact word_of_expect (by simp [words]) hcs h
  · rename_i hcs
    exact word_of_expect (by simp [words]) hcs h
  · obtain ⟨⟨num, r⟩, hnum, h⟩ := Option.map_eq_some_iff.1 h
    obtain ⟨rfl, rfl⟩ := Prod.mk.inj h
    exact .number hnum

theorem itemsFollow_succ (hv : ValueFollows n) (hi : ItemsFollow n) : ItemsFollow (n + 1) := by
  intro cs js rest a h hs
  rw [readItems] at h
  obtain ⟨⟨j, r⟩, hj, h⟩ := Option.bind_eq_some_iff.1 h
  simp only at h
  split at h
  · rename_i r' hr
    obtain ⟨⟨js', r''⟩, hjs, h⟩ := Option.bind_eq_some_iff.1 h
    obtain ⟨rfl, rfl⟩ := Prod.mk.inj (Option.some.inj h)
    simp only [allSound, Bool.and_eq_true] at hs
    obtain ⟨j', js'', mid, rfl, hj', hjs'⟩ := hi _ _ _ _ hjs hs.2
    exact ⟨j, _, r, rfl, hv _ _ _ _ hj hs.1, .item hr hj' hjs'⟩
  · rename_i r' hr
    obtain ⟨rfl, rfl⟩ := Prod.mk.inj (Option.some.inj h)
    simp only [allSound, Bool.and_eq_true] at hs
    exact ⟨j, [], r, rfl, hv _ _ _ _ hj hs.1, .lastItem hr⟩
  · cases h

theorem membersFollow_succ (hv : ValueFollows n) (hm : MembersFollow n) : MembersFollow (n + 1) := by
  intro cs ms rest a h hs
  rw [readMembers] at h
  split at h
  · rename_i body hcs
    obtain ⟨⟨name, r⟩, hname, h⟩ := Option.bind_eq_some_iff.1 h
    simp only at h
    split at h
    · rename_i r' hr
      obtain ⟨⟨j, r''⟩, hj, h⟩ := Option.bind_eq_some_iff.1 h
      simp only at h
      -- what a first member is, whatever follows it
      have hmember (hs : name.isSome = true ∧ j.isSound a = true) : Reads cs (.member (name, j)) r'' := by
        obtain ⟨x, rfl, hx⟩ := spells_of_readText_nil hname hs.1
        exact .member hcs hx hr (hv _ _ _ _ hj hs.2)
      split at h
      · rename_i mid hmid
        obtain ⟨⟨ms', r₃⟩, hms, h⟩ := Option.bind_eq_some_iff.1 h
        obtain ⟨rfl, rfl⟩ := Prod.mk.inj (Option.some.inj h)
        simp only [membersSound, Bool.and_eq_true] at hs
        obtain ⟨m', ms'', mid', rfl, hm', hms'⟩ := hm _ _ _ _ hms hs.2
        exact ⟨(name, j), _, r'', rfl, hmember hs.1, .further hmid hm' hms'⟩
      · rename_i mid hmid
        obtain ⟨rfl, rfl⟩ := Prod.mk.inj (Option.some.inj h)
        simp only [membersSound, Bool.and_eq_true] at hs
        exact ⟨(name, j), [], r'', rfl, hmember hs.1, .lastMember hmid⟩
      · cases h
    · cases h
  · cases h

/-- **What is read follows the grammar**, if everything in it has a value. -/
theorem reads_of_steps (n : Nat) : ValueFollows n ∧ ItemsFollow n ∧ MembersFollow n := by
  induction n with
  | zero => simp [ValueFollows, ItemsFollow, MembersFollow, readValue, readItems, readMembers]
  | succ n ih =>
    obtain ⟨hv, hi, hm⟩ := ih
    exact ⟨valueFollows_succ hi hm, itemsFollow_succ hv hi, membersFollow_succ hv hm⟩

/-- **A document that is read follows the grammar**, if everything in it has a value. -/
theorem reads_of_read? {source : String} {j : Json} {a : Nat} (h : read? source = some j)
    (hs : j.isSound a = true) : ∃ rest, Reads source.toList (.value j) rest ∧ skipBlanks rest = [] := by
  rw [read?] at h
  split at h
  · rename_i value rest hread
    split at h
    · rename_i hrest
      obtain rfl := Option.some.inj h
      exact ⟨rest, (reads_of_steps _).1 _ _ _ _ hread hs, List.isEmpty_iff.1 hrest⟩
    · cases h
  · cases h

/-! ### What follows -/

theorem isBlank_of_isDigit (h : isDigit c = true) : isBlank c = false := by
  by_contra hblank
  simp only [isBlank, Bool.not_eq_false, Bool.or_eq_true, beq_iff_eq] at hblank
  obtain ((rfl | rfl) | rfl) | rfl := hblank <;> exact absurd h (by decide)

theorem isBlank_of_skipBlanks (h : skipBlanks cs = c :: r) : isBlank c = false := by
  have hhead := List.head?_dropWhile_not isBlank cs
  unfold skipBlanks at h
  rw [h] at hhead
  simpa using hhead

/-- What stands after blanks stands there whatever follows it. -/
theorem skipBlanks_replace (h : skipBlanks cs = c :: r) :
    ∃ bs, cs = bs ++ c :: r ∧ ∀ r', skipBlanks (bs ++ c :: r') = c :: r' := by
  obtain ⟨bs, hbs, rfl⟩ := eq_append_of_skipBlanks h
  refine ⟨bs, rfl, fun r' => ?_⟩
  rw [skipBlanks_append hbs, skipBlanks_cons (isBlank_of_skipBlanks h)]

/-- **What is read does not depend on what follows**, apart from the next character. -/
theorem Reads.replace (h : Reads cs p rest) :
    ∃ u, cs = u ++ rest ∧ ∀ rest', rest'.head? = rest.head? → Reads (u ++ rest') p rest' := by
  induction h with
  | @word cs w rest j hj h =>
    obtain ⟨bs, hbs, rfl⟩ := eq_append_of_skipBlanks h
    refine ⟨bs ++ w, (List.append_assoc _ _ _).symm, fun rest' _ => .word hj ?_⟩
    rw [List.append_assoc, skipBlanks_append hbs]
    simp only [words, List.mem_cons, List.not_mem_nil, or_false, Prod.mk.injEq] at hj
    obtain ⟨rfl, -⟩ | ⟨rfl, -⟩ | ⟨rfl, -⟩ := hj <;> exact skipBlanks_cons (by decide) _
  | @number cs rest num h =>
    obtain ⟨u, hu, -, hread⟩ := took_numeral h
    obtain ⟨bs, hbs, rfl⟩ := eq_append_of_skipBlanks hu
    refine ⟨bs ++ u, (List.append_assoc _ _ _).symm, fun rest' hr => .number ?_⟩
    have hnum := hread rest' hr
    obtain ⟨-, c, r, hcs, hc⟩ := head_of_numeral hnum
    have hblank : isBlank c = false := by
      rcases hc with rfl | hd
      · decide
      · exact isBlank_of_isDigit hd
    rw [List.append_assoc, skipBlanks_append hbs, hcs, skipBlanks_cons hblank, ← hcs, hnum]
  | text h hx =>
    obtain ⟨bs, rfl, hskip⟩ := skipBlanks_replace h
    obtain ⟨u, rfl, hu⟩ := hx.replace
    exact ⟨bs ++ '"' :: u, by simp, fun rest' _ => .text (by simpa using hskip (u ++ rest')) (hu rest')⟩
  | noItems h hr =>
    obtain ⟨bs, rfl, hskip⟩ := skipBlanks_replace h
    obtain ⟨bs', rfl, hskip'⟩ := skipBlanks_replace hr
    exact ⟨bs ++ '[' :: (bs' ++ [']']), by simp, fun rest' _ =>
      .noItems (by simpa using hskip (bs' ++ ']' :: rest')) (hskip' rest')⟩
  | array h _ _ ih ih' =>
    obtain ⟨bs, rfl, hskip⟩ := skipBlanks_replace h
    obtain ⟨u, rfl, hu⟩ := ih
    obtain ⟨u', rfl, hu'⟩ := ih'
    exact ⟨bs ++ '[' :: (u ++ u'), by simp, fun rest' hr => .array (by simpa using hskip (u ++ (u' ++ rest')))
      (hu _ (head?_append_congr u' hr)) (hu' rest' hr)⟩
  | noMembers h hr =>
    obtain ⟨bs, rfl, hskip⟩ := skipBlanks_replace h
    obtain ⟨bs', rfl, hskip'⟩ := skipBlanks_replace hr
    exact ⟨bs ++ '\x7b' :: (bs' ++ ['\x7d']), by simp, fun rest' _ =>
      .noMembers (by simpa using hskip (bs' ++ '\x7d' :: rest')) (hskip' rest')⟩
  | object h _ _ ih ih' =>
    obtain ⟨bs, rfl, hskip⟩ := skipBlanks_replace h
    obtain ⟨u, rfl, hu⟩ := ih
    obtain ⟨u', rfl, hu'⟩ := ih'
    exact ⟨bs ++ '\x7b' :: (u ++ u'), by simp, fun rest' hr => .object (by simpa using hskip (u ++ (u' ++ rest')))
      (hu _ (head?_append_congr u' hr)) (hu' rest' hr)⟩
  | member h hx hr _ ih =>
    obtain ⟨bs, rfl, hskip⟩ := skipBlanks_replace h
    obtain ⟨u, rfl, hu⟩ := hx.replace
    obtain ⟨bs', rfl, hskip'⟩ := skipBlanks_replace hr
    obtain ⟨u', rfl, hu'⟩ := ih
    exact ⟨bs ++ '"' :: (u ++ (bs' ++ ':' :: u')), by simp, fun rest' hr' =>
      .member (by simpa using hskip (u ++ (bs' ++ ':' :: (u' ++ rest')))) (hu _) (hskip' _) (hu' rest' hr')⟩
  | lastItem h =>
    obtain ⟨bs, rfl, hskip⟩ := skipBlanks_replace h
    exact ⟨bs ++ [']'], by simp, fun rest' _ => .lastItem (by simpa using hskip rest')⟩
  | item h _ _ ih ih' =>
    obtain ⟨bs, rfl, hskip⟩ := skipBlanks_replace h
    obtain ⟨u, rfl, hu⟩ := ih
    obtain ⟨u', rfl, hu'⟩ := ih'
    exact ⟨bs ++ ',' :: (u ++ u'), by simp, fun rest' hr => .item (by simpa using hskip (u ++ (u' ++ rest')))
      (hu _ (head?_append_congr u' hr)) (hu' rest' hr)⟩
  | lastMember h =>
    obtain ⟨bs, rfl, hskip⟩ := skipBlanks_replace h
    exact ⟨bs ++ ['\x7d'], by simp, fun rest' _ => .lastMember (by simpa using hskip rest')⟩
  | further h _ _ ih ih' =>
    obtain ⟨bs, rfl, hskip⟩ := skipBlanks_replace h
    obtain ⟨u, rfl, hu⟩ := ih
    obtain ⟨u', rfl, hu'⟩ := ih'
    exact ⟨bs ++ ',' :: (u ++ u'), by simp, fun rest' hr => .further (by simpa using hskip (u ++ (u' ++ rest')))
      (hu _ (head?_append_congr u' hr)) (hu' rest' hr)⟩

end FlowHost.Json
