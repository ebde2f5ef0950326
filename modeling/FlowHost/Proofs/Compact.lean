import FlowHost.Proofs.Grammar

/-!
# The compact spelling is read back

What the writer puts down follows the grammar (`Json.ReadsBack`), so a document in its compact spelling is read as the
document itself. This holds value by value: a list or an object is read back if everything in it is.

* `Json.spells_writeText`: **every text is spelled by its own spelling**, whatever characters it holds.
* `Json.read?_compact`: **a document that is written is read.**
-/

namespace FlowHost.Json

variable {x rest : List Char}

/-! ### Texts -/

theorem hexValue?_hexDigit {n : Nat} (hn : n < 16) : Bytes.hexValue? (Bytes.hexDigit n) = some n := by
  have hall : ∀ n < 16, Bytes.hexValue? (Bytes.hexDigit n) = some n := by decide
  exact hall n hn

theorem hexQuad_of_lt {n : Nat} (hn : n < 0x20) :
    hexQuad '0' '0' (Bytes.hexDigit (n / 16)) (Bytes.hexDigit (n % 16)) = some n := by
  have hzero : Bytes.hexValue? '0' = some 0 := rfl
  have hhigh := hexValue?_hexDigit (show n / 16 < 16 by omega)
  have hlow := hexValue?_hexDigit (show n % 16 < 16 by omega)
  have hvalue : n / 16 * 16 + n % 16 = n := by omega
  simp [hexQuad, hzero, hhigh, hlow, hvalue]

/-- Each character is spelled by what is written for it. -/
theorem spells_escapeChar (c : Char) {cs : List Char} (h : Spells cs x rest) :
    Spells (escapeChar c ++ cs) (c :: x) rest := by
  unfold escapeChar
  split_ifs with hquote hbackslash hb hf hn hr ht hcontrol
  · subst hquote
    exact .escape (.short rfl) h
  · subst hbackslash
    exact .escape (.short rfl) h
  · subst hb
    exact .escape (.short rfl) h
  · subst hf
    exact .escape (.short rfl) h
  · subst hn
    exact .escape (.short rfl) h
  · subst hr
    exact .escape (.short rfl) h
  · subst ht
    exact .escape (.short rfl) h
  · have hleading : isLeading c.toNat = false := by
      simp only [isLeading, Bool.and_eq_false_iff, decide_eq_false_iff_not]
      omega
    have htrailing : isTrailing c.toNat = false := by
      simp only [isTrailing, Bool.and_eq_false_iff, decide_eq_false_iff_not]
      omega
    have hescape := Spells.escape (.code (hexQuad_of_lt hcontrol) hleading htrailing) h
    rw [Char.ofNat_toNat] at hescape
    exact hescape
  · exact .plain hquote hbackslash hcontrol h

/-- **Every text is spelled by its own spelling.** -/
theorem spells_writeText (t : List Char) (rest : List Char) : Spells (t.flatMap escapeChar ++ '"' :: rest) t rest := by
  induction t with
  | nil => exact .close
  | cons c t ih =>
    rw [List.flatMap_cons, List.append_assoc]
    exact spells_escapeChar c ih

/-! ### Values -/

/-- **A value that is read back** from what is written for it, unless more of a number follows. -/
def ReadsBack (j : Json) : Prop := ∀ rest, Ends rest → Reads (j.write ++ rest) (.value j) rest

theorem readsBack_null : ReadsBack null := fun _ _ =>
  .word (w := ['n', 'u', 'l', 'l']) (by simp [words]) (by rfl)

theorem readsBack_bool (b : Bool) : ReadsBack (bool b) := by
  intro rest _
  cases b with
  | true => exact .word (w := ['t', 'r', 'u', 'e']) (by simp [words]) (by rfl)
  | false => exact .word (w := ['f', 'a', 'l', 's', 'e']) (by simp [words]) (by rfl)

theorem readsBack_ofInt (i : Int) : ReadsBack (ofInt i) := by
  intro rest hrest
  have hread := readNumeral_ofInt i hrest
  obtain ⟨-, c, r, hcs, hc⟩ := head_of_numeral hread
  have hblank : isBlank c = false := by
    rcases hc with rfl | hd
    · decide
    · exact isBlank_of_isDigit hd
  refine .number ?_
  show readNumeral (skipBlanks (writeNumeral (Numeral.ofInt i) ++ rest)) = _
  rw [hcs, skipBlanks_cons hblank, ← hcs, hread]

theorem writeText_append (t : String) (rest : List Char) :
    writeText t ++ rest = '"' :: (t.toList.flatMap escapeChar ++ '"' :: rest) := by
  simp [writeText]

theorem readsBack_ofText (t : String) : ReadsBack (ofText t) := by
  intro rest _
  have hread := Reads.text (skipBlanks_cons (by decide) _) (spells_writeText t.toList rest)
  rw [String.ofList_toList] at hread
  show Reads (writeText t ++ rest) _ _
  rwa [writeText_append]

theorem ends_cons {c : Char} (hc : isDigit c = false ∧ c ≠ '.' ∧ c ≠ 'e' ∧ c ≠ 'E') (cs : List Char) :
    Ends (c :: cs) := by
  intro d hd
  obtain rfl := Option.some.inj hd
  exact hc

theorem reads_writeItems {js : List Json} (h : ∀ j ∈ js, ReadsBack j) (rest : List Char) :
    Reads (writeItems js ++ rest) (.items js) rest ∧ Ends (writeItems js ++ rest) := by
  induction js with
  | nil => exact ⟨.lastItem (skipBlanks_cons (by decide) _), ends_cons (by decide) _⟩
  | cons j js ih =>
    obtain ⟨hj, hjs⟩ := List.forall_mem_cons.1 h
    obtain ⟨hread, hends⟩ := ih hjs
    have hwritten : writeItems (j :: js) ++ rest = ',' :: (j.write ++ (writeItems js ++ rest)) := by simp [writeItems]
    rw [hwritten]
    exact ⟨.item (skipBlanks_cons (by decide) _) (hj _ hends) hread, ends_cons (by decide) _⟩

theorem readsBack_array {js : List Json} (h : ∀ j ∈ js, ReadsBack j) : ReadsBack (array js) := by
  intro rest _
  cases js with
  | nil => exact .noItems (skipBlanks_cons (by decide) _) (skipBlanks_cons (by decide) _)
  | cons j js =>
    obtain ⟨hj, hjs⟩ := List.forall_mem_cons.1 h
    obtain ⟨hread, hends⟩ := reads_writeItems hjs rest
    have hwritten : (array (j :: js)).write ++ rest = '[' :: (j.write ++ (writeItems js ++ rest)) := by simp [write]
    rw [hwritten]
    exact .array (skipBlanks_cons (by decide) _) (hj _ hends) hread

/-- A member under its name. -/
theorem reads_writeMember {name : String} {j : Json} (hj : ReadsBack j) (hrest : Ends rest) :
    Reads (writeName (some name) ++ ':' :: (j.write ++ rest)) (.member (some name, j)) rest := by
  have hread := Reads.member (skipBlanks_cons (by decide) _) (spells_writeText name.toList _)
    (skipBlanks_cons (by decide) _) (hj rest hrest)
  rw [String.ofList_toList] at hread
  show Reads (writeText name ++ _) _ _
  rwa [writeText_append]

/-- Members whose names have values. -/
def named (ms : List (String × Json)) : List (Option String × Json) := ms.map fun m => (some m.1, m.2)

theorem reads_writeMembers {ms : List (String × Json)} (h : ∀ m ∈ ms, ReadsBack m.2) (rest : List Char) :
    Reads (writeMembers (named ms) ++ rest) (.members (named ms)) rest ∧
      Ends (writeMembers (named ms) ++ rest) := by
  induction ms with
  | nil => exact ⟨.lastMember (skipBlanks_cons (by decide) _), ends_cons (by decide) _⟩
  | cons m ms ih =>
    obtain ⟨hm, hms⟩ := List.forall_mem_cons.1 h
    obtain ⟨hread, hends⟩ := ih hms
    have hwritten : writeMembers (named (m :: ms)) ++ rest =
        ',' :: (writeName (some m.1) ++ ':' :: (m.2.write ++ (writeMembers (named ms) ++ rest))) := by
      simp [named, writeMembers]
    rw [hwritten]
    exact ⟨.further (skipBlanks_cons (by decide) _) (reads_writeMember hm hends) hread, ends_cons (by decide) _⟩

theorem readsBack_ofMembers {ms : List (String × Json)} (h : ∀ m ∈ ms, ReadsBack m.2) : ReadsBack (ofMembers ms) := by
  intro rest _
  cases ms with
  | nil => exact .noMembers (skipBlanks_cons (by decide) _) (skipBlanks_cons (by decide) _)
  | cons m ms =>
    obtain ⟨hm, hms⟩ := List.forall_mem_cons.1 h
    obtain ⟨hread, hends⟩ := reads_writeMembers hms rest
    have hwritten : (ofMembers (m :: ms)).write ++ rest =
        '\x7b' :: (writeName (some m.1) ++ ':' :: (m.2.write ++ (writeMembers (named ms) ++ rest))) := by
      simp [named, ofMembers, write]
    rw [hwritten]
    exact .object (skipBlanks_cons (by decide) _) (reads_writeMember hm hends) hread

/-- **A document that is written is read.** -/
theorem read?_compact {j : Json} (h : ReadsBack j) : read? j.compact = some j := by
  have hread : Reads j.compact.toList (.value j) [] := by
    have hwritten := h [] (by simp [Ends])
    rw [List.append_nil] at hwritten
    rwa [compact, String.toList_ofList]
  exact read?_of_reads hread rfl

end FlowHost.Json
