import FlowHost.Bundle.Section
import FlowHost.Proofs.Spelling
import Mathlib.Tactic.Ring

/-!
# The framing of binaries

What a well-framed binary is, said by a grammar (`Frames`) and not by a reader, and a reader that accepts just that.

* `Section.word_iff`: the octets that are read as a word.
* `Section.Frames`: **the grammar**, with the room that is left where the octets end.
* `Section.customSections_iff`: **the reader accepts exactly what is framed**, and finds its custom sections.
* `Section.Frames.append_custom`, `Section.Frames.not_append`: a custom section may follow where there is room for it,
  and nowhere else.
-/

namespace FlowHost

theorem Bytes.split?_iff {n : Nat} {bs a b : Bytes} :
    Bytes.split? n bs = some (a, b) ↔ bs = a ++ b ∧ a.length = n := by
  unfold Bytes.split?
  constructor
  · intro h
    split at h
    · rename_i hn
      obtain ⟨rfl, rfl⟩ := Prod.mk.inj (Option.some.inj h)
      exact ⟨(List.take_append_drop n bs).symm, List.length_take_of_le hn⟩
    · cases h
  · rintro ⟨rfl, rfl⟩
    simp

namespace Section

/-! ### Words -/

/-- The number that the octets of a word stand for: seven bits an octet, least significant first. -/
def wordValue : Bytes → Nat
  | [] => 0
  | b :: rest => b.toNat % 128 + 128 * wordValue rest

/-- The last octet, and only the last, is below 128. -/
def IsClosed : Bytes → Prop
  | [] => False
  | b :: rest => if b.toNat < 128 then rest = [] else IsClosed rest

/-- **The octets of a word**: at most five, and 32 bits. -/
structure IsWord (w : Bytes) (n : Nat) : Prop where
  closed : IsClosed w
  length_le : w.length ≤ 5
  value : wordValue w = n
  lt : n < 2 ^ 32

variable {w rest bs body : Bytes} {n value shift fuel : Nat} {e : Encoding} {limit : Option Nat}

theorem value_cons (b : UInt8) (w : Bytes) (value shift : Nat) :
    value + 2 ^ shift * wordValue (b :: w) =
      value + b.toNat % 128 * 2 ^ shift + 2 ^ (shift + 7) * wordValue w := by
  rw [wordValue, Nat.pow_add]
  ring

theorem value_lt (b : UInt8) (h : value < 2 ^ shift) :
    value + b.toNat % 128 * 2 ^ shift < 2 ^ (shift + 7) := by
  have hdigit : b.toNat % 128 * 2 ^ shift ≤ 127 * 2 ^ shift := Nat.mul_le_mul_right _ (by omega)
  rw [Nat.pow_add]
  omega

/-- The fifth octet of a word has room for four bits. -/
theorem lastOctet_iff {b : UInt8} (hshift : shift + 7 * (fuel + 1) = 35) (hvalue : value < 2 ^ shift)
    (hb : b.toNat < 128) :
    value + b.toNat % 128 * 2 ^ shift < 2 ^ 32 ↔ ¬ (28 ≤ shift ∧ 16 ≤ b.toNat) := by
  rcases Nat.eq_zero_or_pos fuel with rfl | hpos
  · have hlast : shift = 28 := by omega
    subst hlast
    omega
  · have hlow : 2 ^ (shift + 7) ≤ 2 ^ 28 := Nat.pow_le_pow_right (by omega) (by omega)
    have hlt := value_lt b hvalue
    constructor
    · omega
    · intro _
      exact (hlt.trans_le hlow).trans (by decide)

/-- A word is read octet by octet, from the place value that is due. -/
theorem wordTail_iff (hshift : shift + 7 * fuel = 35) (hvalue : value < 2 ^ shift) :
    wordTail value shift fuel bs = some (n, rest) ↔
      ∃ w, bs = w ++ rest ∧ IsClosed w ∧ w.length ≤ fuel ∧ value + 2 ^ shift * wordValue w = n ∧
        n < 2 ^ 32 := by
  induction fuel generalizing shift value bs with
  | zero =>
    constructor
    · intro h
      cases h
    · rintro ⟨w, -, hclosed, hlen, -⟩
      rw [List.length_eq_zero_iff.1 (by omega : w.length = 0)] at hclosed
      exact hclosed.elim
  | succ fuel ih =>
    cases bs with
    | nil =>
      constructor
      · intro h
        cases h
      · rintro ⟨w, hbs, hclosed, -⟩
        rw [(List.append_eq_nil_iff.1 hbs.symm).1] at hclosed
        exact hclosed.elim
    | cons b bs =>
      have hrec : wordTail (value + b.toNat % 128 * 2 ^ shift) (shift + 7) fuel bs = some (n, rest) ↔
          ∃ w, bs = w ++ rest ∧ IsClosed w ∧ w.length ≤ fuel ∧
            value + b.toNat % 128 * 2 ^ shift + 2 ^ (shift + 7) * wordValue w = n ∧ n < 2 ^ 32 :=
        ih (by omega) (value_lt b hvalue)
      simp only [wordTail, Nat.pow_eq]
      by_cases hb : b.toNat < 128
      · have hlast := lastOctet_iff hshift hvalue hb
        constructor
        · intro h
          split at h
          · cases h
          · rename_i hfits
            obtain ⟨rfl, rfl⟩ := Prod.mk.inj (Option.some.inj h)
            exact ⟨[b], rfl, by simp [IsClosed, hb], by simp, value_cons b [] value shift, hlast.2 hfits⟩
        · rintro ⟨w, hbs, hclosed, hlen, hn, hlt⟩
          cases w with
          | nil => exact hclosed.elim
          | cons b' w =>
            obtain ⟨rfl, rfl⟩ := List.cons.inj hbs
            have hw : w = [] := by simpa [IsClosed, hb] using hclosed
            subst hw
            have hsum : value + b.toNat % 128 * 2 ^ shift = n := (value_cons b [] value shift).symm.trans hn
            rw [if_neg (hlast.1 (hsum ▸ hlt)), if_pos hb, hsum]
            rfl
      · constructor
        · intro h
          split at h
          · cases h
          · obtain ⟨w, rfl, hclosed, hlen, hn, hlt⟩ := hrec.1 h
            exact ⟨b :: w, rfl, by simp [IsClosed, hb, hclosed], by simpa using hlen,
              (value_cons b w value shift).trans hn, hlt⟩
        · rintro ⟨w, hbs, hclosed, hlen, hn, hlt⟩
          cases w with
          | nil => exact hclosed.elim
          | cons b' w =>
            obtain ⟨rfl, rfl⟩ := List.cons.inj hbs
            have hclosed' : IsClosed w := by simpa [IsClosed, hb] using hclosed
            have hmore : fuel ≠ 0 := by
              rintro rfl
              rw [List.length_eq_zero_iff.1 (by simpa using hlen : w.length = 0)] at hclosed'
              exact hclosed'.elim
            rw [if_neg (by omega), if_neg hb]
            exact hrec.2 ⟨w, rfl, hclosed', by simpa using hlen, (value_cons b w value shift).symm.trans hn, hlt⟩

/-- **What is read as a word** is the octets of one, whatever follows them. -/
theorem word_iff : word bs = some (n, rest) ↔ ∃ w, bs = w ++ rest ∧ IsWord w n := by
  rw [word, wordTail_iff (by rfl) (by decide)]
  simp only [Nat.pow_zero, Nat.zero_add, Nat.one_mul]
  constructor
  · rintro ⟨w, hbs, hclosed, hlen, hvalue, hlt⟩
    exact ⟨w, hbs, hclosed, hlen, hvalue, hlt⟩
  · rintro ⟨w, hbs, hclosed, hlen, hvalue, hlt⟩
    exact ⟨w, hbs, hclosed, hlen, hvalue, hlt⟩

theorem IsWord.length_pos (h : IsWord w n) : 0 < w.length := by
  cases w with
  | nil => exact h.closed.elim
  | cons b w => simp

/-- Octets begin with one word at most. -/
theorem IsWord.unique {w' rest' : Bytes} {n' : Nat} (h : IsWord w n) (h' : IsWord w' n')
    (heq : w ++ rest = w' ++ rest') : w = w' ∧ n = n' ∧ rest = rest' := by
  have hread : word (w ++ rest) = some (n, rest) := word_iff.2 ⟨w, rfl, h⟩
  have hread' : word (w ++ rest) = some (n', rest') := word_iff.2 ⟨w', heq, h'⟩
  obtain ⟨rfl, rfl⟩ := Prod.mk.inj (Option.some.inj (hread.symm.trans hread'))
  exact ⟨List.append_cancel_right heq, rfl, rfl⟩

/-- What is written for a number below the bound that the octets leave. -/
theorem encodeWord_closed (hn : n < 128 ^ fuel) (hfuel : 0 < fuel) :
    IsClosed (encodeWord fuel n) ∧ (encodeWord fuel n).length ≤ fuel ∧ wordValue (encodeWord fuel n) = n := by
  induction fuel generalizing n with
  | zero => omega
  | succ fuel ih =>
    unfold encodeWord
    split
    · rename_i hlt
      have hb : (UInt8.ofNat n).toNat = n := UInt8.toNat_ofNat_of_lt' (by omega : n < 256)
      refine ⟨?_, by simp, ?_⟩
      · simp [IsClosed, hb, hlt]
      · simp only [wordValue, hb]
        omega
    · rename_i hge
      have hpos : 0 < fuel := by
        rcases Nat.eq_zero_or_pos fuel with rfl | h
        · exact absurd hn (by omega)
        · exact h
      have hrest : n / 128 < 128 ^ fuel := by
        rw [Nat.pow_succ] at hn
        exact Nat.div_lt_of_lt_mul (by omega)
      obtain ⟨hclosed, hlen, hvalue⟩ := ih hrest hpos
      have hb : (UInt8.ofNat (128 + n % 128)).toNat = 128 + n % 128 :=
        UInt8.toNat_ofNat_of_lt' (by omega : 128 + n % 128 < 256)
      have hcontinues : ¬ (UInt8.ofNat (128 + n % 128)).toNat < 128 := by omega
      refine ⟨?_, by simpa using hlen, ?_⟩
      · simp only [IsClosed, if_neg hcontinues]
        exact hclosed
      · simp only [wordValue, hb, hvalue]
        omega

/-- **A word is written so that it can be read.** -/
theorem isWord_encodeWord (hn : n < 2 ^ 32) : IsWord (encodeWord 5 n) n := by
  obtain ⟨hclosed, hlen, hvalue⟩ : IsClosed (encodeWord 5 n) ∧ (encodeWord 5 n).length ≤ 5 ∧
      wordValue (encodeWord 5 n) = n := encodeWord_closed (hn.trans (by decide)) (by decide)
  exact ⟨hclosed, hlen, hvalue, hn⟩

/-! ### Custom sections -/

variable {c : Custom} {cs : List Custom}

/-- The octets of a custom section's body: the length of its name, its name and its data. -/
def IsCustom (body : Bytes) (c : Custom) : Prop :=
  ∃ w, IsWord w (Utf8.encode c.name).length ∧ (Utf8.encode c.name).length ≤ maxName ∧
    body = w ++ (Utf8.encode c.name ++ c.data)

theorem custom_iff : custom body = some c ↔ IsCustom body c := by
  constructor
  · intro h
    cases hword : word body with
    | none => simp [custom, hword] at h
    | some found =>
      obtain ⟨len, after⟩ := found
      obtain ⟨w, rfl, hw⟩ := word_iff.1 hword
      simp only [custom, hword, bind, Option.bind] at h
      split at h
      · cases h
      · rename_i hlen
        cases hsplit : Bytes.split? len after with
        | none => simp [hsplit] at h
        | some parts =>
          obtain ⟨title, data⟩ := parts
          obtain ⟨rfl, rfl⟩ := Bytes.split?_iff.1 hsplit
          simp only [hsplit] at h
          split at h
          · rename_i name hname
            cases h
            rw [Utf8.decode_eq_ok_iff] at hname
            exact ⟨w, hname ▸ hw, hname ▸ Nat.le_of_not_lt hlen, by rw [hname]⟩
          · cases h
  · rintro ⟨w, hw, hlen, rfl⟩
    have hword : word (w ++ (Utf8.encode c.name ++ c.data)) =
        some ((Utf8.encode c.name).length, Utf8.encode c.name ++ c.data) := word_iff.2 ⟨w, rfl, hw⟩
    have hsplit : Bytes.split? (Utf8.encode c.name).length (Utf8.encode c.name ++ c.data) =
        some (Utf8.encode c.name, c.data) := Bytes.split?_iff.2 ⟨rfl, rfl⟩
    have hname : Utf8.decode (Utf8.encode c.name) = .ok c.name := Utf8.decode_eq_ok_iff.2 rfl
    simp [custom, hword, hsplit, hname, Nat.not_lt.2 hlen]

/-- **The octets of a custom section**, its sizes written in any way that can be read. -/
def IsCustomSection (octets : Bytes) (c : Custom) : Prop :=
  ∃ w body, IsWord w body.length ∧ IsCustom body c ∧ octets = 0 :: (w ++ body)

/-- **A custom section is written so that it can be read**, if its size can be. -/
theorem isCustomSection_encodeCustom {name : String} {data : Bytes} (hname : (Utf8.encode name).length ≤ maxName)
    (hsize : (Utf8.encode name).length + data.length < 2 ^ 32 - 5) :
    IsCustomSection (encodeCustom name data) ⟨name, data⟩ := by
  have htitle : IsWord (encodeWord 5 (Utf8.encode name).length) (Utf8.encode name).length :=
    isWord_encodeWord (by omega)
  have hlen := htitle.length_le
  refine ⟨_, encodeWord 5 (Utf8.encode name).length ++ Utf8.encode name ++ data, isWord_encodeWord ?_,
    ⟨_, htitle, hname, List.append_assoc _ _ _⟩, rfl⟩
  rw [List.length_append, List.length_append]
  omega

/-! ### The grammar -/

/-- The octets of a header: the mark of binaries, a version and the kind. -/
def IsHeader (opening : Bytes) : Encoding → Prop
  | .plain => ∃ a b, opening = [0x00, 0x61, 0x73, 0x6D, a, b, 0, 0]
  | .nesting => ∃ a b, opening = [0x00, 0x61, 0x73, 0x6D, a, b, 1, 0]

/-- Whether a section holds another binary. -/
def Nests (e : Encoding) (id : UInt8) : Prop := e = .nesting ∧ (id = 1 ∨ id = 4)

/-- What octets are framed as: a binary whose size may be declared, or the sections that are left in one. -/
inductive Part where
  | binary (declared : Option Nat)
  | sections (e : Encoding) (left : Option Nat)

/-- **Which octets are framed**, the custom sections in them, and the room for more sections where they end: as much as
was left of the declared sizes that they have not come to the end of. -/
inductive Frames : Part → Bytes → List Custom → Option Nat → Prop
  | header {declared : Option Nat} {e : Encoding} {opening rest : Bytes} {cs : List Custom} {room : Option Nat}
      (hopening : IsHeader opening e) (hfits : fits declared 8 = true)
      (hrest : Frames (.sections e (declared.map (· - 8))) rest cs room) :
      Frames (.binary declared) (opening ++ rest) cs room
  | done {e : Encoding} {left : Option Nat} : Frames (.sections e left) [] [] left
  | custom {e : Encoding} {left room : Option Nat} {w body rest : Bytes} {c : Custom} {cs : List Custom}
      (hword : IsWord w body.length) (hfits : fits left (1 + w.length + body.length) = true)
      (hcustom : IsCustom body c)
      (hrest : Frames (.sections e (left.map (· - (1 + w.length + body.length)))) rest cs room) :
      Frames (.sections e left) (0 :: (w ++ (body ++ rest))) (c :: cs) room
  | other {e : Encoding} {left room : Option Nat} {id : UInt8} {w body rest : Bytes} {cs : List Custom}
      (hid : id ≠ 0 ∧ id.toNat < 128 ∧ ¬ Nests e id)
      (hword : IsWord w body.length) (hfits : fits left (1 + w.length + body.length) = true)
      (hbody : wellFramed e id.toNat body = true)
      (hrest : Frames (.sections e (left.map (· - (1 + w.length + body.length)))) rest cs room) :
      Frames (.sections e left) (id :: (w ++ (body ++ rest))) cs room
  | nested {e : Encoding} {left room room' : Option Nat} {id : UInt8} {w inner rest : Bytes}
      {cs cs' : List Custom} (hid : Nests e id)
      (hword : IsWord w inner.length) (hfits : fits left (1 + w.length + inner.length) = true)
      (hsize : inner.length ≤ maxNested) (hinner : Frames (.binary (some inner.length)) inner cs room')
      (hrest : Frames (.sections e (left.map (· - (1 + w.length + inner.length)))) rest cs' room) :
      Frames (.sections e left) (id :: (w ++ (inner ++ rest))) (cs ++ cs') room
  /-- The octets end inside a nested binary, before its declared size is reached. -/
  | cut {e : Encoding} {left room : Option Nat} {id : UInt8} {size : Nat} {w inner : Bytes} {cs : List Custom}
      (hid : Nests e id) (hword : IsWord w size) (hfits : fits left (1 + w.length + size) = true)
      (hsize : size ≤ maxNested) (hshort : inner.length < size)
      (hinner : Frames (.binary (some size)) inner cs room) :
      Frames (.sections e left) (id :: (w ++ inner)) cs room

/-! ### The reader -/

theorem Nests.id_lt {id : UInt8} {e : Encoding} (h : Nests e id) : id ≠ 0 ∧ id.toNat < 128 := by
  obtain ⟨-, rfl | rfl⟩ := h <;> decide

variable {opening : Bytes} {id : UInt8} {left room : Option Nat} {part : Part}

theorem header_iff : header bs = some (e, rest) ↔ ∃ opening, IsHeader opening e ∧ bs = opening ++ rest := by
  constructor
  · intro h
    unfold header at h
    split at h
    · obtain ⟨rfl, rfl⟩ := Prod.mk.inj (Option.some.inj h)
      exact ⟨_, ⟨_, _, rfl⟩, rfl⟩
    · obtain ⟨rfl, rfl⟩ := Prod.mk.inj (Option.some.inj h)
      exact ⟨_, ⟨_, _, rfl⟩, rfl⟩
    · cases h
  · rintro ⟨opening, hopening, rfl⟩
    cases e with
    | plain => obtain ⟨a, b, rfl⟩ := hopening; rfl
    | nesting => obtain ⟨a, b, rfl⟩ := hopening; rfl

theorem IsHeader.length (h : IsHeader opening e) : opening.length = 8 := by
  cases e with
  | plain => obtain ⟨a, b, rfl⟩ := h; rfl
  | nesting => obtain ⟨a, b, rfl⟩ := h; rfl

/-- A binary is read as its header and its sections. -/
theorem binary_iff : binary (fuel + 1) left bs = some cs ↔ ∃ opening e rest, bs = opening ++ rest ∧
    IsHeader opening e ∧ fits left 8 = true ∧ sections fuel e (left.map (· - 8)) rest = some cs := by
  constructor
  · intro h
    cases hheader : header bs with
    | none => simp [binary, hheader] at h
    | some found =>
      obtain ⟨e, rest⟩ := found
      obtain ⟨opening, hopening, hbs⟩ := header_iff.1 hheader
      simp only [binary, hheader, bind, Option.bind] at h
      split at h
      · rename_i hfits
        exact ⟨opening, e, rest, hbs, hopening, hfits, h⟩
      · cases h
  · rintro ⟨opening, e, rest, hbs, hopening, hfits, h⟩
    have hheader : header bs = some (e, rest) := header_iff.2 ⟨opening, hopening, hbs⟩
    simp [binary, hheader, hfits, h]

/-- **What is read first of the sections that are left**: a word for the size, and then by the identifier. -/
theorem sections_cons_iff : sections (fuel + 1) e left (id :: bs) = some cs ↔
    ∃ w size rest, bs = w ++ rest ∧ IsWord w size ∧ id.toNat < 128 ∧ fits left (1 + w.length + size) = true ∧
      ((id = 0 ∧ ∃ body more c cs', rest = body ++ more ∧ body.length = size ∧ IsCustom body c ∧
          sections fuel e (left.map (· - (1 + w.length + size))) more = some cs' ∧ cs = c :: cs') ∨
        (id ≠ 0 ∧ Nests e id ∧ size ≤ maxNested ∧ ∃ inner cs',
          binary fuel (some size) (rest.take size) = some inner ∧
          sections fuel e (left.map (· - (1 + w.length + size))) (rest.drop size) = some cs' ∧ cs = inner ++ cs') ∨
        (id ≠ 0 ∧ ¬ Nests e id ∧ ∃ body more, rest = body ++ more ∧ body.length = size ∧
          wellFramed e id.toNat body = true ∧
          sections fuel e (left.map (· - (1 + w.length + size))) more = some cs)) := by
  have htaken : ∀ w rest : Bytes, 1 + ((w ++ rest).length - rest.length) = 1 + w.length := by
    intro w rest
    rw [List.length_append]
    omega
  constructor
  · intro h
    cases hword : word bs with
    | none => simp [sections, hword] at h
    | some found =>
      obtain ⟨size, rest⟩ := found
      obtain ⟨w, rfl, hw⟩ := word_iff.1 hword
      simp only [sections, hword, bind, Option.bind, htaken] at h
      split at h
      · cases h
      rename_i hguard
      simp only [ge_iff_le, Bool.not_eq_true', not_or, Nat.not_le, Bool.not_eq_false] at hguard
      refine ⟨w, size, rest, rfl, hw, hguard.1, hguard.2, ?_⟩
      split at h
      · rename_i hzero
        cases hsplit : Bytes.split? size rest with
        | none => simp [hsplit] at h
        | some parts =>
          obtain ⟨body, more⟩ := parts
          obtain ⟨hrest, hlen⟩ := Bytes.split?_iff.1 hsplit
          cases hcustom : custom body with
          | none => simp [hsplit, hcustom] at h
          | some c =>
            cases hmore : sections fuel e (left.map (· - (1 + w.length + size))) more with
            | none => simp [hsplit, hcustom, hmore] at h
            | some cs' =>
              have heq : c :: cs' = cs := by simpa [hsplit, hcustom, hmore] using h
              exact .inl ⟨hzero, body, more, c, cs', hrest, hlen, custom_iff.1 hcustom, hmore, heq.symm⟩
      · rename_i hzero
        split at h
        · rename_i hnests
          split at h
          · cases h
          · rename_i hsize
            cases hinner : binary fuel (some size) (rest.take size) with
            | none => simp [hinner] at h
            | some inner =>
              cases hmore : sections fuel e (left.map (· - (1 + w.length + size))) (rest.drop size) with
              | none => simp [hinner, hmore] at h
              | some cs' =>
                have heq : inner ++ cs' = cs := by simpa [hinner, hmore] using h
                exact .inr (.inl ⟨hzero, hnests, Nat.le_of_not_lt hsize, inner, cs', rfl, rfl, heq.symm⟩)
        · rename_i hnests
          cases hsplit : Bytes.split? size rest with
          | none => simp [hsplit] at h
          | some parts =>
            obtain ⟨body, more⟩ := parts
            obtain ⟨hrest, hlen⟩ := Bytes.split?_iff.1 hsplit
            simp only [hsplit] at h
            split at h
            · rename_i hbody
              exact .inr (.inr ⟨hzero, hnests, body, more, hrest, hlen, hbody, h⟩)
            · cases h
  · rintro ⟨w, size, rest, rfl, hw, hid, hfits, hcase⟩
    have hword : word (w ++ rest) = some (size, rest) := word_iff.2 ⟨w, rfl, hw⟩
    have hguard : ¬ (id.toNat ≥ 128 ∨ (!fits left (1 + w.length + size)) = true) := by
      simp [Nat.not_le.2 hid, hfits]
    simp only [sections, hword, bind, Option.bind, htaken, if_neg hguard]
    rcases hcase with ⟨rfl, body, more, c, cs', rfl, rfl, hcustom, hmore, rfl⟩ |
        ⟨hzero, hnests, hsize, inner, cs', hinner, hmore, rfl⟩ |
        ⟨hzero, hnests, body, more, rfl, rfl, hbody, hmore⟩
    · have hsplit : Bytes.split? body.length (body ++ more) = some (body, more) := Bytes.split?_iff.2 ⟨rfl, rfl⟩
      simp [hsplit, custom_iff.2 hcustom, hmore]
    · obtain ⟨rfl, hkind⟩ := hnests
      simp [hzero, hkind, Nat.not_lt.2 hsize, hinner, hmore]
    · have hsplit : Bytes.split? body.length (body ++ more) = some (body, more) := Bytes.split?_iff.2 ⟨rfl, rfl⟩
      have hnests' : ¬ (e = .nesting ∧ (id = 1 ∨ id = 4)) := hnests
      simp [hzero, hnests', hsplit, hbody, hmore]

/-- Where sections are read to their end, the octets are framed so. -/
theorem frames_of_read :
    (∀ left bs cs, binary fuel left bs = some cs → ∃ room, Frames (.binary left) bs cs room) ∧
    ∀ e left bs cs, sections fuel e left bs = some cs → ∃ room, Frames (.sections e left) bs cs room := by
  induction fuel with
  | zero =>
    refine ⟨fun left bs cs h => ?_, fun e left bs cs h => ?_⟩
    · simp [binary] at h
    · simp [sections] at h
  | succ fuel ih =>
    obtain ⟨hbinary, hsections⟩ := ih
    refine ⟨fun left bs cs h => ?_, fun e left bs cs h => ?_⟩
    · obtain ⟨opening, e, rest, rfl, hopening, hfits, hrest⟩ := binary_iff.1 h
      obtain ⟨room, hframes⟩ := hsections _ _ _ _ hrest
      exact ⟨room, .header hopening hfits hframes⟩
    · cases bs with
      | nil =>
        have hcs : [] = cs := by simpa [sections] using h
        exact ⟨left, hcs ▸ .done⟩
      | cons id bs =>
        obtain ⟨w, size, rest, rfl, hw, hid, hfits, hcase⟩ := sections_cons_iff.1 h
        rcases hcase with ⟨rfl, body, more, c, cs', rfl, rfl, hcustom, hmore, rfl⟩ |
            ⟨hzero, hnests, hsize, inner, cs', hinner, hmore, rfl⟩ |
            ⟨hzero, hnests, body, more, rfl, rfl, hbody, hmore⟩
        · obtain ⟨room, hframes⟩ := hsections _ _ _ _ hmore
          exact ⟨room, .custom hw hfits hcustom hframes⟩
        · obtain ⟨room', hinner⟩ := hbinary _ _ _ hinner
          obtain ⟨room, hframes⟩ := hsections _ _ _ _ hmore
          rcases Nat.lt_or_ge rest.length size with hshort | hwhole
          · rw [List.take_of_length_le hshort.le] at hinner
            rw [List.drop_of_length_le hshort.le] at hframes
            cases hframes
            rw [List.append_nil]
            exact ⟨room', .cut hnests hw hfits hsize hshort hinner⟩
          · obtain ⟨front, back, rfl, rfl⟩ : ∃ front back, rest = front ++ back ∧ front.length = size :=
              ⟨rest.take size, rest.drop size, (List.take_append_drop _ _).symm, List.length_take_of_le hwhole⟩
            rw [List.take_left] at hinner
            rw [List.drop_left] at hframes
            exact ⟨room, .nested hnests hw hfits hsize hinner hframes⟩
        · obtain ⟨room, hframes⟩ := hsections _ _ _ _ hmore
          exact ⟨room, .other ⟨hzero, hid, hnests⟩ hw hfits hbody hframes⟩

/-- The fuel that it takes to read a part. -/
def Part.work (bs : Bytes) : Part → Nat
  | .binary _ => 2 * bs.length + 2
  | .sections .. => 2 * bs.length + 1

/-- What reads a part. -/
def Part.read (fuel : Nat) (bs : Bytes) : Part → Option (List Custom)
  | .binary declared => Section.binary fuel declared bs
  | .sections e left => Section.sections fuel e left bs

theorem Part.exists_succ (h : part.work bs ≤ fuel) : ∃ more, fuel = more + 1 := by
  refine ⟨fuel - 1, ?_⟩
  cases part <;> simp only [Part.work] at h <;> omega

/-- **What is framed is read**, with fuel enough for its octets. -/
theorem Frames.read (h : Frames part bs cs room) (hfuel : part.work bs ≤ fuel) : part.read fuel bs = some cs := by
  induction h generalizing fuel with
  | @header declared e opening rest cs room hopening hfits _ ih =>
    obtain ⟨fuel, rfl⟩ := Part.exists_succ hfuel
    refine binary_iff.2 ⟨opening, e, rest, rfl, hopening, hfits, ih ?_⟩
    simp only [Part.work, List.length_append, hopening.length] at hfuel ⊢
    omega
  | done =>
    obtain ⟨fuel, rfl⟩ := Part.exists_succ hfuel
    simp [Part.read, sections]
  | @custom e left room w body rest c cs hword hfits hcustom _ ih =>
    obtain ⟨fuel, rfl⟩ := Part.exists_succ hfuel
    refine sections_cons_iff.2 ⟨w, _, _, rfl, hword, by decide, hfits, .inl
      ⟨rfl, body, rest, c, cs, rfl, rfl, hcustom, ih ?_, rfl⟩⟩
    simp only [Part.work, List.length_append, List.length_cons] at hfuel ⊢
    omega
  | @other e left room id w body rest cs hid hword hfits hbody _ ih =>
    obtain ⟨fuel, rfl⟩ := Part.exists_succ hfuel
    refine sections_cons_iff.2 ⟨w, _, _, rfl, hword, hid.2.1, hfits, .inr (.inr
      ⟨hid.1, hid.2.2, body, rest, rfl, rfl, hbody, ih ?_⟩)⟩
    simp only [Part.work, List.length_append, List.length_cons] at hfuel ⊢
    omega
  | @nested e left room room' id w inner rest cs cs' hid hword hfits hsize _ _ ih ih' =>
    obtain ⟨fuel, rfl⟩ := Part.exists_succ hfuel
    have hpos := hword.length_pos
    simp only [Part.work, List.length_append, List.length_cons] at hfuel ih ih'
    refine sections_cons_iff.2 ⟨w, _, _, rfl, hword, hid.id_lt.2, hfits, .inr (.inl
      ⟨hid.id_lt.1, hid, hsize, cs, cs', ?_, ?_, rfl⟩)⟩
    · rw [List.take_left]
      exact ih (by omega)
    · rw [List.drop_left]
      exact ih' (by omega)
  | @cut e left room id size w inner cs hid hword hfits hsize hshort _ ih =>
    obtain ⟨fuel, rfl⟩ := Part.exists_succ hfuel
    have hpos := hword.length_pos
    simp only [Part.work, List.length_append, List.length_cons] at hfuel ih
    refine sections_cons_iff.2 ⟨w, _, _, rfl, hword, hid.id_lt.2, hfits, .inr (.inl
      ⟨hid.id_lt.1, hid, hsize, cs, [], ?_, ?_, (List.append_nil cs).symm⟩)⟩
    · rw [List.take_of_length_le hshort.le]
      exact ih (by omega)
    · rw [List.drop_of_length_le hshort.le]
      obtain ⟨fuel, rfl⟩ : ∃ more, fuel = more + 1 := ⟨fuel - 1, by omega⟩
      simp [sections]

/-- **The reader accepts exactly what is framed**, and finds the custom sections in it. -/
theorem customSections_iff : customSections bs = some cs ↔ ∃ room, Frames (.binary none) bs cs room := by
  constructor
  · intro h
    exact frames_of_read.1 none bs cs h
  · rintro ⟨room, h⟩
    have hread : Part.read (2 * bs.length + 2) bs (.binary none) = some cs := h.read (le_refl _)
    exact hread

/-! ### Room for more -/

theorem fits_some {size l : Nat} : fits (some l) size = true ↔ size ≤ l := by
  simp [fits]

/-- The size that bounds a part, if one does. -/
def Part.bound : Part → Option Nat
  | .binary declared => declared
  | .sections _ left => left

/-- **The room that is left in a part with a bound** keeps to it, and there is some unless the bound is reached. -/
theorem Frames.room_of_bound {l : Nat} (h : Frames part bs cs room) (hl : part.bound = some l) :
    ∃ r, room = some r ∧ bs.length + r ≤ l ∧ (bs.length < l → 0 < r) := by
  induction h generalizing l with
  | @header declared e opening rest cs room hopening hfits _ ih =>
    obtain rfl : declared = some l := hl
    obtain ⟨r, rfl, hle, hpos⟩ := ih (l := l - 8) rfl
    have h8 := fits_some.1 hfits
    refine ⟨r, rfl, ?_, ?_⟩ <;> rw [List.length_append, hopening.length] <;> omega
  | @done e left =>
    obtain rfl : left = some l := hl
    exact ⟨l, rfl, by simp, by simp⟩
  | @custom e left room w body rest c cs hword hfits hcustom _ ih =>
    obtain rfl : left = some l := hl
    obtain ⟨r, rfl, hle, hpos⟩ := ih (l := l - _) rfl
    have htaken := fits_some.1 hfits
    refine ⟨r, rfl, ?_, ?_⟩ <;> simp only [List.length_cons, List.length_append] <;> omega
  | @other e left room id w body rest cs hid hword hfits hbody _ ih =>
    obtain rfl : left = some l := hl
    obtain ⟨r, rfl, hle, hpos⟩ := ih (l := l - _) rfl
    have htaken := fits_some.1 hfits
    refine ⟨r, rfl, ?_, ?_⟩ <;> simp only [List.length_cons, List.length_append] <;> omega
  | @nested e left room room' id w inner rest cs cs' hid hword hfits hsize _ _ _ ih =>
    obtain rfl : left = some l := hl
    obtain ⟨r, rfl, hle, hpos⟩ := ih (l := l - _) rfl
    have htaken := fits_some.1 hfits
    refine ⟨r, rfl, ?_, ?_⟩ <;> simp only [List.length_cons, List.length_append] <;> omega
  | @cut e left room id size w inner cs hid hword hfits hsize hshort _ ih =>
    obtain rfl : left = some l := hl
    obtain ⟨r, rfl, hle, hpos⟩ := ih rfl
    have htaken := fits_some.1 hfits
    refine ⟨r, rfl, ?_, ?_⟩ <;> simp only [List.length_cons, List.length_append] <;> omega

/-- There is an end to the room only inside a nested binary that is not complete, and then there is some. -/
theorem Frames.room_pos (h : Frames part bs cs room) (hl : part.bound = none) : ∀ r ∈ room, 0 < r := by
  induction h with
  | header _ _ _ ih =>
    cases hl
    exact ih rfl
  | done =>
    cases hl
    simp
  | custom _ _ _ _ ih =>
    cases hl
    exact ih rfl
  | other _ _ _ _ _ ih =>
    cases hl
    exact ih rfl
  | nested _ _ _ _ _ _ _ ih =>
    cases hl
    exact ih rfl
  | cut _ _ _ _ hshort hinner =>
    obtain ⟨r, rfl, -, hpos⟩ := hinner.room_of_bound rfl
    intro r' hr'
    cases hr'
    exact hpos hshort

/-- **A custom section may follow wherever there is room for it.** -/
theorem Frames.append_custom {octets : Bytes} {c : Custom} (h : Frames part bs cs room)
    (hoctets : IsCustomSection octets c) (hroom : ∀ r ∈ room, octets.length ≤ r) :
    ∃ room', Frames part (bs ++ octets) (cs ++ [c]) room' := by
  induction h with
  | @header declared e opening rest cs room hopening hfits _ ih =>
    obtain ⟨room', hframes⟩ := ih hroom
    rw [List.append_assoc]
    exact ⟨room', .header hopening hfits hframes⟩
  | @done e left =>
    obtain ⟨w, body, hword, hcustom, rfl⟩ := hoctets
    have hfits : fits left (1 + w.length + body.length) = true := by
      cases left with
      | none => rfl
      | some l =>
        have hle := hroom l rfl
        simp only [List.length_cons, List.length_append] at hle
        exact fits_some.2 (by omega)
    have hframes : Frames (.sections e left) (0 :: (w ++ (body ++ []))) [c] _ := .custom hword hfits hcustom .done
    rw [List.append_nil] at hframes
    exact ⟨_, hframes⟩
  | @custom e left room w body rest c cs hword hfits hcustom _ ih =>
    obtain ⟨room', hframes⟩ := ih hroom
    refine ⟨room', ?_⟩
    have hmore := Frames.custom hword hfits hcustom hframes
    simpa using hmore
  | @other e left room id w body rest cs hid hword hfits hbody _ ih =>
    obtain ⟨room', hframes⟩ := ih hroom
    refine ⟨room', ?_⟩
    have hmore := Frames.other hid hword hfits hbody hframes
    simpa using hmore
  | @nested e left room room' id w inner rest cs cs' hid hword hfits hsize hinner _ _ ih =>
    obtain ⟨room'', hframes⟩ := ih hroom
    refine ⟨room'', ?_⟩
    have hmore := Frames.nested hid hword hfits hsize hinner hframes
    simpa using hmore
  | @cut e left room id size w inner cs hid hword hfits hsize hshort hinner ih =>
    obtain ⟨room', hframes⟩ := ih hroom
    obtain ⟨r, hr, hle, -⟩ := hinner.room_of_bound rfl
    have hlen := hroom r hr
    rw [List.cons_append, List.append_assoc]
    rcases Nat.lt_or_ge (inner ++ octets).length size with hlt | hge
    · exact ⟨room', .cut hid hword hfits hsize hlt hframes⟩
    · -- the section takes all the room that there is
      obtain rfl : size = (inner ++ octets).length := by rw [List.length_append] at hge ⊢; omega
      have hmore := Frames.nested hid hword hfits hsize hframes .done
      rw [List.append_nil, List.append_nil] at hmore
      exact ⟨_, hmore⟩

theorem IsHeader.unique {opening' rest' : Bytes} {e' : Encoding} (h : IsHeader opening e) (h' : IsHeader opening' e')
    (heq : opening ++ rest = opening' ++ rest') : e = e' ∧ rest = rest' := by
  have hread : header (opening ++ rest) = some (e, rest) := header_iff.2 ⟨opening, h, rfl⟩
  have hread' : header (opening ++ rest) = some (e', rest') := header_iff.2 ⟨opening', h', heq⟩
  exact Prod.mk.inj (Option.some.inj (hread.symm.trans hread'))

theorem Frames.room_of_plain_sections (h : Frames (.sections .plain none) bs cs room) : room = none := by
  generalize hpart : Part.sections .plain none = part at h
  induction h with
  | header => cases hpart
  | done =>
    cases hpart
    rfl
  | custom _ _ _ _ ih =>
    cases hpart
    exact ih rfl
  | other _ _ _ _ _ ih =>
    cases hpart
    exact ih rfl
  | nested hid =>
    cases hpart
    cases hid.1
  | cut hid =>
    cases hpart
    cases hid.1

/-- There is no end to the room of a binary that nests nothing. -/
theorem Frames.room_of_plain (h : Frames (.binary none) bs cs room) (hopening : IsHeader opening .plain)
    (hbs : bs = opening ++ rest) : room = none := by
  cases h with
  | header hopening' _ hrest =>
    obtain ⟨rfl, rfl⟩ := hopening.unique hopening' hbs.symm
    exact hrest.room_of_plain_sections

/-- Sections that are framed begin with a size, and what follows it depends on the identifier. -/
theorem Frames.of_cons {after : Bytes} (h : Frames (.sections e left) (id :: after) cs room) :
    ∃ w size rest, after = w ++ rest ∧ IsWord w size ∧ fits left (1 + w.length + size) = true ∧
      ((¬ Nests e id ∧ ∃ body more cs', rest = body ++ more ∧ body.length = size ∧
          Frames (.sections e (left.map (· - (1 + w.length + size)))) more cs' room) ∨
        (Nests e id ∧ ∃ inner more cs₁ cs₂ room', rest = inner ++ more ∧ inner.length = size ∧
          Frames (.binary (some size)) inner cs₁ room' ∧
          Frames (.sections e (left.map (· - (1 + w.length + size)))) more cs₂ room) ∨
        (Nests e id ∧ rest.length < size ∧ Frames (.binary (some size)) rest cs room)) := by
  cases h with
  | @custom _ _ _ w body rest c cs hword hfits hcustom hrest =>
    refine ⟨w, _, _, rfl, hword, hfits, .inl ⟨?_, body, rest, cs, rfl, rfl, hrest⟩⟩
    exact fun hnests => hnests.id_lt.1 rfl
  | @other _ _ _ _ w body rest cs hid hword hfits hbody hrest =>
    exact ⟨w, _, _, rfl, hword, hfits, .inl ⟨hid.2.2, body, rest, cs, rfl, rfl, hrest⟩⟩
  | @nested _ _ _ room' _ w inner rest cs cs' hid hword hfits hsize hinner hrest =>
    exact ⟨w, _, _, rfl, hword, hfits, .inr (.inl ⟨hid, inner, rest, cs, cs', room', rfl, rfl, hinner, hrest⟩)⟩
  | @cut _ _ _ _ size w inner cs hid hword hfits hsize hshort hinner =>
    exact ⟨w, size, inner, rfl, hword, hfits, .inr (.inr ⟨hid, hshort, hinner⟩)⟩

/-- After an identifier and a size, sections that are framed go on with a body or with another binary. -/
theorem Frames.of_word {size : Nat} (h : Frames (.sections e left) (id :: (w ++ rest)) cs room)
    (hword : IsWord w size) :
    (¬ Nests e id ∧ ∃ body more cs', rest = body ++ more ∧ body.length = size ∧
        Frames (.sections e (left.map (· - (1 + w.length + size)))) more cs' room) ∨
      (Nests e id ∧ ∃ inner more cs₁ cs₂ room', rest = inner ++ more ∧ inner.length = size ∧
        Frames (.binary (some size)) inner cs₁ room' ∧
        Frames (.sections e (left.map (· - (1 + w.length + size)))) more cs₂ room) ∨
      (Nests e id ∧ rest.length < size ∧ Frames (.binary (some size)) rest cs room) := by
  obtain ⟨w', size', rest', heq, hword', -, hcase⟩ := h.of_cons
  obtain ⟨rfl, rfl, rfl⟩ := hword.unique hword' heq
  exact hcase

/-- **Where there is not enough room for a section, nothing of it may follow**, if it is more than fits. -/
theorem Frames.not_append {octets more : Bytes} {c : Custom} {r : Nat} (h : Frames part bs cs room)
    (hroom : room = some r) (hr : 0 < r) (hoctets : IsCustomSection octets c) (hlong : r < octets.length)
    (hmore : more <+: octets) (hlen : r ≤ more.length) : ∀ cs' room', ¬ Frames part (bs ++ more) cs' room' := by
  induction h generalizing more with
  | @header declared e opening rest cs room hopening hfits _ ih =>
    intro cs' room' h'
    generalize hx : opening ++ rest ++ more = x at h'
    cases h' with
    | header hopening' hfits' hrest' =>
      rw [List.append_assoc] at hx
      obtain ⟨rfl, rfl⟩ := hopening.unique hopening' hx
      exact ih hroom hmore hlen _ _ hrest'
  | @done e left =>
    intro cs' room' h'
    obtain ⟨w, body, hword, -, rfl⟩ := hoctets
    obtain ⟨rest, hrest⟩ := hmore
    cases more with
    | nil => simp at hlen; omega
    | cons b more =>
      obtain ⟨rfl, htail⟩ := List.cons.inj hrest
      obtain ⟨w', size, after, rfl, hword', hfits, -⟩ := h'.of_cons
      obtain ⟨rfl, rfl, -⟩ := hword'.unique hword ((List.append_assoc _ _ _).symm.trans htail)
      rw [hroom, fits_some] at hfits
      simp only [List.length_cons, List.length_append] at hlong
      omega
  | @custom e left room w body rest c cs hword hfits hcustom _ ih =>
    intro cs' room' h'
    rw [List.cons_append, List.append_assoc, List.append_assoc] at h'
    rcases h'.of_word hword with ⟨-, body', more', cs'', heq', hlen', hrest'⟩ | ⟨hnests, -⟩ | ⟨hnests, -⟩
    · obtain ⟨rfl, rfl⟩ := List.append_inj heq' hlen'.symm
      exact ih hroom hmore hlen _ _ hrest'
    · exact hnests.id_lt.1 rfl
    · exact hnests.id_lt.1 rfl
  | @other e left room id w body rest cs hid hword hfits hbody _ ih =>
    intro cs' room' h'
    rw [List.cons_append, List.append_assoc, List.append_assoc] at h'
    rcases h'.of_word hword with ⟨-, body', more', cs'', heq', hlen', hrest'⟩ | ⟨hnests, -⟩ | ⟨hnests, -⟩
    · obtain ⟨rfl, rfl⟩ := List.append_inj heq' hlen'.symm
      exact ih hroom hmore hlen _ _ hrest'
    · exact hid.2.2 hnests
    · exact hid.2.2 hnests
  | @nested e left room room₁ id w inner rest cs₁ cs₂ hid hword hfits hsize hinner _ _ ih =>
    intro cs' room' h'
    rw [List.cons_append, List.append_assoc, List.append_assoc] at h'
    rcases h'.of_word hword with
      ⟨hnot, -⟩ | ⟨-, inner', more', cs₃, cs₄, room₃, heq', hlen', -, hrest'⟩ | ⟨-, hshort, -⟩
    · exact hnot hid
    · obtain ⟨rfl, rfl⟩ := List.append_inj heq' hlen'.symm
      exact ih hroom hmore hlen _ _ hrest'
    · simp only [List.length_append] at hshort
      omega
  | @cut e left room id size w inner cs hid hword hfits hsize hshort hinner ih =>
    intro cs' room' h'
    rw [List.cons_append, List.append_assoc] at h'
    rcases h'.of_word hword with
      ⟨hnot, -⟩ | ⟨-, inner', more', cs₃, cs₄, room₃, heq', hlen', hinner', -⟩ | ⟨-, -, hinner'⟩
    · exact hnot hid
    · -- the nested binary takes of what follows as much as it has room for, and the section is longer
      obtain ⟨r', hr', hle, -⟩ := hinner.room_of_bound rfl
      obtain rfl : r' = r := Option.some.inj (hr'.symm.trans hroom)
      obtain ⟨front, rfl, hback⟩ : ∃ front, inner' = inner ++ front ∧ more = front ++ more' := by
        obtain ⟨front, hi, hm⟩ | ⟨front, hi, hm⟩ := List.append_eq_append_iff.1 heq'
        · exact ⟨front, hi, hm⟩
        · have hzero : front = [] := by
            have hsum := congrArg List.length hi
            rw [List.length_append] at hsum
            exact List.length_eq_zero_iff.1 (by omega)
          rw [hzero, List.append_nil] at hi
          exact ⟨[], by rw [hi, List.append_nil], by simp [hm, hzero]⟩
      rw [List.length_append] at hlen'
      exact ih hroom ((List.prefix_append front more').trans (hback ▸ hmore)) (by omega) _ _ hinner'
    · exact ih hroom hmore hlen _ _ hinner'

end Section

end FlowHost
