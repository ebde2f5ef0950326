import FlowHost.Bytes

/-!
# UTF-8

Encoding text as octets, and the two ways of reading octets as text: strictly,
with the place and kind of the first fault, and leniently, where every maximal
ill-formed piece becomes one replacement character.

* `next`: the first character of a byte string, or how much of it is faulty.
* `decode`: strict reading.
* `decodeLossy`: lenient reading.
-/

namespace FlowHost.Utf8

/-- The octets of one character. -/
def encodeChar (c : Char) : Bytes :=
  let v := c.toNat
  if v < 0x80 then [UInt8.ofNat v]
  else if v < 0x800 then [UInt8.ofNat (0xC0 + v / 64), UInt8.ofNat (0x80 + v % 64)]
  else if v < 0x10000 then
    [UInt8.ofNat (0xE0 + v / 4096), UInt8.ofNat (0x80 + v / 64 % 64), UInt8.ofNat (0x80 + v % 64)]
  else
    [UInt8.ofNat (0xF0 + v / 262144), UInt8.ofNat (0x80 + v / 4096 % 64),
      UInt8.ofNat (0x80 + v / 64 % 64), UInt8.ofNat (0x80 + v % 64)]

/-- The octets of a list of characters. -/
def encodeChars (cs : List Char) : Bytes := cs.flatMap encodeChar

/-- The octets of a text. -/
def encode (text : String) : Bytes := encodeChars text.toList

/-- The number of octets of one character. -/
def width (c : Char) : Nat :=
  if c.toNat < 0x80 then 1 else if c.toNat < 0x800 then 2 else if c.toNat < 0x10000 then 3 else 4

theorem length_encodeChar (c : Char) : (encodeChar c).length = width c := by
  unfold encodeChar width
  simp only
  split
  · rfl
  · split
    · rfl
    · split <;> rfl

theorem width_pos (c : Char) : 0 < width c := by
  unfold width
  split
  · decide
  · split
    · decide
    · split <;> decide

/-- What a byte string starts with: nothing, a character and the rest, a fault whose
ill-formed part has the given length, or a character cut off by the end. -/
inductive Head where
  | done
  | char (c : Char) (rest : Bytes)
  | invalid (length : Nat)
  | incomplete
  deriving DecidableEq, Repr

/-- The octets that may follow a lead octet directly; later ones are `80` to `BF`. -/
def secondRange (lead : Nat) : Nat × Nat :=
  if lead = 0xE0 then (0xA0, 0xBF)
  else if lead = 0xED then (0x80, 0x9F)
  else if lead = 0xF0 then (0x90, 0xBF)
  else if lead = 0xF4 then (0x80, 0x8F)
  else (0x80, 0xBF)

/-- Whether an octet lies in a range. -/
def within (range : Nat × Nat) (b : UInt8) : Bool :=
  decide (range.1 ≤ b.toNat) && decide (b.toNat ≤ range.2)

/-- The octets that continue a character after its second one. -/
def tailRange : Nat × Nat := (0x80, 0xBF)

/-- **The first character of a byte string.** A lead octet fixes how many octets belong to
the character and what the second may be; a fault counts the octets that were still right. -/
def next : Bytes → Head
  | [] => .done
  | a :: rest =>
    let lead := a.toNat
    if lead < 0x80 then .char (Char.ofNat lead) rest
    else if lead < 0xC2 ∨ 0xF4 < lead then .invalid 1
    else
      match rest with
      | [] => .incomplete
      | b :: rest =>
        if !within (secondRange lead) b then .invalid 1
        else if lead < 0xE0 then
          .char (Char.ofNat ((lead - 0xC0) * 64 + (b.toNat - 0x80))) rest
        else
          match rest with
          | [] => .incomplete
          | c :: rest =>
            if !within tailRange c then .invalid 2
            else if lead < 0xF0 then
              .char (Char.ofNat
                ((lead - 0xE0) * 4096 + (b.toNat - 0x80) * 64 + (c.toNat - 0x80))) rest
            else
              match rest with
              | [] => .incomplete
              | d :: rest =>
                if !within tailRange d then .invalid 3
                else
                  .char (Char.ofNat
                    ((lead - 0xF0) * 262144 + (b.toNat - 0x80) * 4096 +
                      (c.toNat - 0x80) * 64 + (d.toNat - 0x80))) rest

theorem length_rest_of_next {bs rest : Bytes} {c : Char} (h : next bs = .char c rest) :
    rest.length < bs.length := by
  unfold next at h
  split at h
  · simp at h
  · simp only at h
    split at h
    · injection h with _ hr; subst hr; simp
    · split at h
      · simp at h
      · split at h
        · simp at h
        · split at h
          · simp at h
          · split at h
            · injection h with _ hr; subst hr; simp only [List.length_cons]; omega
            · split at h
              · simp at h
              · split at h
                · simp at h
                · split at h
                  · injection h with _ hr; subst hr; simp only [List.length_cons]; omega
                  · split at h
                    · simp at h
                    · split at h
                      · simp at h
                      · injection h with _ hr; subst hr; simp only [List.length_cons]; omega

/-- Where and how a byte string first fails to be UTF-8. An absent length says that the
text ends inside a character. -/
structure Fault where
  /-- The number of octets before the fault. -/
  validUpTo : Nat
  /-- The number of ill-formed octets. -/
  length : Option Nat
  deriving DecidableEq, Repr

/-- The sentence that reports a fault. -/
def Fault.message (fault : Fault) : String :=
  match fault.length with
  | some n => s!"invalid utf-8 sequence of {n} bytes from index {fault.validUpTo}"
  | none => s!"incomplete utf-8 byte sequence from index {fault.validUpTo}"

/-- Strict reading from an offset, with the characters read so far in reverse. -/
def decodeFrom (offset : Nat) (acc : List Char) (bs : Bytes) : Except Fault (List Char) :=
  match h : next bs with
  | .done => .ok acc.reverse
  | .char c rest =>
    have : rest.length < bs.length := length_rest_of_next h
    decodeFrom (offset + width c) (c :: acc) rest
  | .invalid n => .error ⟨offset, some n⟩
  | .incomplete => .error ⟨offset, none⟩
  termination_by bs.length

/-- **Strict reading**: the text that a byte string encodes, or its first fault. -/
def decode (bs : Bytes) : Except Fault String :=
  (decodeFrom 0 [] bs).map String.ofList

/-- The replacement character. -/
def replacement : Char := Char.ofNat 0xFFFD

theorem length_drop_lt (bs : Bytes) (n : Nat) : (bs.drop n).length < bs.length + 1 := by
  simp only [List.length_drop]; omega

/-- Lenient reading, with the characters read so far in reverse. -/
def decodeLossyFrom (acc : List Char) (bs : Bytes) : List Char :=
  match h : next bs with
  | .done => acc.reverse
  | .char c rest => decodeLossyFrom (c :: acc) rest
  | .invalid n =>
    match bs with
    | [] => acc.reverse
    | _ :: rest => decodeLossyFrom (replacement :: acc) (rest.drop (n - 1))
  | .incomplete => (replacement :: acc).reverse
  termination_by bs.length
  decreasing_by
    · exact length_rest_of_next h
    · exact length_drop_lt _ _

/-- **Lenient reading**: each maximal ill-formed piece becomes one replacement character. -/
def decodeLossy (bs : Bytes) : String := String.ofList (decodeLossyFrom [] bs)

/-- The number of octets of a text. -/
def size (text : String) : Nat := text.toList.foldl (fun octets c => octets + width c) 0

/-- The octets in the longest run of leading characters that takes at most `capacity`. -/
def fitting : List Char → Nat → Nat
  | [], _ => 0
  | c :: cs, capacity =>
    if width c ≤ capacity then width c + fitting cs (capacity - width c) else 0

end FlowHost.Utf8
