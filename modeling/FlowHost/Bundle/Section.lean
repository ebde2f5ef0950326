import FlowHost.Text.Utf8

/-!
# Sections of a binary

A binary is a header and a sequence of sections, each an identifier, a size and a
body. Binaries of the second kind nest others inside their sections. Only the
framing is read here: sizes, counts and the names of custom sections.

* `Section.customSections`: the custom sections of a binary, in reading order.
* `Section.encodeCustom`: a custom section as octets.
-/

namespace FlowHost.Section

/-- The two kinds of binaries: plain ones, and ones that may hold others. -/
inductive Encoding where
  | plain | nesting
  deriving DecidableEq, Repr

/-- A custom section: its name and its data. -/
structure Custom where
  name : String
  data : Bytes
  deriving DecidableEq, Repr

/-- The octets of a variable-length word after the first, with the place value of the next. -/
def wordTail (value shift : Nat) : Nat → Bytes → Option (Nat × Bytes)
  | 0, _ => none
  | _ + 1, [] => none
  | fuel + 1, b :: rest =>
    let value := value + b.toNat % 128 * Nat.pow 2 shift
    if 28 ≤ shift ∧ 16 ≤ b.toNat then none
    else if b.toNat < 128 then some (value, rest)
    else wordTail value (shift + 7) fuel rest

/-- **A variable-length word**: seven bits an octet, least significant first, the last one
below 128. It has at most five octets and 32 bits. -/
def word (bs : Bytes) : Option (Nat × Bytes) := wordTail 0 0 5 bs

/-- A word in as few octets as it takes. -/
def encodeWord : Nat → Nat → Bytes
  | 0, _ => []
  | fuel + 1, n =>
    if n < 128 then [UInt8.ofNat n] else UInt8.ofNat (128 + n % 128) :: encodeWord fuel (n / 128)

/-- The longest name of a custom section, in octets. -/
def maxName : Nat := 100000

/-- The greatest size of a nested binary. -/
def maxNested : Nat := Nat.pow 2 30

/-- The greatest number of arguments or results of a start section. -/
def maxStart : Nat := 1000

/-- A custom section's body: a name and the data after it. -/
def custom (body : Bytes) : Option Custom := do
  let (len, rest) ← word body
  if maxName < len then none
  else
    let (name, data) ← Bytes.split? len rest
    match Utf8.decode name with
    | .ok name => return ⟨name, data⟩
    | .error _ => none

/-- Whether a body starts with a count. -/
def counted (body : Bytes) : Bool := (word body).isSome

/-- Whether a body is one word. -/
def single (body : Bytes) : Bool :=
  match word body with
  | some (_, rest) => rest.isEmpty
  | none => false

/-- The rest after a number of words. -/
def words : Nat → Bytes → Option Bytes
  | 0, bs => some bs
  | count + 1, bs =>
    match word bs with
    | some (_, rest) => words count rest
    | none => none

/-- Whether a body is a start section of a nesting binary: a function, arguments and a
number of results. -/
def start (body : Bytes) : Bool :=
  match word body with
  | none => false
  | some (_, rest) =>
    match word rest with
    | none => false
    | some (count, rest) =>
      if maxStart < count then false
      else
        match words count rest with
        | none => false
        | some rest =>
          match word rest with
          | some (results, rest) => decide (results ≤ maxStart) && rest.isEmpty
          | none => false

/-- Whether octets are a number of function bodies and nothing else. -/
def functionBodies : Nat → Nat → Bytes → Bool
  | 0, _, _ => false
  | _ + 1, 0, bs => bs.isEmpty
  | fuel + 1, count + 1, bs =>
    match word bs with
    | none => false
    | some (size, rest) =>
      match Bytes.split? size rest with
      | some (_, rest) => functionBodies fuel count rest
      | none => false

/-- Whether a body is a code section. -/
def code (body : Bytes) : Bool :=
  match word body with
  | some (count, rest) => functionBodies (rest.length + 1) count rest
  | none => false

/-- Whether the body of a section other than a custom or nesting one is well-framed. -/
def wellFramed (encoding : Encoding) (id : Nat) (body : Bytes) : Bool :=
  match encoding with
  | .plain =>
    if id = 10 then code body
    else if id = 8 ∨ id = 12 then single body
    else if id ≤ 13 then counted body
    else true
  | .nesting =>
    if id = 9 then start body
    else if id ≤ 11 then counted body
    else true

/-- The encoding that a header declares, and the rest. The version is of no account. -/
def header (bs : Bytes) : Option (Encoding × Bytes) :=
  match bs with
  | 0x00 :: 0x61 :: 0x73 :: 0x6D :: _ :: _ :: 0 :: 0 :: rest => some (.plain, rest)
  | 0x00 :: 0x61 :: 0x73 :: 0x6D :: _ :: _ :: 1 :: 0 :: rest => some (.nesting, rest)
  | _ => none

/-- Whether a size fits what is left of a declared size, if one was declared. -/
def fits (limit : Option Nat) (size : Nat) : Bool :=
  match limit with
  | none => true
  | some l => decide (size ≤ l)

mutual

/-- The custom sections of a whole binary of a declared size. -/
def binary : Nat → Option Nat → Bytes → Option (List Custom)
  | 0, _, _ => none
  | fuel + 1, limit, bs => do
    let (encoding, rest) ← header bs
    if fits limit 8 then sections fuel encoding (limit.map (· - 8)) rest else none

/-- The custom sections among the sections that are left. A nested binary may be cut off by
the end of the octets, but no section in it exceeds its declared size. -/
def sections : Nat → Encoding → Option Nat → Bytes → Option (List Custom)
  | 0, _, _, _ => none
  | _ + 1, _, _, [] => some []
  | fuel + 1, encoding, limit, id :: after => do
    let (size, rest) ← word after
    let taken := 1 + (after.length - rest.length)
    if id.toNat ≥ 128 ∨ !fits limit (taken + size) then none
    else
      let limit := limit.map (· - (taken + size))
      if id = 0 then
        let (body, rest) ← Bytes.split? size rest
        let found ← custom body
        return found :: (← sections fuel encoding limit rest)
      else if encoding = .nesting ∧ (id = 1 ∨ id = 4) then
        if maxNested < size then none
        else
          let inner ← binary fuel (some size) (rest.take size)
          return inner ++ (← sections fuel encoding limit (rest.drop size))
      else
        let (body, rest) ← Bytes.split? size rest
        if wellFramed encoding id.toNat body then sections fuel encoding limit rest else none

end

/-- **The custom sections of a binary**, nested ones included, in reading order; nothing if the
framing is broken anywhere. -/
def customSections (bs : Bytes) : Option (List Custom) := binary (2 * bs.length + 2) none bs

/-- The octets that every plain binary starts with. -/
def plainHeader : Bytes := [0x00, 0x61, 0x73, 0x6D, 1, 0, 0, 0]

/-- **A custom section as octets.** -/
def encodeCustom (name : String) (data : Bytes) : Bytes :=
  let title := Utf8.encode name
  let body := encodeWord 5 title.length ++ title ++ data
  0 :: encodeWord 5 body.length ++ body

end FlowHost.Section
