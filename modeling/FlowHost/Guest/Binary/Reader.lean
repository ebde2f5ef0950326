import FlowHost.Bundle.Section
import FlowHost.Guest.Module

/-!
# Reading binaries

The small pieces that the sections of a binary are made of.

* `Binary.counted`: a number of things after their count.
* `Binary.constant`: an expression without operands.
-/

namespace FlowHost.Binary

/-- Reads one thing and leaves the rest. -/
abbrev Reader (α : Type) := Bytes → Option (α × Bytes)

/-- Reads a number of things. -/
def many {α : Type} (read : Reader α) : Nat → Reader (List α)
  | 0, bs => some ([], bs)
  | count + 1, bs => do
    let (a, bs) ← read bs
    let (rest, bs) ← many read count bs
    return (a :: rest, bs)

/-- Reads a count and as many things. -/
def counted {α : Type} (read : Reader α) : Reader (List α) := fun bs => do
  let (count, bs) ← Section.word bs
  if bs.length < count then none else many read count bs

/-- Reads one octet. -/
def octet : Reader Nat
  | [] => none
  | b :: bs => some (b.toNat, bs)

/-- Reads a text with its length before it. -/
def name : Reader String := fun bs => do
  let (len, bs) ← Section.word bs
  let (text, bs) ← Bytes.split? len bs
  match Utf8.decode text with
  | .ok text => return (text, bs)
  | .error _ => none

/-- Reads a value type. -/
def valueType : Reader ValueType := fun bs => do
  let (code, bs) ← octet bs
  match code with
  | 0x7f => return (.i32, bs)
  | 0x7e => return (.i64, bs)
  | 0x7d => return (.f32, bs)
  | 0x7c => return (.f64, bs)
  | _ => none

/-- Reads a function type. -/
def functionType : Reader Signature := fun bs => do
  let (form, bs) ← octet bs
  if form = 0x60 then
    let (params, bs) ← counted valueType bs
    let (results, bs) ← counted valueType bs
    return (⟨params, results⟩, bs)
  else none

/-- The octets of a number: its value before a sign counts, how many octets there are, and the last one. -/
def numberTail : Nat → Reader (Nat × Nat × Nat)
  | 0, _ => none
  | _ + 1, [] => none
  | fuel + 1, b :: bs =>
    if b.toNat < 128 then some ((b.toNat, 1, b.toNat), bs)
    else do
      let ((value, count, last), bs) ← numberTail fuel bs
      return ((b.toNat - 128 + 128 * value, count + 1, last), bs)

/-- Reads a long word: seven bits an octet, least significant first, in at most ten octets. -/
def longWord : Reader Nat := fun bs => do
  let ((value, _, _), bs) ← numberTail 10 bs
  if value < Nat.pow 2 64 then return (value, bs) else none

/-- Reads the sizes of a memory or a table and its form. Three flags before the sizes say whether there is a maximum,
whether it may be shared, and whether it is addressed by long words, as its sizes are then given. -/
def sizes : Reader (MemoryType × MemoryForm) := fun bs => do
  let (flags, bs) ← octet bs
  let form : MemoryForm := ⟨flags / 4 % 2 == 1, flags / 2 % 2 == 1⟩
  let size : Reader Nat := if form.isLong then longWord else Section.word
  let (minimum, bs) ← size bs
  let (maximum, bs) ← if flags % 2 == 1 then (size bs).map fun r => (some r.1, r.2) else some (none, bs)
  if flags < 8 then return ((⟨minimum, maximum⟩, form), bs) else none

/-- **Reads a signed number of some bits as a word.** The bits that the last octet has beyond
those repeat the sign. -/
def signedWord (bits : Nat) : Reader Nat := fun bs => do
  let most := (bits + 6) / 7
  let ((value, count, last), bs) ← numberTail most bs
  let used := Nat.pow 2 (bits - 7 * (most - 1) - 1)
  if count = most ∧ used ≤ last ∧ last < 128 - used then none
  else
    let size := Nat.pow 128 count
    return ((if 2 * value < size then value else Nat.pow 2 71 + value - size) % Nat.pow 2 bits, bs)

/-- The type of addresses: words, or long words. -/
def addressType (isLong : Bool) : ValueType := if isLong then .i64 else .i32

/-- Reads octets with their number before them. -/
def block : Reader Bytes := fun bs => do
  let (len, bs) ← Section.word bs
  Bytes.split? len bs

/-- Reads an expression without operands: the value of a literal as a word, and its type. -/
def constant : Reader (ValueType × Nat) := fun bs => do
  let (code, bs) ← octet bs
  let ((type, value), bs) ← match code with
    | 0x41 => (signedWord 32 bs).map fun r => ((ValueType.i32, r.1), r.2)
    | 0x42 => (signedWord 64 bs).map fun r => ((ValueType.i64, r.1), r.2)
    | 0x43 => (Bytes.split? 4 bs).map fun r => ((ValueType.f32, 0), r.2)
    | 0x44 => (Bytes.split? 8 bs).map fun r => ((ValueType.f64, 0), r.2)
    | _ => none
  match bs with
  | 0x0b :: bs => return ((type, value), bs)
  | _ => none

end FlowHost.Binary
