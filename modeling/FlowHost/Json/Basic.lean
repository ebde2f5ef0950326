import FlowHost.Number.Decimal

/-!
# JSON documents

The tree of a JSON document, close to its text: numbers keep their digits and
members their order, so that one reading serves every use. A text is absent where
it is spelled with half of a surrogate pair: such a text has no value, which only
matters to those who ask for it.

* `Numeral.toNumber?`: the number that digits denote.
* `Json.isSound`: whether everything in a document has a value.
-/

namespace FlowHost

/-- A JSON number as it is written. -/
structure Numeral where
  negative : Bool
  whole : List Char
  fraction : List Char
  /-- Whether the exponent has a minus sign, and its digits. -/
  exponent : Option (Bool × List Char)
  deriving DecidableEq, Repr

/-- A JSON document. -/
inductive Json where
  | null
  | bool (b : Bool)
  | number (n : Numeral)
  | text (t : Option String)
  | array (items : List Json)
  | object (members : List (Option String × Json))

/-- A number that was read: integers of 64 bits stay integers. -/
inductive Number where
  | natural (n : Nat)
  | negative (n : Int)
  | real (x : Double)
  deriving DecidableEq, Repr

/-- The number that digits spell. -/
def digitsValue (ds : List Char) : Nat := ds.foldl (fun n c => 10 * n + (c.toNat - 48)) 0

namespace Double

/-- The product of two finite doubles, rounded. -/
def scaleUp (x y : Double) : Double :=
  let f := FloatFormat.double
  ⟨UInt64.ofNat (f.round x.isNegative (f.units x.bits.toNat * f.units y.bits.toNat)
    (Nat.pow 2 f.unitExponent * Nat.pow 2 f.unitExponent))⟩

/-- The quotient of two finite doubles, rounded. -/
def scaleDown (x y : Double) : Double :=
  let f := FloatFormat.double
  ⟨UInt64.ofNat (f.round x.isNegative (f.units x.bits.toNat) (f.units y.bits.toNat))⟩

/-- The double nearest to a power of ten. -/
def powerOfTen (n : Nat) : Double := (Decimal.mk false 1 n).toDouble

/-- The word with the sign bit set. -/
def negate (x : Double) : Double := ⟨x.bits ^^^ 0x8000000000000000⟩

end Double

namespace Numeral

/-- The greatest 64-bit word. -/
def wordMax : Nat := Nat.pow 2 64 - 1

/-- Takes digits into a coefficient while it fits 64 bits: the coefficient, how many
digits were taken, and how many were left. -/
def accumulate (coefficient taken : Nat) : List Char → Nat × Nat × Nat
  | [] => (coefficient, taken, 0)
  | c :: rest =>
    let next := 10 * coefficient + (c.toNat - 48)
    if wordMax < next then (coefficient, taken, rest.length + 1)
    else accumulate next (taken + 1) rest

/-- `coefficient · 10 ^ exponent`, each step rounded: one scaling by a power of ten, after
as many divisions by `10 ^ 308` as bring the exponent into its range. Absent beyond the
greatest double. -/
def scale : Nat → Double → Int → Option Double
  | 0, x, _ => some x
  | fuel + 1, x, exponent =>
    if exponent.natAbs ≤ 308 then
      let power := Double.powerOfTen exponent.natAbs
      if 0 ≤ exponent then
        let y := x.scaleUp power
        if y.isFinite then some y else none
      else some (x.scaleDown power)
    else if x.isZero then some x
    else if 0 ≤ exponent then none
    else scale fuel (x.scaleDown (Double.powerOfTen 308)) (exponent + 308)

/-- The exponent's value, if it has at most 31 bits. -/
def exponentValue (e : Bool × List Char) : Option Int :=
  let n := digitsValue e.2
  if n < Nat.pow 2 31 then some (if e.1 then -(n : Int) else n) else none

/-- An exponent held to 32 bits. -/
def clampExponent (e : Int) : Int := max (-(Int.pow 2 31)) (min e (Int.pow 2 31 - 1))

/-- **The double that a numeral denotes**: digits beyond 64 bits are dropped, and the rest is
scaled by a power of ten. Absent when it exceeds every double. -/
def toReal (n : Numeral) : Option Double :=
  let (c, _, cut) := accumulate 0 0 n.whole
  let (coefficient, places) :=
    let (c', taken, _) := accumulate c 0 n.fraction
    (c', (cut : Int) - taken)
  let signed (x : Double) : Double := if n.negative then x.negate else x
  match n.exponent with
  | none => (scale 20 (Double.ofInt coefficient) places).map signed
  | some e =>
    match exponentValue e with
    | some v => (scale 20 (Double.ofInt coefficient) (clampExponent (places + v))).map signed
    | none =>
      if coefficient ≠ 0 ∧ !e.1 then none else some (signed .zero)

/-- **The number that a numeral denotes.** Without fraction and exponent it is an integer if it
fits 64 bits; minus zero is not an integer. -/
def toNumber? (n : Numeral) : Option Number :=
  let v := digitsValue n.whole
  if n.fraction.isEmpty && n.exponent.isNone then
    if n.negative then
      if v ≠ 0 ∧ v ≤ Nat.pow 2 63 then some (.negative (-(v : Int))) else n.toReal.map .real
    else if v ≤ wordMax then some (.natural v)
    else n.toReal.map .real
  else n.toReal.map .real

/-- The numeral of an integer. -/
def ofInt (i : Int) : Numeral := ⟨decide (i < 0), Nat.toDigits 10 i.natAbs, [], none⟩

/-- A finite word's shortest numeral: an exponent only for the very large and very small,
otherwise digits on both sides of the point. -/
def ofWord (f : FloatFormat) (high low : Int) (word : Nat) : Numeral :=
  let d := f.shortest word
  let ds := d.digits
  -- The point stands after this many digits.
  let point : Int := d.exponent + ds.length
  if d.coefficient = 0 then ⟨d.negative, ['0'], ['0'], none⟩
  else if 0 ≤ d.exponent ∧ point ≤ high then
    ⟨d.negative, ds ++ List.replicate d.exponent.natAbs '0', ['0'], none⟩
  else if 0 < point ∧ point ≤ high then
    ⟨d.negative, ds.take point.natAbs, ds.drop point.natAbs, none⟩
  else if low < point ∧ point ≤ 0 then
    ⟨d.negative, ['0'], List.replicate point.natAbs '0' ++ ds, none⟩
  else
    let power := point - 1
    ⟨d.negative, ds.take 1, ds.drop 1,
      some (decide (power < 0), Nat.toDigits 10 power.natAbs)⟩

end Numeral

namespace Json

/-- An integer. -/
def ofInt (i : Int) : Json := number (Numeral.ofInt i)

/-- A text. -/
def ofText (t : String) : Json := text (some t)

/-- A double; null if it is not finite. -/
def ofDouble (x : Double) : Json :=
  if x.isFinite then number (Numeral.ofWord .double 16 (-5) x.bits.toNat) else null

/-- A single; null if it is not finite. -/
def ofSingle (x : Single) : Json :=
  if x.isFinite then number (Numeral.ofWord .single 13 (-6) x.bits.toNat) else null

/-- An object with the given members. -/
def ofMembers (members : List (String × Json)) : Json :=
  object (members.map fun m => (some m.1, m.2))

mutual

/-- Whether every text and number in a document has a value, and lists and objects are nested
less deeply than the allowance. -/
def isSound (allowance : Nat) : Json → Bool
  | null | bool _ => true
  | number n => n.toNumber?.isSome
  | text t => t.isSome
  | array items => decide (1 < allowance) && allSound (allowance - 1) items
  | object members => decide (1 < allowance) && membersSound (allowance - 1) members

/-- Whether all items are sound. -/
def allSound (allowance : Nat) : List Json → Bool
  | [] => true
  | j :: rest => isSound allowance j && allSound allowance rest

/-- Whether all names and values are sound. -/
def membersSound (allowance : Nat) : List (Option String × Json) → Bool
  | [] => true
  | m :: rest => m.1.isSome && isSound allowance m.2 && membersSound allowance rest

end

end Json

end FlowHost
