import FlowHost.Number.Binary

/-!
# Decimal numerals of binary words

A decimal numeral is a sign, a coefficient and a power of ten. Reading one as a
binary word rounds its exact value once; writing a word takes the **fewest
digits that read back as the same word**, and of those the nearest.

* `Decimal.toWord`: reading.
* `FloatFormat.shortest`: writing.
* `Decimal.positional`, `Decimal.scientific`: the two spellings of a numeral.
-/

namespace FlowHost

/-- A numeral: plus or minus `coefficient · 10 ^ exponent`. -/
structure Decimal where
  negative : Bool
  coefficient : Nat
  exponent : Int
  deriving DecidableEq, Repr

/-- The number of decimal digits of a number; zero has one. -/
def digitCount (n : Nat) : Nat := (Nat.toDigits 10 n).length

namespace Decimal

/-- **The word nearest to a numeral.** Numerals whose magnitude is certainly beyond the
greatest word or below half of the smallest are not expanded. -/
def toWord (f : FloatFormat) (d : Decimal) : Nat :=
  let sign := if d.negative then f.signBit else 0
  let top : Int := d.exponent + digitCount d.coefficient
  if d.coefficient = 0 then sign
  else if top < -400 then sign
  else if 400 < top then sign + f.infinity
  else if d.exponent < 0 then f.round d.negative d.coefficient (Nat.pow 10 d.exponent.natAbs)
  else f.round d.negative (d.coefficient * Nat.pow 10 d.exponent.natAbs) 1

/-- The double nearest to a numeral. -/
def toDouble (d : Decimal) : Double := ⟨UInt64.ofNat (d.toWord .double)⟩

/-- The digits of the coefficient. -/
def digits (d : Decimal) : List Char := Nat.toDigits 10 d.coefficient

/-- The numeral written with a point and no exponent. -/
def positional (d : Decimal) : String :=
  let ds := d.digits
  let sign := if d.negative then "-" else ""
  let body :=
    if 0 ≤ d.exponent then ds ++ List.replicate d.exponent.natAbs '0'
    else
      let places := d.exponent.natAbs
      if places < ds.length then
        ds.take (ds.length - places) ++ '.' :: ds.drop (ds.length - places)
      else '0' :: '.' :: List.replicate (places - ds.length) '0' ++ ds
  sign ++ String.ofList body

/-- The numeral written with one digit before the point and a power of ten. -/
def scientific (d : Decimal) : String :=
  let ds := d.digits
  let sign := if d.negative then "-" else ""
  let power : Int := d.exponent + ds.length - 1
  let body := match ds with
    | [] => []
    | [c] => [c]
    | c :: rest => c :: '.' :: rest
  sign ++ String.ofList body ++ "e" ++ toString power

end Decimal

/-- The power of ten at or below a positive quotient. -/
def floorLog10 (num den : Nat) : Int :=
  if den ≤ num then (digitCount (num / den) : Int) - 1
  else
    let count := digitCount (den / num)
    if den ≤ num * Nat.pow 10 (count - 1) then -((count : Int) - 1) else -(count : Int)

namespace FloatFormat

variable (f : FloatFormat)

/-- The interval of magnitudes that round to a finite word, in quarters of a unit, and
whether its ends belong to it. -/
def roundingInterval (word : Nat) : Nat × Nat × Bool :=
  let field := f.exponentField word
  let gap := Nat.pow 2 (field - 1)
  let below := if f.fraction word = 0 ∧ 1 < field then gap else 2 * gap
  (4 * f.units word - below, 4 * f.units word + 2 * gap, f.fraction word % 2 == 0)

/-- The better of the two neighbours of a magnitude on the grid `10 ^ exponent`, if one of
them rounds to the word. Magnitudes are in quarters of a unit. -/
def onGrid (word : Nat) (exponent : Int) : Option Nat :=
  let (low, high, closed) := f.roundingInterval word
  let unit := 4 * Nat.pow 2 f.unitExponent
  -- A grid point `d` lies at `d · step / scale` quarters of a unit.
  let (step, scale) :=
    if 0 ≤ exponent then (unit * Nat.pow 10 exponent.natAbs, 1)
    else (unit, Nat.pow 10 exponent.natAbs)
  let exact := 4 * f.units word * scale
  let floor := exact / step
  let inside (d : Nat) : Bool :=
    let x := d * step
    if closed then decide (low * scale ≤ x) && decide (x ≤ high * scale)
    else decide (low * scale < x) && decide (x < high * scale)
  let downOk := decide (0 < floor) && inside floor
  let upOk := inside (floor + 1)
  let r := exact % step
  if downOk && upOk then
    some (if 2 * r < step then floor else if step < 2 * r then floor + 1 else floor + floor % 2)
  else if downOk then some floor
  else if upOk then some (floor + 1)
  else none

/-- Tries grids from coarse to fine. -/
def searchGrids (word : Nat) (top : Int) : Nat → Nat → Nat × Int
  | 0, n => (f.units word, (n : Int))
  | fuel + 1, n =>
    let exponent := top + 1 - (n : Int)
    match f.onGrid word exponent with
    | some d => (d, exponent)
    | none => searchGrids word top fuel (n + 1)

/-- A coefficient without trailing zeros. -/
def stripZeros : Nat → Nat → Int → Nat × Int
  | 0, d, e => (d, e)
  | fuel + 1, d, e =>
    if d ≠ 0 ∧ d % 10 = 0 then stripZeros fuel (d / 10) (e + 1) else (d, e)

/-- **The shortest numeral of a finite word.** -/
def shortest (word : Nat) : Decimal :=
  if f.units word = 0 then ⟨f.isNegative word, 0, 0⟩
  else
    let top := floorLog10 (f.units word) (Nat.pow 2 f.unitExponent)
    let (d, e) := f.searchGrids word top 20 1
    let (d, e) := stripZeros 20 d e
    ⟨f.isNegative word, d, e⟩

end FloatFormat

/-- The plain spelling of a double: its shortest numeral without an exponent. -/
def Double.plain (x : Double) : String :=
  if x.isNaN then "NaN"
  else if !x.isFinite then (if x.isNegative then "-inf" else "inf")
  else (FloatFormat.double.shortest x.bits.toNat).positional

end FlowHost
