import FlowHost.Number.Decimal

/-!
# Numbers in plain text

How numbers are read from a text that holds nothing else.

* `readInteger?`: an optional sign and digits.
* `readReal?`: digits with an optional point and exponent, or the name of infinity or of
  what is no number.
-/

namespace FlowHost

/-- The lower-case letter of a capital. The Kelvin sign is the one character beyond the basic
alphabet whose small form is in it. -/
def lowerChar (c : Char) : Char := if c = '\u212A' then 'k' else c.toLower

/-- A text in lower case. -/
def lower (text : String) : String := String.ofList (text.toList.map lowerChar)

/-- Whether characters are digits, at least one. -/
def areDigits (cs : List Char) : Bool := !cs.isEmpty && cs.all Char.isDigit

/-- The number that digits in a base spell. -/
def valueInBase (base : Nat) (cs : List Char) : Nat :=
  cs.foldl (fun n c =>
    base * n + (if c.isDigit then c.toNat - 48 else if c.toNat < 97 then c.toNat - 55
      else c.toNat - 87)) 0

/-- A sign and what follows it. -/
def splitSign : List Char → Bool × List Char
  | '+' :: rest => (false, rest)
  | '-' :: rest => (true, rest)
  | cs => (false, cs)

/-- **Reads an integer**: an optional sign and digits. -/
def readInteger? (text : List Char) : Option Int :=
  let (negative, ds) := splitSign text
  if areDigits ds then
    let n : Int := valueInBase 10 ds
    some (if negative then -n else n)
  else none

/-- Reads a number without a minus sign. -/
def readNatural? (text : List Char) : Option Nat :=
  match text with
  | '-' :: _ => none
  | _ => (readInteger? text).map Int.toNat

/-- Reads a signed integer of 64 bits. -/
def readLong? (text : List Char) : Option Int :=
  match readInteger? text with
  | some i => if -(Int.pow 2 63) ≤ i ∧ i < Int.pow 2 63 then some i else none
  | none => none

/-- The word of positive infinity in double precision. -/
def Double.infinity : Double := ⟨0x7ff0000000000000⟩

/-- A word that is no number. -/
def Double.notANumber : Double := ⟨0x7ff8000000000000⟩

/-- A double with the sign turned, if asked for. -/
def Double.withSign (negative : Bool) (x : Double) : Double :=
  if negative then ⟨x.bits ^^^ 0x8000000000000000⟩ else x

/-- Digits before and after a point, and a power of ten, as a double. -/
def assembleReal (negative : Bool) (whole fraction : List Char) (exponent : Int) : Double :=
  (Decimal.mk negative (valueInBase 10 (whole ++ fraction))
    (exponent - fraction.length)).toDouble

/-- An exponent, if characters are one and nothing else. -/
def readExponent? : List Char → Option Int
  | [] => some 0
  | c :: rest => if c = 'e' ∨ c = 'E' then readInteger? rest else none

/-- **Reads a real number.** -/
def readReal? (text : List Char) : Option Double :=
  let (negative, body) := splitSign text
  let word := String.ofList (body.map Char.toLower)
  if word = "inf" ∨ word = "infinity" then some (Double.infinity.withSign negative)
  else if word = "nan" then some (Double.notANumber.withSign negative)
  else
    let whole := body.takeWhile Char.isDigit
    let rest := body.drop whole.length
    let (fraction, rest) := match rest with
      | '.' :: more => (more.takeWhile Char.isDigit, more.dropWhile Char.isDigit)
      | _ => ([], rest)
    if whole.isEmpty && fraction.isEmpty then none
    else (readExponent? rest).map (assembleReal negative whole fraction)

/-- **A double as the nearest integer**, halves away from zero, held to bounds; what is no
number counts as zero. -/
def Double.nearestWithin (x : Double) (low high : Int) : Int :=
  if x.isNaN then 0
  else if !x.isFinite then (if x.isNegative then low else high)
  else
    let unit := Nat.pow 2 FloatFormat.double.unitExponent
    let magnitude : Int :=
      ((2 * FloatFormat.double.units x.bits.toNat + unit) / (2 * unit) : Nat)
    max low (min high (if x.isNegative then -magnitude else magnitude))

end FlowHost
