/-!
# Binary floating-point words

Single and double precision numbers are kept as their bit patterns, and every
operation on them is exact arithmetic on naturals: a finite word denotes a whole
number of **units**, the smallest positive number of its layout, and a rational
is rounded to the nearest word with ties to the even one.

* `FloatFormat.units`: the magnitude of a finite word.
* `FloatFormat.round`: the word nearest to a rational.
* `Double.truncate`, `Double.ofInt`, `Double.toSingle`, `Single.toDouble`: conversions.
-/

namespace FlowHost

/-- A layout: one sign bit, then exponent bits, then fraction bits. -/
structure FloatFormat where
  fractionBits : Nat
  exponentBits : Nat

namespace FloatFormat

/-- Single precision. -/
def single : FloatFormat := ⟨23, 8⟩

/-- Double precision. -/
def double : FloatFormat := ⟨52, 11⟩

variable (f : FloatFormat)

/-- The exponent field of a word. -/
def exponentField (word : Nat) : Nat := word / Nat.pow 2 f.fractionBits % Nat.pow 2 f.exponentBits

/-- The fraction field of a word. -/
def fraction (word : Nat) : Nat := word % Nat.pow 2 f.fractionBits

/-- The exponent field of infinities and of words that are not numbers. -/
def topField : Nat := Nat.pow 2 f.exponentBits - 1

/-- The word of positive infinity. -/
def infinity : Nat := f.topField * Nat.pow 2 f.fractionBits

/-- The sign bit alone. -/
def signBit : Nat := Nat.pow 2 (f.fractionBits + f.exponentBits)

/-- Whether the sign bit is set. -/
def isNegative (word : Nat) : Bool := word / f.signBit % 2 == 1

/-- Whether a word denotes a real number. -/
def isFinite (word : Nat) : Bool := f.exponentField word != f.topField

/-- Whether a word denotes no number at all. -/
def isNaN (word : Nat) : Bool := !f.isFinite word && f.fraction word != 0

/-- A magnitude of one is two to this many units. -/
def unitExponent : Nat := Nat.pow 2 (f.exponentBits - 1) - 2 + f.fractionBits

/-- **The magnitude of a finite word**, as a number of units. -/
def units (word : Nat) : Nat :=
  if f.exponentField word = 0 then f.fraction word
  else (Nat.pow 2 f.fractionBits + f.fraction word) * Nat.pow 2 (f.exponentField word - 1)

/-- The whole number nearest to a quotient, the even one if two are. -/
def nearest (num den : Nat) : Nat :=
  let q := num / den
  let r := num % den
  if 2 * r < den then q else if den < 2 * r then q + 1 else q + q % 2

/-- The word of the magnitude nearest to `num / den`, ties to the even word; what lies beyond
the greatest finite word becomes infinity. -/
def roundMagnitude (num den : Nat) : Nat :=
  let scaled := num * Nat.pow 2 f.unitExponent
  let whole := scaled / den
  let power := if whole < Nat.pow 2 (f.fractionBits + 1) then 0 else whole.log2 - f.fractionBits
  min (power * Nat.pow 2 f.fractionBits + nearest scaled (den * Nat.pow 2 power)) f.infinity

/-- **The word nearest to a rational** with the given sign. -/
def round (negative : Bool) (num den : Nat) : Nat :=
  (if negative then f.signBit else 0) + f.roundMagnitude num den

/-- The word of a finite word's value in another layout. -/
def convert (target : FloatFormat) (word : Nat) : Nat :=
  target.round (f.isNegative word) (f.units word) (Nat.pow 2 f.unitExponent)

/-- The value of a finite word without its fractional part. -/
def truncate (word : Nat) : Int :=
  let magnitude : Int := (f.units word / Nat.pow 2 f.unitExponent : Nat)
  if f.isNegative word then -magnitude else magnitude

/-- The word nearest to an integer. -/
def ofInt (i : Int) : Nat := f.round (decide (i < 0)) i.natAbs 1

end FloatFormat

/-- A single precision word. -/
structure Single where
  bits : UInt32
  deriving DecidableEq, Repr

/-- A double precision word. -/
structure Double where
  bits : UInt64
  deriving DecidableEq, Repr

namespace Single

/-- Whether the word denotes a real number. -/
def isFinite (x : Single) : Bool := FloatFormat.single.isFinite x.bits.toNat

/-- The double of the same value. -/
def toDouble (x : Single) : Double :=
  ⟨UInt64.ofNat (FloatFormat.single.convert .double x.bits.toNat)⟩

/-- The single nearest to an integer. -/
def ofInt (i : Int) : Single := ⟨UInt32.ofNat (FloatFormat.single.ofInt i)⟩

end Single

namespace Double

/-- Positive zero. -/
def zero : Double := ⟨0⟩

/-- Whether the word denotes a real number. -/
def isFinite (x : Double) : Bool := FloatFormat.double.isFinite x.bits.toNat

/-- Whether the word denotes no number at all. -/
def isNaN (x : Double) : Bool := FloatFormat.double.isNaN x.bits.toNat

/-- Whether the sign bit is set. -/
def isNegative (x : Double) : Bool := FloatFormat.double.isNegative x.bits.toNat

/-- Whether the word denotes zero of either sign. -/
def isZero (x : Double) : Bool := x.isFinite && FloatFormat.double.units x.bits.toNat == 0

/-- The single nearest to a finite double; infinity beyond the greatest finite single. -/
def toSingle (x : Double) : Single :=
  ⟨UInt32.ofNat (FloatFormat.double.convert .single x.bits.toNat)⟩

/-- The value of a finite double without its fractional part. -/
def truncate (x : Double) : Int := FloatFormat.double.truncate x.bits.toNat

/-- The double nearest to an integer. -/
def ofInt (i : Int) : Double := ⟨UInt64.ofNat (FloatFormat.double.ofInt i)⟩

end Double

end FlowHost
