/-!
# Byte strings

Byte strings are lists of octets. This module holds their little-endian reading
as numbers and their hexadecimal spelling.

* `Bytes.length_ofNat`: a number written in `w` octets takes `w` octets.
* `Bytes.toNat_ofNat`: reading back a number below `256 ^ w` gives the number.
* `Bytes.ofNat_toNat`: writing back what was read gives the octets.
-/

namespace FlowHost

/-- A byte string. -/
abbrev Bytes := List UInt8

namespace Bytes

/-- The lowest `width` octets of `n`, least significant first. -/
def ofNat : Nat → Nat → Bytes
  | 0, _ => []
  | width + 1, n => UInt8.ofNat n :: ofNat width (n / 256)

/-- The number whose octets, least significant first, are given. -/
def toNat : Bytes → Nat
  | [] => 0
  | b :: bs => b.toNat + 256 * toNat bs

@[simp] theorem length_ofNat (width n : Nat) : (ofNat width n).length = width := by
  induction width generalizing n with
  | zero => rfl
  | succ width ih => simp [ofNat, ih]

theorem toNat_lt (bs : Bytes) : toNat bs < Nat.pow 256 bs.length := by
  induction bs with
  | nil => simp [toNat]
  | cons b bs ih =>
    have hb := b.toNat_lt
    simp only [toNat, List.length_cons, Nat.pow_eq, Nat.pow_succ] at ih ⊢
    omega

theorem toNat_ofNat (width n : Nat) : toNat (ofNat width n) = n % Nat.pow 256 width := by
  induction width generalizing n with
  | zero => simp [ofNat, toNat, Nat.mod_one]
  | succ width ih =>
    have hb : (UInt8.ofNat n).toNat = n % 256 := UInt8.toNat_ofNat'
    rw [ofNat, toNat, ih, hb, Nat.pow_eq, Nat.pow_eq, Nat.pow_succ', ← Nat.mod_mul]

theorem ofNat_toNat (bs : Bytes) : ofNat bs.length (toNat bs) = bs := by
  induction bs with
  | nil => rfl
  | cons b bs ih =>
    have hb : b.toNat < 256 := b.toNat_lt
    have h1 : UInt8.ofNat (b.toNat + 256 * toNat bs) = b := by
      apply UInt8.toNat_inj.1
      rw [UInt8.toNat_ofNat']
      omega
    have h2 : (b.toNat + 256 * toNat bs) / 256 = toNat bs := by omega
    simp only [toNat, List.length_cons, ofNat, h1, h2, ih]

/-- Splits off a number of octets, if there are as many. -/
def split? (n : Nat) (bs : Bytes) : Option (Bytes × Bytes) :=
  if n ≤ bs.length then some (bs.take n, bs.drop n) else none

/-- The lower-case hexadecimal digit of a number below sixteen. -/
def hexDigit (n : Nat) : Char :=
  if n < 10 then Char.ofNat (48 + n) else Char.ofNat (87 + n)

/-- The value of a hexadecimal digit in either case. -/
def hexValue? (c : Char) : Option Nat :=
  if '0' ≤ c ∧ c ≤ '9' then some (c.toNat - 48)
  else if 'a' ≤ c ∧ c ≤ 'f' then some (c.toNat - 87)
  else if 'A' ≤ c ∧ c ≤ 'F' then some (c.toNat - 55)
  else none

/-- Two lower-case hexadecimal digits for each octet. -/
def toHex (bs : Bytes) : String :=
  String.ofList (bs.flatMap fun b => [hexDigit (b.toNat / 16), hexDigit (b.toNat % 16)])

/-- Reads pairs of hexadecimal digits. -/
def ofHexDigits : List Char → Option Bytes
  | [] => some []
  | [_] => none
  | c :: d :: rest => do
    let high ← hexValue? c
    let low ← hexValue? d
    return UInt8.ofNat (16 * high + low) :: (← ofHexDigits rest)

/-- Reads a hexadecimal byte string. -/
def ofHex? (text : String) : Option Bytes := ofHexDigits text.toList

end Bytes

end FlowHost
