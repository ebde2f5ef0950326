import FlowHost.Bytes
import FlowHost.Number.Binary

/-!
# Scalars

The eleven scalar types that a guest and its host exchange, the **cast** between
any two of them, and their little-endian form.

* Numbers that are not finite count as zero.
* Booleans count as zero and one; whatever is not zero is true.
* Floating-point numbers lose their fraction, are held to 128 bits, and then wrap
  to the width of an integer type.
-/

namespace FlowHost

/-- The scalar types. -/
inductive ScalarType where
  | bool | i8 | u8 | i16 | u16 | i32 | u32 | f32 | i64 | u64 | f64
  deriving DecidableEq, Repr

namespace ScalarType

/-- Every scalar type, by width. -/
def all : List ScalarType := [bool, i8, u8, i16, u16, i32, u32, f32, i64, u64, f64]

/-- The name of a type. -/
def name : ScalarType → String
  | bool => "bool" | i8 => "i8" | u8 => "u8" | i16 => "i16" | u16 => "u16" | i32 => "i32"
  | u32 => "u32" | f32 => "f32" | i64 => "i64" | u64 => "u64" | f64 => "f64"

/-- The type of a name. -/
def ofName? (text : String) : Option ScalarType := all.find? fun ty => ty.name == text

/-- The number of octets of a scalar. -/
def width : ScalarType → Nat
  | bool | i8 | u8 => 1
  | i16 | u16 => 2
  | i32 | u32 | f32 => 4
  | i64 | u64 | f64 => 8

end ScalarType

/-- A scalar of one of the eleven types. -/
inductive Scalar where
  | bool (b : Bool)
  | i8 (v : Int8)
  | u8 (v : UInt8)
  | i16 (v : Int16)
  | u16 (v : UInt16)
  | i32 (v : Int32)
  | u32 (v : UInt32)
  | f32 (v : Single)
  | i64 (v : Int64)
  | u64 (v : UInt64)
  | f64 (v : Double)
  deriving DecidableEq

namespace Scalar

/-- The type of a scalar. -/
def type : Scalar → ScalarType
  | bool _ => .bool | i8 _ => .i8 | u8 _ => .u8 | i16 _ => .i16 | u16 _ => .u16
  | i32 _ => .i32 | u32 _ => .u32 | f32 _ => .f32 | i64 _ => .i64 | u64 _ => .u64
  | f64 _ => .f64

/-- What a cast looks at: an integer or a finite floating-point number. -/
inductive Quantity where
  | integer (i : Int)
  | real (x : Double)

/-- A floating-point number as a quantity; zero if it is not finite. -/
def quantityOfDouble (x : Double) : Quantity :=
  if x.isFinite then .real x else .integer 0

/-- The quantity that a scalar denotes. -/
def quantity : Scalar → Quantity
  | bool b => .integer (if b then 1 else 0)
  | i8 v => .integer v.toInt
  | u8 v => .integer v.toNat
  | i16 v => .integer v.toInt
  | u16 v => .integer v.toNat
  | i32 v => .integer v.toInt
  | u32 v => .integer v.toNat
  | i64 v => .integer v.toInt
  | u64 v => .integer v.toNat
  | f32 v => if v.isFinite then quantityOfDouble v.toDouble else .integer 0
  | f64 v => quantityOfDouble v

/-- The bounds that the integer part of a floating-point number is held to. -/
def clampWide (i : Int) : Int := max (-(Int.pow 2 127)) (min i (Int.pow 2 127 - 1))

/-- An integer as a scalar of a type, wrapped to its width. -/
def ofInt (i : Int) : ScalarType → Scalar
  | .bool => bool (decide (i ≠ 0))
  | .i8 => i8 (Int8.ofInt i)
  | .u8 => u8 (UInt8.ofInt i)
  | .i16 => i16 (Int16.ofInt i)
  | .u16 => u16 (UInt16.ofInt i)
  | .i32 => i32 (Int32.ofInt i)
  | .u32 => u32 (UInt32.ofInt i)
  | .i64 => i64 (Int64.ofInt i)
  | .u64 => u64 (UInt64.ofInt i)
  | .f32 => f32 (Single.ofInt i)
  | .f64 => f64 (Double.ofInt i)

/-- **The cast of a scalar to a type.** -/
def cast (v : Scalar) (ty : ScalarType) : Scalar :=
  match v.quantity with
  | .integer i => ofInt i ty
  | .real x =>
    match ty with
    | .bool => bool (!x.isZero)
    | .f32 => f32 x.toSingle
    | .f64 => f64 x
    | _ => ofInt (clampWide x.truncate) ty

/-- The word of a scalar: its bits as a number. -/
def word : Scalar → Nat
  | bool b => if b then 1 else 0
  | i8 v => v.toUInt8.toNat
  | u8 v => v.toNat
  | i16 v => v.toUInt16.toNat
  | u16 v => v.toNat
  | i32 v => v.toUInt32.toNat
  | u32 v => v.toNat
  | f32 v => v.bits.toNat
  | i64 v => v.toUInt64.toNat
  | u64 v => v.toNat
  | f64 v => v.bits.toNat

/-- The scalar of a type whose word is given; any word but zero is true. -/
def ofWord (n : Nat) : ScalarType → Scalar
  | .bool => bool (decide (n ≠ 0))
  | .i8 => i8 (UInt8.ofNat n).toInt8
  | .u8 => u8 (UInt8.ofNat n)
  | .i16 => i16 (UInt16.ofNat n).toInt16
  | .u16 => u16 (UInt16.ofNat n)
  | .i32 => i32 (UInt32.ofNat n).toInt32
  | .u32 => u32 (UInt32.ofNat n)
  | .f32 => f32 ⟨UInt32.ofNat n⟩
  | .i64 => i64 (UInt64.ofNat n).toInt64
  | .u64 => u64 (UInt64.ofNat n)
  | .f64 => f64 ⟨UInt64.ofNat n⟩

/-- The octets of a scalar, least significant first. -/
def toBytes (v : Scalar) : Bytes := Bytes.ofNat v.type.width v.word

/-- The scalar of a type that octets, least significant first, spell. -/
def ofBytes (ty : ScalarType) (bs : Bytes) : Scalar := ofWord (Bytes.toNat bs) ty

/-- The scalar cast to an unsigned 64-bit integer. -/
def asU64 (v : Scalar) : UInt64 :=
  match v.cast .u64 with
  | u64 n => n
  | _ => 0

/-- The scalar cast to a signed 64-bit integer. -/
def asI64 (v : Scalar) : Int64 :=
  match v.cast .i64 with
  | i64 n => n
  | _ => 0

/-- The scalar cast to double precision. -/
def asDouble (v : Scalar) : Double :=
  match v.cast .f64 with
  | f64 x => x
  | _ => .zero

/-- The scalar cast to a boolean. -/
def asBool (v : Scalar) : Bool :=
  match v.cast .bool with
  | bool b => b
  | _ => false

@[simp] theorem length_toBytes (v : Scalar) : v.toBytes.length = v.type.width := by
  simp [toBytes]

@[simp] theorem type_ofInt (i : Int) (ty : ScalarType) : (ofInt i ty).type = ty := by
  cases ty <;> rfl

@[simp] theorem type_ofWord (n : Nat) (ty : ScalarType) : (ofWord n ty).type = ty := by
  cases ty <;> rfl

/-- **A cast has the type it is asked for.** -/
@[simp] theorem type_cast (v : Scalar) (ty : ScalarType) : (v.cast ty).type = ty := by
  unfold cast
  split
  · exact type_ofInt _ ty
  · split <;> first | rfl | exact type_ofInt _ ty

/-- A cast has as many octets as its type is wide. -/
theorem length_toBytes_cast (v : Scalar) (ty : ScalarType) : (v.cast ty).toBytes.length = ty.width := by
  rw [length_toBytes, type_cast]

end Scalar

end FlowHost
