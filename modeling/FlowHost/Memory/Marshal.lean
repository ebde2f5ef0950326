import FlowHost.Memory
import FlowHost.Scalar

/-!
# Marshalling

Scalars, texts and arrays between the host and a guest's memory. Writers never go
beyond the capacity they are given: what does not fit is cut, texts between two
characters, and the outcome says how much was written and how much there was.

* `MemoryM.decodeScalar`, `MemoryM.encodeScalar`: single scalars.
* `MemoryM.decodeText`, `MemoryM.encodeText`: texts.
* `MemoryM.decodeArray`, `MemoryM.encodeArray`: arrays of one type.
* `MemoryM.encodeTextAndLength`: a text with its length in a slot of its own.
-/

namespace FlowHost

/-- The outcome of writing with a capacity, in octets for texts and in items for arrays. -/
structure Encoded where
  written : Nat
  required : Nat
  deriving DecidableEq, Repr

/-- Whether something did not fit. -/
def Encoded.isTruncated (e : Encoded) : Bool := decide (e.written < e.required)

namespace MemoryM

/-- Reads one scalar. -/
def decodeScalar (ptr : UInt32) (ty : ScalarType) : MemoryM Scalar := do
  return Scalar.ofBytes ty (← read ptr ty.width)

/-- Casts a scalar to a type and writes it. -/
def encodeScalar (v : Scalar) (ptr : UInt32) (ty : ScalarType) : MemoryM Unit :=
  write ptr (v.cast ty).toBytes

/-- Reads a text strictly. -/
def decodeText (ptr : UInt32) (len : Nat) : MemoryM String := do
  match Utf8.decode (← read ptr len) with
  | .ok text => return text
  | .error fault => throw (.invalidUtf8 fault)

/-- Reads a text, replacing what is not well-formed. -/
def decodeTextLossy (ptr : UInt32) (len : Nat) : MemoryM String := do
  return Utf8.decodeLossy (← read ptr len)

/-- Writes the first `written` octets and reports on them. -/
def writeLeading (bs : Bytes) (written : Nat) (ptr : UInt32) : MemoryM Encoded := do
  write ptr (bs.take written)
  return ⟨clampWord written, clampWord bs.length⟩

/-- Writes octets, as many as fit. -/
def encodeBytes (bs : Bytes) (ptr : UInt32) (capacity : Nat) : MemoryM Encoded :=
  writeLeading bs (min bs.length capacity) ptr

/-- Writes a text, as many whole characters as fit. -/
def encodeText (text : String) (ptr : UInt32) (capacity : Nat) : MemoryM Encoded :=
  writeLeading (Utf8.encode text) (Utf8.fitting text.toList capacity) ptr

/-- Writes a text, then the number of octets written. A bad place for the number is
refused before anything is written. -/
def encodeTextAndLength (text : String) (ptr : UInt32) (capacity : Nat) (lenPtr : UInt32)
    (lenType : ScalarType) : MemoryM Encoded := do
  check lenPtr lenType.width
  let encoded ← encodeText text ptr capacity
  encodeScalar (.u32 (UInt32.ofNat encoded.written)) lenPtr lenType
  return encoded

/-- Writes octets, then their number. -/
def encodeBytesAndLength (bs : Bytes) (ptr : UInt32) (capacity : Nat) (lenPtr : UInt32)
    (lenType : ScalarType) : MemoryM Encoded := do
  check lenPtr lenType.width
  let encoded ← encodeBytes bs ptr capacity
  encodeScalar (.u32 (UInt32.ofNat encoded.written)) lenPtr lenType
  return encoded

/-- Pieces of equal length; a shorter last piece is dropped. -/
def pieces (width : Nat) : Nat → Bytes → List Bytes
  | 0, _ => []
  | count + 1, bs => bs.take width :: pieces width count (bs.drop width)

/-- Reads an array of scalars. -/
def decodeArray (ptr : UInt32) (count : UInt32) (ty : ScalarType) : MemoryM (List Scalar) := do
  let total := count.toNat * ty.width
  if maxWord < total then throw (.memoryOutOfBounds ptr.toNat maxWord)
  let bs ← read ptr total
  return (pieces ty.width count.toNat bs).map (Scalar.ofBytes ty)

/-- Casts scalars to a type and writes as many as fit. -/
def encodeArray (items : List Scalar) (ptr : UInt32) (maxItems : Nat) (ty : ScalarType) :
    MemoryM Encoded := do
  let kept := items.take maxItems
  write ptr (kept.flatMap fun v => (v.cast ty).toBytes)
  return ⟨clampWord kept.length, clampWord items.length⟩

end MemoryM

end FlowHost
