import FlowHost.Bundle.Inflate

/-!
# Gzip members

The file format of RFC 1952: a header, compressed data, and a trailer with the
check value and size of the data. Only the first member of a file counts.

* `Gzip.isMember`: whether octets start like a member.
* `Gzip.unpack`: the data of the first member.
* `Gzip.pack`: a member that stores its data uncompressed.
-/

namespace FlowHost.Gzip

/-- The first two octets of a member. -/
def magic : Bytes := [0x1F, 0x8B]

/-- Whether octets start like a member. -/
def isMember (bs : Bytes) : Bool := magic.isPrefixOf bs

/-- One bit of the check value's division. -/
def crcBit (r : UInt32) : UInt32 := if r &&& 1 = 1 then (r >>> 1) ^^^ 0xEDB88320 else r >>> 1

/-- The check value's register after an octet. -/
def crcStep (r : UInt32) (b : UInt8) : UInt32 :=
  crcBit (crcBit (crcBit (crcBit (crcBit (crcBit (crcBit (crcBit (r ^^^ b.toUInt32))))))))

/-- The check value of octets. -/
def crc (bs : Bytes) : UInt32 := bs.foldl crcStep 0xFFFFFFFF ^^^ 0xFFFFFFFF

/-- The longest name or comment that a header may hold. -/
def maxField : Nat := 65535

/-- The rest after a text and its closing zero. -/
def skipText (bs : Bytes) : Option Bytes :=
  match bs.dropWhile (· != 0) with
  | [] => none
  | _ :: rest => if bs.length - (rest.length + 1) ≤ maxField then some rest else none

/-- Whether a flag is set. -/
def hasFlag (flags : UInt8) (bit : Nat) : Bool := flags.toNat / Nat.pow 2 bit % 2 == 1

/-- **The rest after a header**: its fixed part, then what its flags announce: extra data, a
name, a comment and a check value of the header itself. -/
def skipHeader (bs : Bytes) : Option Bytes := do
  match bs with
  | 0x1F :: 0x8B :: 8 :: flags :: rest =>
    if 0x20 ≤ flags.toNat then none
    else
      let (_, rest) ← Bytes.split? 6 rest
      let rest ←
        if hasFlag flags 2 then do
          let (len, rest) ← Bytes.split? 2 rest
          let (_, rest) ← Bytes.split? (Bytes.toNat len) rest
          pure rest
        else some rest
      let rest ← if hasFlag flags 3 then skipText rest else some rest
      let rest ← if hasFlag flags 4 then skipText rest else some rest
      if hasFlag flags 1 then
        let (check, after) ← Bytes.split? 2 rest
        let header := bs.take (bs.length - rest.length)
        if (crc header).toNat % Nat.pow 2 16 = Bytes.toNat check then some after else none
      else return rest
  | _ => none

/-- **The data of the first member.** -/
def unpack (bs : Bytes) : Option Bytes := do
  let body ← skipHeader bs
  let (data, rest) ← Inflate.inflate body
  let (check, rest) ← Bytes.split? 4 rest
  let (size, _) ← Bytes.split? 4 rest
  if Bytes.toNat check = (crc data).toNat ∧ Bytes.toNat size = data.length % Nat.pow 2 32 then
    some data
  else none

/-- Data in stored blocks of at most 65535 octets. -/
def storedBlocks : Nat → Bytes → Bytes
  | 0, _ => []
  | fuel + 1, data =>
    let piece := data.take 65535
    let rest := data.drop 65535
    (if rest.isEmpty then 1 else 0) :: Bytes.ofNat 2 piece.length ++
      Bytes.ofNat 2 (65535 - piece.length) ++ piece ++
      (if rest.isEmpty then [] else storedBlocks fuel rest)

/-- **A member that stores its data uncompressed.** -/
def pack (data : Bytes) : Bytes :=
  magic ++ [8, 0, 0, 0, 0, 0, 0, 0xFF] ++ storedBlocks (data.length + 1) data ++
    Bytes.ofNat 4 (crc data).toNat ++ Bytes.ofNat 4 data.length

end FlowHost.Gzip
