import FlowHost.Bytes

/-!
# Inflating

The compressed data format of RFC 1951: blocks of stored octets, of symbols under
the fixed codes, or of symbols under codes sent with the block. Symbols are
octets or copies of earlier output.

* `PrefixCode.ofLengths?`: a code from the lengths of its words.
* `Inflate.inflate`: the output of a stream of blocks, and what follows the stream.
-/

namespace FlowHost

/-- A stream of bits over octets, least significant bit first. -/
structure BitStream where
  octets : Array UInt8
  /-- The number of bits taken. -/
  pos : Nat

namespace BitStream

/-- Takes one bit. -/
def bit (s : BitStream) : Option (Nat × BitStream) :=
  match s.octets[s.pos / 8]? with
  | some b => some (b.toNat / Nat.pow 2 (s.pos % 8) % 2, { s with pos := s.pos + 1 })
  | none => none

/-- Takes a number of `count` bits. -/
def bits : Nat → BitStream → Option (Nat × BitStream)
  | 0, s => some (0, s)
  | count + 1, s => do
    let (b, s) ← s.bit
    let (n, s) ← bits count s
    return (b + 2 * n, s)

/-- Drops the bits left in a begun octet. -/
def align (s : BitStream) : BitStream := { s with pos := (s.pos + 7) / 8 * 8 }

end BitStream

/-- A code whose words are numbered by length and then by symbol. -/
structure PrefixCode where
  /-- How many words there are of each length from one up. -/
  counts : List Nat
  /-- The symbols in the order of their words. -/
  symbols : Array Nat

namespace PrefixCode

/-- The greatest length of a word. -/
def maxLength : Nat := 15

/-- The words of all lengths fill their space exactly when this is `2 ^ 15`. -/
def fill (counts : List Nat) : Nat := counts.foldl (fun total n => 2 * (total + n)) 0 / 2

/-- **The code whose words have the given lengths**, zero for symbols without a word. Words must
fill their space, except that a lone word may stand for itself where that is allowed. -/
def ofLengths? (loneWord : Bool) (lengths : List Nat) : Option PrefixCode :=
  let counts := (List.range' 1 maxLength).map fun n => lengths.count n
  let used := counts.foldl (· + ·) 0
  if fill counts = Nat.pow 2 maxLength ∨ (loneWord ∧ used ≤ 1) then
    let numbered := lengths.zipIdx
    let symbols := (List.range' 1 maxLength).flatMap fun n =>
      (numbered.filter fun e => e.1 == n).map (·.2)
    some ⟨counts, symbols.toArray⟩
  else none

/-- Takes the rest of a word: `code` and `first` count words of the present length, `index` the
symbols of shorter words. -/
def take (symbols : Array Nat) : List Nat → Nat → Nat → Nat → BitStream → Option (Nat × BitStream)
  | [], _, _, _, _ => none
  | count :: counts, code, first, index, s => do
    let (b, s) ← s.bit
    let code := code + b
    if code < first + count then
      match symbols[index + (code - first)]? with
      | some symbol => return (symbol, s)
      | none => none
    else take symbols counts (2 * code) (2 * (first + count)) (index + count) s

/-- Takes one symbol. -/
def symbol (c : PrefixCode) (s : BitStream) : Option (Nat × BitStream) :=
  take c.symbols c.counts 0 0 0 s

end PrefixCode

namespace Inflate

/-- The shortest copy of each length symbol, and its extra bits. -/
def lengthTable : Array (Nat × Nat) :=
  #[(3, 0), (4, 0), (5, 0), (6, 0), (7, 0), (8, 0), (9, 0), (10, 0), (11, 1), (13, 1), (15, 1),
    (17, 1), (19, 2), (23, 2), (27, 2), (31, 2), (35, 3), (43, 3), (51, 3), (59, 3), (67, 4),
    (83, 4), (99, 4), (115, 4), (131, 5), (163, 5), (195, 5), (227, 5), (258, 0)]

/-- The smallest distance of each distance symbol, and its extra bits. -/
def distanceTable : Array (Nat × Nat) :=
  #[(1, 0), (2, 0), (3, 0), (4, 0), (5, 1), (7, 1), (9, 2), (13, 2), (17, 3), (25, 3), (33, 4),
    (49, 4), (65, 5), (97, 5), (129, 6), (193, 6), (257, 7), (385, 7), (513, 8), (769, 8),
    (1025, 9), (1537, 9), (2049, 10), (3073, 10), (4097, 11), (6145, 11), (8193, 12), (12289, 12),
    (16385, 13), (24577, 13)]

/-- The order in which the lengths of the code for lengths are sent. -/
def lengthOrder : List Nat := [16, 17, 18, 0, 8, 7, 9, 6, 10, 5, 11, 4, 12, 3, 13, 2, 14, 1, 15]

/-- The lengths of the fixed code for octets and lengths. -/
def fixedLengths : List Nat :=
  List.replicate 144 8 ++ List.replicate 112 9 ++ List.replicate 24 7 ++ List.replicate 8 8

/-- The lengths of the fixed code for distances. -/
def fixedDistances : List Nat := List.replicate 32 5

/-- Repeats output from a distance back. -/
def copyBack (distance : Nat) : Nat → Array UInt8 → Array UInt8
  | 0, out => out
  | count + 1, out => copyBack distance count (out.push (out.getD (out.size - distance) 0))

/-- The symbols of a block up to its end. -/
def symbols (literals distances : PrefixCode) :
    Nat → BitStream → Array UInt8 → Option (BitStream × Array UInt8)
  | 0, _, _ => none
  | fuel + 1, s, out => do
    let (symbol, s) ← literals.symbol s
    if symbol < 256 then symbols literals distances fuel s (out.push (UInt8.ofNat symbol))
    else if symbol = 256 then return (s, out)
    else
      let (base, extra) ← lengthTable[symbol - 257]?
      let (more, s) ← s.bits extra
      let (symbol, s) ← distances.symbol s
      let (near, extra) ← distanceTable[symbol]?
      let (far, s) ← s.bits extra
      let distance := near + far
      if out.size < distance then none
      else symbols literals distances fuel s (copyBack distance (base + more) out)

/-- A stored block: its length twice, once inverted, and its octets. -/
def stored (s : BitStream) (out : Array UInt8) : Option (BitStream × Array UInt8) := do
  let (len, s) ← s.align.bits 16
  let (check, s) ← s.bits 16
  if len + check ≠ 0xFFFF then none
  else
    let start := s.pos / 8
    if s.octets.size < start + len then none
    else return ({ s with pos := s.pos + 8 * len }, out ++ s.octets.extract start (start + len))

/-- Three bits for each length of the code for lengths. -/
def codeLengths : Nat → BitStream → Option (List Nat × BitStream)
  | 0, s => some ([], s)
  | count + 1, s => do
    let (n, s) ← s.bits 3
    let (rest, s) ← codeLengths count s
    return (n :: rest, s)

/-- The lengths of the two codes of a block, newest first, with repetitions. -/
def lengths (code : PrefixCode) (total : Nat) :
    Nat → BitStream → List Nat → Option (List Nat × BitStream)
  | 0, s, acc => if acc.length = total then some (acc, s) else none
  | fuel + 1, s, acc =>
    if total ≤ acc.length then (if acc.length = total then some (acc, s) else none)
    else do
      let (symbol, s) ← code.symbol s
      if symbol < 16 then lengths code total fuel s (symbol :: acc)
      else if symbol = 16 then
        match acc with
        | [] => none
        | previous :: _ =>
          let (n, s) ← s.bits 2
          lengths code total fuel s (List.replicate (3 + n) previous ++ acc)
      else if symbol = 17 then
        let (n, s) ← s.bits 3
        lengths code total fuel s (List.replicate (3 + n) 0 ++ acc)
      else
        let (n, s) ← s.bits 7
        lengths code total fuel s (List.replicate (11 + n) 0 ++ acc)

/-- The two codes that a block brings along. -/
def sentCodes (s : BitStream) : Option ((PrefixCode × PrefixCode) × BitStream) := do
  let (a, s) ← s.bits 5
  let (b, s) ← s.bits 5
  let (c, s) ← s.bits 4
  let literalCount := 257 + a
  let distanceCount := 1 + b
  if 286 < literalCount ∨ 30 < distanceCount then none
  else
    let (sent, s) ← codeLengths (4 + c) s
    let order := lengthOrder.zip sent
    let code ← PrefixCode.ofLengths? false
      ((List.range 19).map fun i => (order.lookup i).getD 0)
    let total := literalCount + distanceCount
    let (newest, s) ← lengths code total total s []
    let all := newest.reverse
    let literals ← PrefixCode.ofLengths? true (all.take literalCount)
    let distances ← PrefixCode.ofLengths? true (all.drop literalCount)
    return ((literals, distances), s)

/-- The blocks of a stream up to the last one. -/
def blocks (symbolFuel : Nat) :
    Nat → BitStream → Array UInt8 → Option (BitStream × Array UInt8)
  | 0, _, _ => none
  | fuel + 1, s, out => do
    let (last, s) ← s.bit
    let (kind, s) ← s.bits 2
    let (s, out) ←
      if kind = 0 then stored s out
      else if kind = 1 then do
        let literals ← PrefixCode.ofLengths? false fixedLengths
        let distances ← PrefixCode.ofLengths? false fixedDistances
        symbols literals distances symbolFuel s out
      else if kind = 2 then do
        let ((literals, distances), s) ← sentCodes s
        symbols literals distances symbolFuel s out
      else none
    if last = 1 then return (s, out) else blocks symbolFuel fuel s out

/-- **The output of a stream of blocks**, and the octets after the stream. Every block and
every symbol takes at least one bit, which bounds the work. -/
def inflate (bs : Bytes) : Option (Bytes × Bytes) := do
  let octets := bs.toArray
  let work := 8 * octets.size + 1
  let (s, out) ← blocks work work ⟨octets, 0⟩ #[]
  return (out.toList, bs.drop (s.align.pos / 8))

end Inflate

end FlowHost
