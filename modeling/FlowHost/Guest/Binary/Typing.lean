import FlowHost.Guest.Binary.Reader

/-!
# Types of function bodies

Whether the instructions of a body find the operands they need. Operands are followed block by
block; after a jump that is always taken anything may be popped.

* `Typing.isWellTyped`: whether a body fits its signature.
-/

namespace FlowHost.Binary.Typing

/-- What a body may refer to. -/
structure Scope where
  types : List Signature
  functions : List Signature
  /-- The type of each global, and whether it may be set. -/
  globals : List (ValueType × Bool)
  /-- The type of each table's places. -/
  tables : List ValueType
  /-- The type of each memory's addresses. -/
  memories : List ValueType
  /-- The number of data segments, if it is announced. -/
  segments : Option Nat

/-- How a block was opened. -/
inductive BlockKind where
  | plain | loop | conditional
  deriving DecidableEq, Repr

/-- An open block with the operands in it, top first. The type of an operand is unknown if it
comes from behind a jump. -/
structure Block where
  kind : BlockKind
  signature : Signature
  operands : List (Option ValueType)
  /-- Whether what follows is never reached. -/
  isDead : Bool

/-- A check under way: the open blocks, innermost first, and the octets to come. -/
structure Check where
  blocks : List Block
  rest : Bytes

/-- A step of a check, which may fail. -/
abbrev CheckM (α : Type) := StateT Check Option α

/-- Reads from the octets to come. -/
def read {α : Type} (reader : Reader α) : CheckM α := do
  let c ← get
  match reader c.rest with
  | some (a, rest) =>
    set { c with rest := rest }
    return a
  | none => failure

/-- Fails unless something holds. -/
def require (holds : Bool) : CheckM Unit := if holds then return else failure

/-- Changes the innermost block. -/
def change {α : Type} (f : Block → Option (Block × α)) : CheckM α := do
  let c ← get
  match c.blocks with
  | [] => failure
  | b :: outer =>
    match f b with
    | some (b, a) =>
      set { c with blocks := b :: outer }
      return a
    | none => failure

/-- Pops an operand of whatever type. -/
def popAny : CheckM (Option ValueType) :=
  change fun b =>
    match b.operands with
    | t :: operands => some ({ b with operands := operands }, t)
    | [] => if b.isDead then some (b, none) else none

/-- Pops an operand of a type. -/
def pop (type : ValueType) : CheckM Unit := do
  let found ← popAny
  require (found.all (· == type))

/-- Pops operands; the last one is on top. -/
def popAll (types : List ValueType) : CheckM Unit := types.reverse.forM pop

/-- Pushes an operand. -/
def push (type : Option ValueType) : CheckM Unit :=
  change fun b => some ({ b with operands := type :: b.operands }, ())

/-- Pushes operands. -/
def pushAll (types : List ValueType) : CheckM Unit := types.forM fun t => push (some t)

/-- Takes operands and gives others. -/
def apply (signature : Signature) : CheckM Unit := do
  popAll signature.params
  pushAll signature.results

/-- What follows is never reached. -/
def leave : CheckM Unit := change fun b => some ({ b with operands := [], isDead := true }, ())

/-- Opens a block. -/
def enter (kind : BlockKind) (signature : Signature) : CheckM Unit := do
  popAll signature.params
  modify fun c => { c with blocks := ⟨kind, signature, [], false⟩ :: c.blocks }
  pushAll signature.params

/-- Closes the innermost block. -/
def close : CheckM Block := do
  let c ← get
  match c.blocks with
  | [] => failure
  | b :: outer =>
    popAll b.signature.results
    require (← change fun b => some (b, b.operands.isEmpty))
    modify fun c => { c with blocks := outer }
    return b

/-- The operands that a jump to a block takes. -/
def jumpTypes (depth : Nat) : CheckM (List ValueType) := do
  match (← get).blocks[depth]? with
  | some b => return if b.kind = .loop then b.signature.params else b.signature.results
  | none => failure

/-- The type of a block. -/
def blockType (s : Scope) : CheckM Signature := do
  match (← get).rest with
  | 0x40 :: rest =>
    modify fun c => { c with rest := rest }
    return ⟨[], []⟩
  | b :: _ =>
    if 0x7c ≤ b.toNat ∧ b.toNat ≤ 0x7f then return ⟨[], [← read valueType]⟩
    else
      match s.types[← read Section.word]? with
      | some signature => return signature
      | none => failure
  | [] => failure

/-- Instructions without immediate operands, by ranges: what they take and what they give. -/
def numericRanges : List (Nat × Nat × List ValueType × ValueType) :=
  [(0x45, 0x45, [.i32], .i32), (0x46, 0x4f, [.i32, .i32], .i32), (0x50, 0x50, [.i64], .i32),
   (0x51, 0x5a, [.i64, .i64], .i32), (0x5b, 0x60, [.f32, .f32], .i32),
   (0x61, 0x66, [.f64, .f64], .i32), (0x67, 0x69, [.i32], .i32), (0x6a, 0x78, [.i32, .i32], .i32),
   (0x79, 0x7b, [.i64], .i64), (0x7c, 0x8a, [.i64, .i64], .i64), (0x8b, 0x91, [.f32], .f32),
   (0x92, 0x98, [.f32, .f32], .f32), (0x99, 0x9f, [.f64], .f64), (0xa0, 0xa6, [.f64, .f64], .f64),
   (0xa7, 0xa7, [.i64], .i32), (0xa8, 0xa9, [.f32], .i32), (0xaa, 0xab, [.f64], .i32),
   (0xac, 0xad, [.i32], .i64), (0xae, 0xaf, [.f32], .i64), (0xb0, 0xb1, [.f64], .i64),
   (0xb2, 0xb3, [.i32], .f32), (0xb4, 0xb5, [.i64], .f32), (0xb6, 0xb6, [.f64], .f32),
   (0xb7, 0xb8, [.i32], .f64), (0xb9, 0xba, [.i64], .f64), (0xbb, 0xbb, [.f32], .f64),
   (0xbc, 0xbc, [.f32], .i32), (0xbd, 0xbd, [.f64], .i64), (0xbe, 0xbe, [.i32], .f32),
   (0xbf, 0xbf, [.i64], .f64), (0xc0, 0xc1, [.i32], .i32), (0xc2, 0xc4, [.i64], .i64)]

/-- The conversions that hold what they give to bounds, by ranges. -/
def boundedRanges : List (Nat × Nat × List ValueType × ValueType) :=
  [(0, 1, [.f32], .i32), (2, 3, [.f64], .i32), (4, 5, [.f32], .i64), (6, 7, [.f64], .i64)]

/-- The instruction of a code, if a range holds it. -/
def ranged? (ranges : List (Nat × Nat × List ValueType × ValueType)) (code : Nat) :
    Option Signature :=
  (ranges.find? fun r => decide (r.1 ≤ code ∧ code ≤ r.2.1)).map fun r => ⟨r.2.2.1, [r.2.2.2]⟩

/-- What is loaded and stored by instructions in order of their codes, with the power of two that
is its width. -/
def accesses : List (ValueType × Nat) :=
  [(.i32, 2), (.i64, 3), (.f32, 2), (.f64, 3), (.i32, 0), (.i32, 0), (.i32, 1), (.i32, 1),
   (.i64, 0), (.i64, 0), (.i64, 1), (.i64, 1), (.i64, 2), (.i64, 2),
   (.i32, 2), (.i64, 3), (.f32, 2), (.f64, 3), (.i32, 0), (.i32, 1), (.i64, 0), (.i64, 1),
   (.i64, 2)]

/-- The code of the first load, and that of the first store. -/
def firstAccess : Nat × Nat := (0x28, 0x36)

/-- The alignment beyond which a load or a store names its memory. -/
def namesMemory : Nat := 64

/-- Something of a list by the index that is read. -/
def indexed {α : Type} (all : List α) : CheckM α := do
  match all[← read Section.word]? with
  | some a => return a
  | none => failure

/-- Checks a load or a store. The offset is read as a long word, whatever the memory's addresses are. -/
def access (s : Scope) (code : Nat) : CheckM Unit := do
  match accesses[code - firstAccess.1]? with
  | none => failure
  | some (type, width) =>
    let flags ← read Section.word
    let memory ← if namesMemory ≤ flags then read Section.word else pure 0
    let alignment := if namesMemory ≤ flags then flags - namesMemory else flags
    let offset ← read longWord
    match s.memories[memory]? with
    | none => failure
    | some address =>
      require (decide (alignment ≤ width ∧ (address = .i64 ∨ offset < Nat.pow 2 32)))
      if code < firstAccess.2 then apply ⟨[address], [type]⟩ else apply ⟨[address, type], []⟩

/-- Checks an instruction of the second page. -/
def extended (s : Scope) : CheckM Unit := do
  let code ← read Section.word
  match ranged? boundedRanges code, code with
  | some signature, _ => apply signature
  | none, 8 =>
    let segment ← read Section.word
    require (s.segments.any fun n => decide (segment < n))
    let address ← indexed s.memories
    apply ⟨[address, .i32, .i32], []⟩
  | none, 9 =>
    let segment ← read Section.word
    require (s.segments.any fun n => decide (segment < n))
  | none, 10 =>
    let target ← indexed s.memories
    let source ← indexed s.memories
    -- the length is a long word only if both addresses are
    apply ⟨[target, source, if target = .i64 then source else target], []⟩
  | none, 11 =>
    let address ← indexed s.memories
    apply ⟨[address, .i32, address], []⟩
  | none, _ => failure

/-- Checks one instruction. -/
def instruction (s : Scope) (locals : List ValueType) (results : List ValueType) :
    CheckM Unit := do
  let code ← read octet
  match code with
  | 0x00 => leave
  | 0x01 => return
  | 0x02 => enter .plain (← blockType s)
  | 0x03 => enter .loop (← blockType s)
  | 0x04 =>
    let signature ← blockType s
    pop .i32
    enter .conditional signature
  | 0x05 =>
    let b ← close
    require (b.kind == .conditional)
    modify fun c => { c with blocks := ⟨.plain, b.signature, [], false⟩ :: c.blocks }
    pushAll b.signature.params
  | 0x0b =>
    let b ← close
    require (b.kind != .conditional || b.signature.params == b.signature.results)
    unless (← get).blocks.isEmpty do pushAll b.signature.results
  | 0x0c =>
    popAll (← jumpTypes (← read Section.word))
    leave
  | 0x0d =>
    pop .i32
    let types ← jumpTypes (← read Section.word)
    apply ⟨types, types⟩
  | 0x0e =>
    pop .i32
    let depths ← read (counted Section.word)
    let last ← jumpTypes (← read Section.word)
    for depth in depths do
      let types ← jumpTypes depth
      require (types.length == last.length)
      let c ← get
      popAll types
      set c
    popAll last
    leave
  | 0x0f =>
    popAll results
    leave
  | 0x10 => apply (← indexed s.functions)
  | 0x11 =>
    let signature ← indexed s.types
    pop (← indexed s.tables)
    apply signature
  | 0x1a => let _ ← popAny
  | 0x1b =>
    pop .i32
    let first ← popAny
    let second ← popAny
    require (first.isNone || second.isNone || first == second)
    push (first.or second)
  | 0x1c =>
    match ← read (counted valueType) with
    | [type] => apply ⟨[type, type, .i32], [type]⟩
    | _ => failure
  | 0x20 => push (some (← indexed locals))
  | 0x21 => pop (← indexed locals)
  | 0x22 =>
    let type ← indexed locals
    apply ⟨[type], [type]⟩
  | 0x23 => push (some (← indexed s.globals).1)
  | 0x24 =>
    let (type, isMutable) ← indexed s.globals
    require isMutable
    pop type
  | 0x3f => apply ⟨[], [← indexed s.memories]⟩
  | 0x40 =>
    let address ← indexed s.memories
    apply ⟨[address], [address]⟩
  | 0x41 =>
    let _ ← read (signedWord 32)
    push (some .i32)
  | 0x42 =>
    let _ ← read (signedWord 64)
    push (some .i64)
  | 0x43 =>
    let _ ← read (Bytes.split? 4)
    push (some .f32)
  | 0x44 =>
    let _ ← read (Bytes.split? 8)
    push (some .f64)
  | 0xfc => extended s
  | code =>
    match ranged? numericRanges code with
    | some signature => apply signature
    | none => if code < firstAccess.1 then failure else access s code

/-- Checks instructions up to the end of the outermost block. -/
def instructions (s : Scope) (locals results : List ValueType) : Nat → CheckM Unit
  | 0 => failure
  | fuel + 1 => do
    if (← get).blocks.isEmpty then require (← get).rest.isEmpty
    else
      instruction s locals results
      instructions s locals results fuel

/-- Reads a number of locals of one type. -/
def localRun : Reader (Nat × ValueType) := fun bs => do
  let (count, bs) ← Section.word bs
  let (type, bs) ← valueType bs
  return ((count, type), bs)

/-- The greatest number of locals. -/
def maxLocals : Nat := 50000

/-- **Whether a body fits its signature.** -/
def isWellTyped (s : Scope) (signature : Signature) (body : Bytes) : Bool :=
  match counted localRun body with
  | none => false
  | some (runs, code) =>
    decide (runs.foldl (fun count run => count + run.1) signature.params.length ≤ maxLocals) &&
      let locals := signature.params ++ runs.flatMap fun r => List.replicate r.1 r.2
      let outermost : Block := ⟨.plain, ⟨[], signature.results⟩, [], false⟩
      ((instructions s locals signature.results (code.length + 1)).run
        ⟨[outermost], code⟩).isSome

end FlowHost.Binary.Typing
