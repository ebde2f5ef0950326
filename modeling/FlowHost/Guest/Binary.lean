import FlowHost.Guest.Binary.Typing

/-!
# Modules in binary form

What the host can tell of a module from its binary alone: its types, what it imports and
exports, its memory and what is put into it. Bodies are checked but stay closed; entering one
traps.

* `Module.ofBinary?`: the module of a binary that is in order.
-/

namespace FlowHost

namespace Binary

/-- The type of a table: what it refers to, and its sizes in elements. -/
structure TableType where
  /-- Whether it refers to functions; all others refer to things of the host's. -/
  isFunction : Bool
  /-- Whether its places are told by long words. -/
  isLong : Bool
  sizes : MemoryType
  deriving DecidableEq, Repr

/-- Reads what references refer to. -/
def reference : Reader Bool := fun bs => do
  let (kind, bs) ← octet bs
  match kind with
  | 0x70 => return (true, bs)
  | 0x6f => return (false, bs)
  | _ => none

/-- Reads a table of references. None is shared. -/
def table : Reader TableType := fun bs => do
  let (isFunction, bs) ← reference bs
  let ((found, form), bs) ← sizes bs
  if form.isShared then none else return (⟨isFunction, form.isLong, found⟩, bs)

/-- Reads the type of a global, and whether it may be set. -/
def globalType : Reader (ValueType × Bool) := fun bs => do
  let (type, bs) ← valueType bs
  let (flag, bs) ← octet bs
  if flag ≤ 1 then return ((type, flag == 1), bs) else none

/-- What a section imports. -/
inductive Item where
  | function (index : Nat)
  | table (type : TableType)
  | memory (type : MemoryType) (form : MemoryForm)
  | global (type : ValueType × Bool)

/-- Reads an import. -/
def importItem : Reader (String × String × Item) := fun bs => do
  let (space, bs) ← name bs
  let (title, bs) ← name bs
  let (kind, bs) ← octet bs
  match kind with
  | 0 =>
    let (index, bs) ← Section.word bs
    return ((space, title, .function index), bs)
  | 1 =>
    let (type, bs) ← table bs
    return ((space, title, .table type), bs)
  | 2 =>
    let ((type, form), bs) ← sizes bs
    return ((space, title, .memory type form), bs)
  | 3 =>
    let (type, bs) ← globalType bs
    return ((space, title, .global type), bs)
  | _ => none

/-- What an export names. -/
inductive Exposed where
  | function | table | memory | global
  deriving DecidableEq, Repr

/-- Reads an export: its name, and what it names by an index. -/
def exportItem : Reader (String × Exposed × Nat) := fun bs => do
  let (title, bs) ← name bs
  let (kind, bs) ← octet bs
  let (index, bs) ← Section.word bs
  let kind : Exposed ← match kind with
    | 0 => some .function
    | 1 => some .table
    | 2 => some .memory
    | 3 => some .global
    | _ => none
  return ((title, kind, index), bs)

/-- Reads a global: its type, and whether it may be set. -/
def global : Reader (ValueType × Bool) := fun bs => do
  let (type, bs) ← globalType bs
  let ((found, _), bs) ← constant bs
  if found = type.1 then return (type, bs) else none

/-- Where a segment is put: in a memory or a table by its number, from an address on. -/
structure Place where
  index : Nat
  /-- The type in which the address is given. -/
  type : ValueType
  start : Nat
  deriving DecidableEq, Repr

/-- Reads the address of a segment in a memory or a table. -/
def place (index : Nat) : Reader Place := fun bs => do
  let ((type, start), bs) ← constant bs
  return (⟨index, type, start⟩, bs)

/-- Reads a segment; it has a place if it is put into a memory from the start. -/
def segment : Reader (Option Place × Bytes) := fun bs => do
  let (kind, bs) ← Section.word bs
  match kind with
  | 0 =>
    let (found, bs) ← place 0 bs
    let (content, bs) ← block bs
    return ((some found, content), bs)
  | 1 =>
    let (content, bs) ← block bs
    return ((none, content), bs)
  | 2 =>
    let (index, bs) ← Section.word bs
    let (found, bs) ← place index bs
    let (content, bs) ← block bs
    return ((some found, content), bs)
  | _ => none

/-- Reads an expression that gives a reference: none, or a function by its number. -/
def referenceConstant (isFunction : Bool) : Reader (Option Nat) := fun bs => do
  let (code, bs) ← octet bs
  let (found, bs) ← match code with
    | 0xd0 => do
      let (kind, bs) ← reference bs
      if kind = isFunction then some (none, bs) else none
    | 0xd2 => do
      let (index, bs) ← Section.word bs
      if isFunction then some (some index, bs) else none
    | _ => none
  match bs with
  | 0x0b :: bs => return (found, bs)
  | _ => none

/-- References that are put into a table, or kept for later. -/
structure References where
  /-- The table and the first place in it, if they are put into one from the start. -/
  place : Option Place
  isFunction : Bool
  /-- The functions by their numbers, and what refers to none. -/
  items : List (Option Nat)

/-- Reads references that are listed by numbers, after what they refer to unless that is left out. -/
def functionNumbers (isShort : Bool) : Reader (Bool × List (Option Nat)) := fun bs => do
  let bs ← if isShort then some bs else
    match bs with
    | 0 :: bs => some bs
    | _ => none
  let (indices, bs) ← counted Section.word bs
  return ((true, indices.map some), bs)

/-- Reads references that are listed as expressions, after what they refer to unless that is left out. -/
def referenceConstants (isShort : Bool) : Reader (Bool × List (Option Nat)) := fun bs => do
  let (isFunction, bs) ← if isShort then some (true, bs) else reference bs
  let (items, bs) ← counted (referenceConstant isFunction) bs
  return ((isFunction, items), bs)

/-- Reads the table and the place that references are put into, the first table unless its number is given. -/
def tablePlace (isExplicit : Bool) : Reader Place := fun bs => do
  let (index, bs) ← if isExplicit then Section.word bs else some (0, bs)
  place index bs

/-- Reads a segment of references. Its kind tells in three bits whether it is kept for later, whether it has
a table of its own, and whether it lists expressions. -/
def referenceSegment : Reader References := fun bs => do
  let (kind, bs) ← Section.word bs
  let isKept := kind % 2 == 1
  let isExplicit := kind / 2 % 2 == 1
  let (found, bs) ←
    if isKept then some (none, bs) else (tablePlace isExplicit bs).map fun r => (some r.1, r.2)
  let isShort := !isKept && !isExplicit
  let ((isFunction, items), bs) ←
    if kind < 4 then functionNumbers isShort bs else referenceConstants isShort bs
  if kind < 8 then return (⟨found, isFunction, items⟩, bs) else none

/-- The place of a section among the others. -/
def rank (id : Nat) : Option Nat :=
  ([1, 2, 3, 4, 5, 13, 6, 7, 8, 9, 12, 10, 11].findIdx? (· == id)).map (· + 1)

/-- The sections of a binary but for custom ones, if they are in order. -/
def sections : Nat → Nat → Bytes → Option (List (Nat × Bytes))
  | 0, _, _ => none
  | _ + 1, _, [] => some []
  | fuel + 1, last, id :: after => do
    let (size, rest) ← Section.word after
    let (body, rest) ← Bytes.split? size rest
    if id = 0 then sections fuel last rest
    else
      let place ← rank id.toNat
      if last < place then return (id.toNat, body) :: (← sections fuel place rest) else none

/-- A section's things; none are there without the section. -/
def contents {α : Type} (read : Reader α) (id : Nat) (all : List (Nat × Bytes)) :
    Option (List α) :=
  match all.lookup id with
  | none => some []
  | some body =>
    match counted read body with
    | some (items, []) => some items
    | _ => none

/-- A section that is one word, if it is there. -/
def single? (id : Nat) (all : List (Nat × Bytes)) : Option (Option Nat) :=
  match all.lookup id with
  | none => some none
  | some body =>
    match Section.word body with
    | some (n, []) => some (some n)
    | _ => none

/-- What the sections of a binary hold. -/
structure Layout where
  types : List Signature
  imports : List (String × String × Item)
  /-- The types of the module's own functions, by index. -/
  declared : List Nat
  tables : List TableType
  memories : List (MemoryType × MemoryForm)
  globals : List (ValueType × Bool)
  exports : List (String × Exposed × Nat)
  start : Option Nat
  references : List References
  /-- The number of segments, if it is announced. -/
  announced : Option Nat
  bodies : List Bytes
  segments : List (Option Place × Bytes)

namespace Layout

/-- Reads the sections of a binary. -/
def ofBinary? (binary : Bytes) : Option Layout :=
  if Section.plainHeader.isPrefixOf binary then do
    let all ← sections (binary.length + 1) 0 (binary.drop Section.plainHeader.length)
    return {
      types := ← contents functionType 1 all
      imports := ← contents importItem 2 all
      declared := ← contents Section.word 3 all
      tables := ← contents table 4 all
      memories := ← contents sizes 5 all
      globals := ← contents global 6 all
      exports := ← contents exportItem 7 all
      start := ← single? 8 all
      references := ← contents referenceSegment 9 all
      announced := ← single? 12 all
      bodies := ← contents block 10 all
      segments := ← contents segment 11 all }
  else none

/-- The functions that a binary imports. -/
def importedFunctions? (l : Layout) : Option (List FunctionImport) :=
  (l.imports.filterMap fun i =>
    match i.2.2 with
    | .function index => some (i.1, i.2.1, index)
    | _ => none).mapM fun i =>
      (l.types[i.2.2]?).map fun signature => ⟨i.1, i.2.1, signature⟩

/-- The memories that a binary imports. -/
def importedMemories (l : Layout) : List MemoryImport :=
  l.imports.filterMap fun i =>
    match i.2.2 with
    | .memory type form => some ⟨i.1, i.2.1, type, form⟩
    | _ => none

/-- The tables that a binary imports. -/
def importedTables (l : Layout) : List TableType :=
  l.imports.filterMap fun i =>
    match i.2.2 with
    | .table type => some type
    | _ => none

/-- The globals that a binary imports. -/
def importedGlobals (l : Layout) : List (ValueType × Bool) :=
  l.imports.filterMap fun i =>
    match i.2.2 with
    | .global type => some type
    | _ => none

/-- The names of the tables and globals that a binary imports. -/
def foreignImports (l : Layout) : List (String × String) :=
  l.imports.filterMap fun i =>
    match i.2.2 with
    | .table _ | .global _ => some (i.1, i.2.1)
    | _ => none

/-- All tables, the imported ones first. -/
def allTables (l : Layout) : List TableType := l.importedTables ++ l.tables

/-- All globals, the imported ones first. -/
def allGlobals (l : Layout) : List (ValueType × Bool) := l.importedGlobals ++ l.globals

/-- The types of the addresses of all memories, those of the imported ones first. -/
def memoryAddresses (l : Layout) : List ValueType :=
  l.importedMemories.map (fun i => addressType i.form.isLong) ++ l.memories.map fun m => addressType m.2.isLong

/-- The types of the places of all tables. -/
def tablePlaces (l : Layout) : List ValueType := l.allTables.map fun t => addressType t.isLong

/-- **The number of the memory that counts**: the one that is imported under the shared names, or
else the one that is exported under the shared name, or else the first. -/
def mainMemory (l : Layout) : Nat :=
  let shared := l.exports.find? fun e => e.2.1 == .memory && e.1 == memoryName
  match l.importedMemories.findIdx? (fun i => i.space == hostSpace && i.name == memoryName) with
  | some index => index
  | none => if l.importedMemories.isEmpty then (shared.map fun e => e.2.2).getD 0 else 0

/-- The memory that counts. -/
def memory (l : Layout) : MemorySource :=
  let titles := l.exports.filter fun e => e.2.1 == .memory && e.2.2 == l.mainMemory
  let title := (titles.find? fun e => e.1 == memoryName).orElse fun _ => titles.head?
  match l.importedMemories[l.mainMemory]? with
  | some i => .importedAs i.space i.name i.type i.form
  | none =>
    match l.memories[l.mainMemory - l.importedMemories.length]? with
    | some (type, form) => .ownAs type (title.map (·.1)) form
    | none => .absent

/-- The memories that are imported besides. -/
def furtherMemories (l : Layout) : List MemoryImport := l.importedMemories.eraseIdx l.mainMemory

/-- What is put into the memory of a number before anything runs. -/
def dataOf (l : Layout) (index : Nat) : List (Nat × Bytes) :=
  l.segments.filterMap fun s =>
    match s.1 with
    | some found => if found.index = index then some (found.start, s.2) else none
    | none => none

/-- What is put into the memory that counts. All memories that the host provides are one. -/
def mainData (l : Layout) : List (Nat × Bytes) :=
  l.segments.filterMap fun s =>
    match s.1 with
    | some found =>
      if found.index = l.mainMemory ∨ found.index < l.importedMemories.length then some (found.start, s.2)
      else none
    | none => none

/-- The memories of a binary's own besides. -/
def spareMemories (l : Layout) : List SpareSource :=
  (l.memories.zipIdx l.importedMemories.length).filterMap fun m =>
    if m.2 = l.mainMemory then none else some ⟨m.1.1, m.1.2, l.dataOf m.2⟩

/-- Whether an export names something that is there. -/
def hasExport (l : Layout) (functions : Nat) (e : String × Exposed × Nat) : Bool :=
  decide (e.2.2 < match e.2.1 with
    | .function => functions
    | .table => l.allTables.length
    | .memory => l.memoryAddresses.length
    | .global => l.allGlobals.length)

/-- Whether references are of the kind that their table holds, and to functions that are there. -/
def hasReferences (l : Layout) (functions : Nat) (r : References) : Bool :=
  (r.items.all fun item => item.all fun index => decide (index < functions)) &&
    r.place.all fun found =>
      (l.allTables[found.index]?.map (·.isFunction)) == some r.isFunction && l.tablePlaces[found.index]? == some found.type

/-- What is put into the tables of a binary's own before anything runs. -/
def elements (l : Layout) : List TableSegment :=
  l.references.filterMap fun r =>
    r.place.map fun found => ⟨found.index - l.importedTables.length, found.start, r.items.length⟩

/-- Whether a table can have its sizes. -/
def isPossible (type : TableType) : Bool :=
  type.sizes.maximum.all fun most => decide (type.sizes.minimum ≤ most)

/-- Whether a binary is in order, given the signatures of its functions and of those that are
its own. -/
def isValid (l : Layout) (signatures own : List Signature) : Bool :=
  let scope : Typing.Scope :=
    ⟨l.types, signatures, l.allGlobals, l.tablePlaces, l.memoryAddresses, l.announced⟩
  l.bodies.length == own.length &&
    ((own.zip l.bodies).all fun f => Typing.isWellTyped scope f.1 f.2) &&
    (l.memories.all fun m => Source.validSizes m.2 m.1) &&
    (l.importedMemories.all fun i => Source.validSizes i.form i.type) &&
    decide (l.exports.map (·.1)).Nodup && l.exports.all (l.hasExport signatures.length) &&
    (l.start.all fun index => signatures[index]? == some ⟨[], []⟩) &&
    (l.announced.all fun n => n == l.segments.length) &&
    (l.segments.all fun s => s.1.all fun found => l.memoryAddresses[found.index]? == some found.type) &&
    l.allTables.all isPossible && l.references.all (l.hasReferences signatures.length)

end Layout

end Binary

namespace Module

/-- **The module of a binary**, if the host can make sense of it. -/
def ofBinary? (binary : Bytes) : Option Module := do
  let l ← Binary.Layout.ofBinary? binary
  let imports ← l.importedFunctions?
  let own ← l.declared.mapM fun index => l.types[index]?
  let signatures := imports.map (·.signature) ++ own
  if l.isValid signatures own then
    return {
      memory := l.memory
      imports := imports
      exports := l.exports.map fun e =>
        (e.1,
          match e.2.1, signatures[e.2.2]? with
          | .function, some signature => .function signature fun _ => .trap
          | _, _ => .other)
      data := l.mainData
      start := l.start.map fun _ => .trap
      further := l.furtherMemories
      spares := l.spareMemories
      tables := l.tables.map (·.sizes)
      elements := l.elements
      foreign := l.foreignImports }
  else none

end Module

end FlowHost
