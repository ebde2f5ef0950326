import FlowHost.Guest.Program

/-!
# Modules

A compiled bundle: where its memory comes from, what it imports and exports, what is put
into the memory first, and what runs while it is instantiated.

* `Module.function?`: an export, if it is a function.
* `Source.compile?`: the module of a guest that is given by its programs.
-/

namespace FlowHost

/-- The sizes that a memory may have, in pages. -/
structure MemoryType where
  minimum : Nat
  maximum : Option Nat
  deriving DecidableEq, Repr

/-- What kind of memory it is besides its sizes. -/
structure MemoryForm where
  /-- Whether its addresses are long words. -/
  isLong : Bool
  /-- Whether it may be shared between threads. -/
  isShared : Bool
  deriving DecidableEq, Repr

namespace MemoryForm

/-- Addressed by words, and not shared. -/
def plain : MemoryForm := ⟨false, false⟩

/-- The greatest number of pages that a memory may declare. -/
def reach (f : MemoryForm) : Nat := if f.isLong then Nat.pow 2 48 else maxPages

/-- The number of pages that a memory cannot exceed, given the maximum that it declares. Words reach no more pages
in any case. -/
def most? (f : MemoryForm) (declared : Option Nat) : Option Nat :=
  if f.isLong then declared else some (declared.getD maxPages)

end MemoryForm

/-- Where a module's memory comes from. -/
inductive MemorySource where
  | absent
  /-- Its own, perhaps exported under a name. -/
  | ownAs (type : MemoryType) (exported : Option String) (form : MemoryForm)
  /-- Another module's, by its names. -/
  | importedAs (space name : String) (type : MemoryType) (form : MemoryForm)
  deriving DecidableEq, Repr

namespace MemorySource

/-- A plain memory of its own, perhaps exported under a name. -/
abbrev own (type : MemoryType) (exported : Option String) : MemorySource := ownAs type exported .plain

/-- Another module's plain memory, by its names. -/
abbrev imported (space name : String) (type : MemoryType) : MemorySource :=
  importedAs space name type .plain

/-- What a module declares of its memory. -/
def declaration? : MemorySource → Option (MemoryType × MemoryForm)
  | absent => none
  | ownAs type _ form => some (type, form)
  | importedAs _ _ type form => some (type, form)

end MemorySource

/-- A memory that a module imports, by its names. -/
structure MemoryImport where
  space : String
  name : String
  type : MemoryType
  form : MemoryForm
  deriving DecidableEq, Repr

/-- A memory of a module's own that the host does not know, with what is put into it before
anything runs. -/
structure SpareSource where
  type : MemoryType
  form : MemoryForm
  data : List (Nat × Bytes)
  deriving DecidableEq

/-- References that a module puts into one of its tables before anything runs. -/
structure TableSegment where
  table : Nat
  start : Nat
  count : Nat
  deriving DecidableEq, Repr

/-- A function that a module imports. -/
structure FunctionImport where
  space : String
  name : String
  signature : Signature
  deriving DecidableEq, Repr

/-- What a function does with its arguments. -/
abbrev Body := List Value → Behaviour

/-- Something that a module exports. -/
inductive Export where
  | function (signature : Signature) (body : Body)
  | other

/-- A compiled module. -/
structure Module where
  memory : MemorySource
  imports : List FunctionImport
  exports : List (String × Export)
  /-- What is put into the memory before anything runs. -/
  data : List (Nat × Bytes)
  /-- What runs while the module is instantiated. -/
  start : Option Behaviour
  /-- What the globals hold before anything runs. -/
  globals : List Value := []
  /-- The memories that it imports besides. -/
  further : List MemoryImport := []
  /-- The memories of its own besides. -/
  spares : List SpareSource := []
  /-- The sizes of its tables, in elements. -/
  tables : List MemoryType := []
  /-- What is put into its tables before anything runs. -/
  elements : List TableSegment := []
  /-- What it imports that is neither a function nor a memory, by its names. -/
  foreign : List (String × String) := []

namespace Module

/-- The exported function of a name. -/
def function? (m : Module) (name : String) : Option (Signature × Body) :=
  match m.exports.lookup name with
  | some (.function signature body) => some (signature, body)
  | _ => none

end Module

/-- The name under which hosts and guests share things. -/
def hostSpace : String := "env"

/-- The name of the memory that they share. -/
def memoryName : String := "memory"

/-- A function that a guest exports. -/
inductive Exported where
  | program (signature : Signature) (body : Program)
  /-- A function that is never run. -/
  | stub (signature : Signature)
  | value

/-- A guest given by its programs. They address its memory by words. -/
structure Source where
  memory : MemorySource
  imports : List (String × Signature)
  exports : List (String × Exported)
  data : List (Nat × Bytes)
  start : Option Program

namespace Source

/-- The programs of a guest. -/
def programs (s : Source) : List Program :=
  s.start.toList ++ s.exports.filterMap fun e =>
    match e.2 with
    | .program _ body => some body
    | _ => none

/-- The core imports that are called without being declared. -/
def implied (s : Source) : List (String × Signature) :=
  ((s.programs.flatMap Program.calls).eraseDups.filter fun name =>
      (s.imports.lookup name).isNone).filterMap fun name =>
    (CoreCall.signature? name).map fun signature => (name, signature)

/-- All that a guest imports. -/
def allImports (s : Source) : List (String × Signature) := s.imports ++ s.implied

/-- Whether a memory of a form can have some sizes. One that is shared declares its maximum. -/
def validSizes (form : MemoryForm) (type : MemoryType) : Bool :=
  decide (type.minimum ≤ form.reach) &&
    match type.maximum with
    | some most => decide (type.minimum ≤ most ∧ most ≤ form.reach)
    | none => !form.isShared

/-- Whether the memory can have its sizes. -/
def validMemory (s : Source) : Bool := s.memory.declaration?.all fun d => validSizes d.2 d.1

/-- Whether there is a memory whose addresses are words. -/
def hasMemory (s : Source) : Bool := s.memory.declaration?.any fun d => !d.2.isLong

/-- What a body with parameters may refer to. -/
def scope (s : Source) (params : List ValueType) : Program.Scope :=
  ⟨params, fun name => s.allImports.lookup name, s.hasMemory⟩

/-- The names of the exports, the memory's among them. -/
def exportNames (s : Source) : List String :=
  s.exports.map (·.1) ++
    match s.memory with
    | .ownAs _ (some name) _ => [name]
    | _ => []

/-- Whether a guest makes sense. -/
def isValid (s : Source) : Bool :=
  s.validMemory &&
    (s.data.isEmpty || s.hasMemory) &&
    decide s.exportNames.Nodup &&
    (s.start.toList.all fun body => body.isValid (s.scope [])) &&
    s.exports.all fun e =>
      match e.2 with
      | .program signature body => body.isValid (s.scope signature.params)
      | _ => true

/-- An export as a module has it. -/
def exportOf : Exported → Export
  | .program signature body => .function signature body.behaviour
  | .stub signature => .function signature fun _ => .trap
  | .value => .other

/-- **The module of a guest**, if the guest makes sense. -/
def compile? (s : Source) : Option Module :=
  if s.isValid then
    some
      { memory := s.memory
        imports := s.allImports.map fun i => ⟨hostSpace, i.1, i.2⟩
        exports := s.exports.map fun e => (e.1, exportOf e.2)
        data := s.data
        start := s.start.map fun body => body.behaviour [] }
  else none

end Source

end FlowHost
