import FlowHost.Instance.Launch

/-!
# The linker

What the names of the host's space stand for in one instance. Names are defined one after another: those of the core
imports, those of the native functions, and last the name of the memory that the host provides. No name is defined
twice.

* `Linker.define`: one more name.
* `Linker.ofHost`: all names that the host defines for an instance.
* `Linker.links`: whether all that a module imports is defined, with its type.
* `Linker.call`: a call of what a name stands for.
-/

namespace FlowHost

/-- What a name stands for. -/
inductive Definition where
  | core (name : String) (signature : Signature)
  | native (f : NativeFunction)
  | memory (type : MemoryType)

namespace Definition

/-- The signature of a function. -/
def signature? : Definition → Option Signature
  | core _ signature => some signature
  | native f => some f.signature
  | memory _ => none

/-- The type of a memory. -/
def memoryType? : Definition → Option MemoryType
  | memory type => some type
  | _ => none

/-- A call of what a name stands for; none means that it traps. -/
def call (s : Surroundings) (arguments : List Value) (m : Machine) :
    Definition → Option (List Value) × Machine
  | core name _ =>
    match (Machine.words? arguments).bind (CoreCall.ofWords? name) with
    | some c =>
      let (code, m) := m.callCore s c
      (some [.i32 code], m)
    | none => (none, m)
  | native f => m.callNative s f arguments
  | memory _ => (none, m)

end Definition

/-- Names with what they stand for, oldest first. -/
structure Linker where
  definitions : List (String × Definition)

namespace Linker

/-- No names. -/
def empty : Linker := ⟨[]⟩

/-- What a name stands for. -/
def find? (l : Linker) (name : String) : Option Definition := l.definitions.lookup name

/-- What is said of a name that is taken. -/
def definedTwice (name : String) : String := "import of " ++ hostSpace ++ "::" ++ name ++ " defined twice"

/-- **Defines a name**, unless it is taken. -/
def define (l : Linker) (name : String) (d : Definition) : Except String Linker :=
  match l.find? name with
  | some _ => .error (definedTwice name)
  | none => .ok ⟨l.definitions ++ [(name, d)]⟩

/-- Defines names one after another, up to the first that is taken. -/
def defineAll (l : Linker) : List (String × Definition) → Except String Linker
  | [] => .ok l
  | (name, d) :: rest => do defineAll (← l.define name d) rest

/-- A function of words with a word as its result. -/
def ofWords (name : String) (count : Nat) : String × Definition :=
  (name, .core name ⟨List.replicate count .i32, [.i32]⟩)

/-- The core imports, in the order in which they are defined. -/
def coreDefinitions : List (String × Definition) :=
  [ofWords "eea_get_device_id" 3, ofWords "eea_get_time" 1, ofWords "eea_send_message" 5,
    ofWords "eea_set_message_buffers" 4, ofWords "eea_sleep" 1, ofWords "eea_storage_read" 3,
    ofWords "eea_storage_save" 2, ofWords "eea_trace" 3]

/-- The native functions of a table, in its order. -/
def nativeDefinitions (natives : NativeTable) : List (String × Definition) :=
  natives.functions.map fun f => (f.name, .native f)

/-- The memory that the host provides, if it provides one. -/
def memoryDefinitions (provided : Option MemoryType) : List (String × Definition) :=
  provided.toList.map fun type => (memoryName, .memory type)

/-- **All names that the host defines for an instance.** -/
def ofHost (natives : NativeTable) (provided : Option MemoryType) : Except Error Linker := do
  let core ← (empty.defineAll coreDefinitions).mapError .instantiation
  let functions ← (core.defineAll (nativeDefinitions natives)).mapError
    fun detail => .registration (.other detail)
  (functions.defineAll (memoryDefinitions provided)).mapError .instantiation

/-- Whether an import of a function is defined with its signature. -/
def provides (l : Linker) (i : FunctionImport) : Bool :=
  decide (i.space = hostSpace) && decide ((l.find? i.name).bind Definition.signature? = some i.signature)

/-- Whether an import of a memory is defined with a type that satisfies it. -/
def providesMemory (l : Linker) (i : MemoryImport) : Bool :=
  decide (i.space = hostSpace) &&
    match (l.find? i.name).bind Definition.memoryType? with
    | some type => decide (i.form = .plain) && Module.satisfies type i.type
    | none => false

/-- **Whether all functions and memories that a module imports are defined**, with their types. -/
def links (l : Linker) (m : Module) : Bool :=
  m.imports.all l.provides &&
    (match m.memory with
    | .importedAs space name declared form => l.providesMemory ⟨space, name, declared, form⟩
    | _ => true) &&
    m.further.all l.providesMemory

/-- **Calls what a name stands for.** -/
def call (s : Surroundings) (l : Linker) (name : String) (arguments : List Value) (m : Machine) :
    Option (List Value) × Machine :=
  match l.find? name with
  | some d => d.call s arguments m
  | none => (none, m)

end Linker

end FlowHost
