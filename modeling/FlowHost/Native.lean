import FlowHost.Memory.Marshal

/-!
# Native functions

Functions of the host that guests import beside the core imports. Each has a signature
over the four types of values that cross the border, and a handler that sees the guest's
memory through the same checked accesses as the core imports.

* `CallM.readText`, `CallM.writeTextAndLength`, …: what a handler can do with the guest.
* `NativeFunction.invoke`: a call, from the guest's values and back to them.
* `NativeTable.register`: a table by name, closed to the names of the core imports.
-/

namespace FlowHost

/-- The types of values that cross the border between guest and host. -/
inductive ValueType where
  | i32 | i64 | f32 | f64
  deriving DecidableEq, Repr

/-- A value that crosses the border. -/
inductive Value where
  | i32 (v : UInt32)
  | i64 (v : UInt64)
  | f32 (v : Single)
  | f64 (v : Double)
  deriving DecidableEq

/-- The types of what a function takes and gives. -/
structure Signature where
  params : List ValueType
  results : List ValueType
  deriving DecidableEq, Repr

namespace ValueType

/-- Every type. -/
def all : List ValueType := [i32, i64, f32, f64]

/-- The name of a type. -/
def name : ValueType → String
  | i32 => "i32" | i64 => "i64" | f32 => "f32" | f64 => "f64"

/-- The name of a type in listings of functions. -/
def label : ValueType → String
  | i32 => "I32" | i64 => "I64" | f32 => "F32" | f64 => "F64"

/-- The type of a name. -/
def ofName? (text : String) : Option ValueType := all.find? fun ty => ty.name == text

/-- The scalar type of the same values. -/
def scalarType : ValueType → ScalarType
  | i32 => .i32 | i64 => .i64 | f32 => .f32 | f64 => .f64

/-- The value of a type whose word is given. -/
def ofWord (n : Nat) : ValueType → Value
  | i32 => .i32 (UInt32.ofNat n)
  | i64 => .i64 (UInt64.ofNat n)
  | f32 => .f32 ⟨UInt32.ofNat n⟩
  | f64 => .f64 ⟨UInt64.ofNat n⟩

end ValueType

namespace Value

/-- The type of a value. -/
def type : Value → ValueType
  | i32 _ => .i32 | i64 _ => .i64 | f32 _ => .f32 | f64 _ => .f64

/-- The scalar with a value's bits. -/
def toScalar : Value → Scalar
  | i32 v => .i32 v.toInt32
  | i64 v => .i64 v.toInt64
  | f32 v => .f32 v
  | f64 v => .f64 v

/-- The value with a scalar's bits. A scalar of another type crosses no border, and zero stands for it. -/
def ofScalar : Scalar → Value
  | .i32 v => i32 v.toUInt32
  | .i64 v => i64 v.toUInt64
  | .f32 v => f32 v
  | .f64 v => f64 v
  | _ => i32 0

/-- A value cut to a word of 32 bits. -/
def low : Value → UInt32
  | i32 v => v
  | i64 v => v.toUInt32
  | f32 v => v.bits
  | f64 v => v.bits.toUInt32

/-- The octets of a value, least significant first. -/
def toBytes (v : Value) : Bytes := v.toScalar.toBytes

/-- A signed word. -/
def ofInt32 (v : Int32) : Value := i32 v.toUInt32

end Value

/-- **A scalar as a value of a type**: cast, and then bit for bit. -/
def ValueType.ofScalar (ty : ValueType) (v : Scalar) : Value := Value.ofScalar (v.cast ty.scalarType)

/-- What a native function leaves for the host's own use. -/
inductive Note where
  | scalars (values : List Scalar)
  | octets (content : Bytes)
  deriving DecidableEq

/-- What native functions put out. -/
structure Output where
  printed : String
  notes : List Note
  deriving DecidableEq

/-- Nothing put out. -/
def Output.empty : Output := ⟨"", []⟩

/-- What a native function works on. -/
structure CallState where
  memory : Memory
  output : Output

/-- The work of a native function. What was written before a failure stays written. -/
abbrev CallM := EStateM Error CallState

namespace CallM

/-- Work on the memory alone. -/
def onMemory {α : Type} (action : MemoryM α) : CallM α := fun s =>
  match action s.memory with
  | .ok a memory => .ok a { s with memory := memory }
  | .error e memory => .error e { s with memory := memory }

/-! What a native function can do with the guest that calls it. -/

/-- The size of the memory. -/
def memorySize : CallM Nat := onMemory MemoryM.size

/-- Reads octets. -/
def readOctets (ptr len : UInt32) : CallM Bytes := onMemory (MemoryM.read ptr len.toNat)

/-- Reads a text strictly. -/
def readText (ptr len : UInt32) : CallM String := onMemory (MemoryM.decodeText ptr len.toNat)

/-- Reads a scalar. -/
def readScalar (ptr : UInt32) (ty : ScalarType) : CallM Scalar :=
  onMemory (MemoryM.decodeScalar ptr ty)

/-- Casts a scalar to a type and writes it. -/
def writeScalar (v : Scalar) (ptr : UInt32) (ty : ScalarType) : CallM Unit :=
  onMemory (MemoryM.encodeScalar v ptr ty)

/-- **Writes a text with its length**, as much of it as fits. -/
def writeTextAndLength (text : String) (ptr capacity slot : UInt32) : CallM Encoded :=
  onMemory (MemoryM.encodeTextAndLength text ptr capacity.toNat slot .u32)

/-! What it puts out. -/

/-- Prints a line. -/
def printLine (text : String) : CallM Unit :=
  modify fun s => { s with output := { s.output with printed := s.output.printed ++ text ++ "\n" } }

/-- Leaves a note. -/
def note (n : Note) : CallM Unit :=
  modify fun s => { s with output := { s.output with notes := s.output.notes ++ [n] } }

end CallM

/-- What a native function does: it is given the device's identifier and its arguments. -/
abbrev Handler := String → List Scalar → CallM (List Scalar)

/-- A native function. -/
structure NativeFunction where
  name : String
  signature : Signature
  handler : Handler

namespace NativeFunction

/-- The listing of types. -/
def types (ts : List ValueType) : String :=
  "[" ++ String.intercalate ", " (ts.map ValueType.label) ++ "]"

/-- The listing of a function. -/
def listing (f : NativeFunction) : String :=
  "RegisteredFunction \x7b name: " ++ Quoted.quote f.name ++ ", params: " ++
    types f.signature.params ++ ", results: " ++ types f.signature.results ++ " \x7d"

/-- **A call**: the handler sees the arguments bit for bit, and as many results as declared are
cast to the declared types. Anything else fails. -/
def invoke (f : NativeFunction) (deviceId : String) (arguments : List Value) :
    CallM (List Value) := do
  let returned ← f.handler deviceId (arguments.map Value.toScalar)
  if returned.length = f.signature.results.length then
    return List.zipWith ValueType.ofScalar f.signature.results returned
  else
    throw (.registration (.wrongCount f.name returned.length f.signature.results.length))

end NativeFunction

/-- The names that the core imports have. -/
def coreNames : List String :=
  ["eea_get_device_id", "eea_get_time", "eea_send_message", "eea_set_message_buffers",
    "eea_sleep", "eea_storage_read", "eea_storage_save", "eea_trace", "memory"]

/-- Native functions by name, in the order of their names. -/
structure NativeTable where
  functions : List NativeFunction

namespace NativeTable

/-- No functions. -/
def empty : NativeTable := ⟨[]⟩

/-- The function of a name. -/
def find? (t : NativeTable) (name : String) : Option NativeFunction :=
  t.functions.find? fun f => f.name == name

/-- A function put in its place among functions in the order of their names. -/
def insert (f : NativeFunction) : List NativeFunction → List NativeFunction
  | [] => [f]
  | g :: rest => if f.name < g.name then f :: g :: rest else g :: insert f rest

/-- **Adds a function**, unless its name is a core import's or taken. -/
def register (t : NativeTable) (f : NativeFunction) : Except Error NativeTable :=
  if coreNames.contains f.name then .error (.registration (.coreName f.name))
  else
    match t.find? f.name with
    | some _ => .error (.registration (.duplicate f.name))
    | none => .ok ⟨insert f t.functions⟩

/-- **Offers a function to a table**: what is answered, and the table afterwards. -/
def offer (t : NativeTable) (f : NativeFunction) : Except Error Unit × NativeTable :=
  match t.register f with
  | .ok t => (.ok (), t)
  | .error e => (.error e, t)

/-- The table after functions were offered to an empty one, one after another. -/
def ofOffers (fs : List NativeFunction) : NativeTable := fs.foldl (fun t f => (t.offer f).2) empty

/-- Adds functions one after another, up to the first refusal. -/
def registerAll (t : NativeTable) : List NativeFunction → Except Error NativeTable
  | [] => .ok t
  | f :: rest => do registerAll (← t.register f) rest

/-- The names in order. -/
def names (t : NativeTable) : List String := t.functions.map (·.name)

end NativeTable

end FlowHost
