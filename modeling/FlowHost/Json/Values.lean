import FlowHost.Json.Record
import FlowHost.Message
import FlowHost.Scalar
import FlowHost.Trace

/-!
# JSON forms of messages and scalars

* `QoS.toJson`, `TraceLevel.toJson`, `ScalarType.toJson`: names.
* `Scalar.toJson`: an object whose one member names the type.
* `Message.toJson`: an object with the fields of a message.
-/

namespace FlowHost

/-- The name of a level. -/
def QoS.toJson (q : QoS) : Json := .ofText q.name

/-- Reads the name of a level. -/
def QoS.ofJson? : Json → Option QoS := Json.choice? QoS.name QoS.all

/-- The name of a trace level. -/
def TraceLevel.toJson (l : TraceLevel) : Json := .ofText l.name

/-- Reads the name of a trace level. -/
def TraceLevel.ofJson? : Json → Option TraceLevel := Json.choice? TraceLevel.name TraceLevel.all

/-- The name of a scalar type. -/
def ScalarType.toJson (ty : ScalarType) : Json := .ofText ty.name

/-- Reads the name of a scalar type. -/
def ScalarType.ofJson? : Json → Option ScalarType := Json.choice? ScalarType.name ScalarType.all

/-- The member that holds a scalar of a type. -/
def ScalarType.member (ty : ScalarType) : String :=
  match ty with
  | .bool => "Bool" | .i8 => "I8" | .u8 => "U8" | .i16 => "I16" | .u16 => "U16" | .i32 => "I32"
  | .u32 => "U32" | .f32 => "F32" | .i64 => "I64" | .u64 => "U64" | .f64 => "F64"

namespace Scalar

/-- A scalar's value alone. -/
def valueJson : Scalar → Json
  | bool b => .bool b
  | i8 v => .ofInt v.toInt
  | u8 v => .ofInt v.toNat
  | i16 v => .ofInt v.toInt
  | u16 v => .ofInt v.toNat
  | i32 v => .ofInt v.toInt
  | u32 v => .ofInt v.toNat
  | f32 v => .ofSingle v
  | i64 v => .ofInt v.toInt
  | u64 v => .ofInt v.toNat
  | f64 v => .ofDouble v

/-- A scalar under the name of its type. -/
def toJson (v : Scalar) : Json := .ofMembers [(v.type.member, v.valueJson)]

/-- The integers of a type. -/
def bounds : ScalarType → Int × Int
  | .i8 => (-(Int.pow 2 7), Int.pow 2 7 - 1)
  | .u8 => (0, Int.pow 2 8 - 1)
  | .i16 => (-(Int.pow 2 15), Int.pow 2 15 - 1)
  | .u16 => (0, Int.pow 2 16 - 1)
  | .i32 => (-(Int.pow 2 31), Int.pow 2 31 - 1)
  | .u32 => (0, Int.pow 2 32 - 1)
  | .i64 => (-(Int.pow 2 63), Int.pow 2 63 - 1)
  | .u64 => (0, Int.pow 2 64 - 1)
  | _ => (0, 1)

/-- Reads a value of a type. -/
def ofValueJson? (ty : ScalarType) (j : Json) : Option Scalar :=
  match ty with
  | .bool => j.bool?.map bool
  | .f32 => j.single?.map f32
  | .f64 => j.double?.map f64
  | _ => (j.int? (bounds ty).1 (bounds ty).2).map fun i => ofInt i ty

/-- Reads a scalar under the name of its type. -/
def ofJson? : Json → Option Scalar
  | .object [(some name, value)] =>
    match ScalarType.all.find? fun ty => ty.member == name with
    | some ty => ofValueJson? ty value
    | none => none
  | _ => none

end Scalar

namespace Message

/-- A message's fields. -/
def toJson (m : Message) : Json :=
  .ofMembers [("topic", .ofText m.topic), ("payload", .ofText m.payload), ("qos", m.qos.toJson)]

/-- Reads a message. -/
def ofJson? (j : Json) : Option Message := do
  match ← j.slots? ["topic", "payload", "qos"] with
  | [topic, payload, qos] =>
    return ⟨← Json.required Json.text? topic, ← Json.required Json.text? payload,
      ← Json.required QoS.ofJson? qos⟩
  | _ => none

end Message

end FlowHost
