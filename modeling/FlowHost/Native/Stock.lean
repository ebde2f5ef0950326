import FlowHost.Native
import FlowHost.Text.Base64

/-!
# Ready-made native functions

The two functions that the agent offers to workflows, and handlers for looking at
guests from outside.

* `agentFunctions`: printing a line, and base 64.
* `Handler.dump`, `Handler.noteArguments`, …: handlers that note what they see.
-/

namespace FlowHost

namespace Handler

/-- An argument as an address, a length or a capacity; zero if it is missing. -/
def word (arguments : List Scalar) (i : Nat) : UInt32 :=
  ((arguments[i]?).map fun v => v.asU64.toUInt32).getD 0

/-- A flag as a result. -/
def flag (b : Bool) : List Scalar := [.i32 (if b then 1 else 0)]

/-- Returns fixed values. -/
def constant (values : List Scalar) : Handler := fun _ _ => return values

/-- Returns the arguments. -/
def arguments : Handler := fun _ args => return args

/-- Notes the arguments. -/
def noteArguments : Handler := fun _ args => do
  CallM.note (.scalars args)
  return [.i32 0]

/-- Fails. -/
def refuse : Handler := fun _ _ => throw (.registration (.other "refused"))

/-- Notes the octets of a region. -/
def dump : Handler := fun _ args => do
  CallM.note (.octets (← CallM.readOctets (word args 0) (word args 1)))
  return [.i32 0]

/-- Writes a text with its length, where the arguments from one on say. -/
def answerText (text : String) (args : List Scalar) (first : Nat) : CallM Encoded :=
  CallM.writeTextAndLength text (word args first) (word args (first + 1)) (word args (first + 2))

/-- Reads a text and writes back what is made of it. -/
def rewrite (change : String → String) : Handler := fun _ args => do
  let encoded ← answerText (change (← CallM.readText (word args 0) (word args 1))) args 2
  return flag encoded.isTruncated

/-- Reads a text and writes it back in capitals of the basic alphabet. -/
def upperCase : Handler := rewrite fun text => String.ofList (text.toList.map Char.toUpper)

/-- Writes the device's identifier. -/
def deviceId : Handler := fun device args => do
  let encoded ← answerText device args 0
  return [.u32 (UInt32.ofNat encoded.written), .u32 (UInt32.ofNat encoded.required)]

/-- Reads a scalar. -/
def readScalar (ty : ScalarType) : Handler := fun _ args => do
  return [← CallM.readScalar (word args 0) ty]

/-- Writes a scalar. -/
def writeScalar (ty : ScalarType) : Handler := fun _ args => do
  CallM.writeScalar ((args[1]?).getD (.i32 0)) (word args 0) ty
  return [.i32 0]

/-- The size of the memory. -/
def memorySize : Handler := fun _ _ => do
  return [.i32 (Int32.ofNat (← CallM.memorySize))]

/-- The handlers that look at a guest from outside. -/
def observers : List Handler :=
  [arguments, noteArguments, refuse, dump, upperCase, deviceId, memorySize] ++
    ScalarType.all.map readScalar ++ ScalarType.all.map writeScalar

/-- Prints a text from memory. -/
def terminalPrint : Handler := fun _ args => do
  CallM.printLine (← CallM.readText (word args 0) (word args 1))
  return [.i32 0]

/-- **Writes a region in base 64**, and says whether it was cut. -/
def base64Encode : Handler := fun _ args => do
  let content ← CallM.readOctets (word args 0) (word args 1)
  let encoded ← answerText (String.ofList (Base64.encode content)) args 2
  return flag encoded.isTruncated

end Handler

/-- A function of words with one word as its result. -/
def NativeFunction.ofWords (name : String) (count : Nat) (handler : Handler) : NativeFunction :=
  ⟨name, ⟨List.replicate count .i32, [.i32]⟩, handler⟩

/-- **The functions that the agent offers.** -/
def agentFunctions : NativeTable :=
  ⟨[.ofWords "eea_fn_base64_encode" 5 Handler.base64Encode,
    .ofWords "eea_fn_terminal_print" 2 Handler.terminalPrint]⟩

end FlowHost
