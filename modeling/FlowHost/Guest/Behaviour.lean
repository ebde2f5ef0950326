import FlowHost.Host

/-!
# What guests do

The run of a guest's function, seen from the host: a tree of requests to the memory, the
globals and the imports, each with what follows on every answer, that ends with a word or a
trap. Every function that comes to an end has such a tree.

* `Behaviour.run`: a run on the state of an instance and of the host.
* `Memory.grow`: the growth of a memory, never beyond the limits.
* `Machine.call`: a call of an import.
-/

namespace FlowHost

/-- A request to a memory other than the one that the host knows. -/
inductive Access where
  | pages
  | grow (delta : Nat)
  | load (start width : Nat)
  | store (start : Nat) (content : Bytes)
  deriving DecidableEq, Repr

/-- What a guest's function does. -/
inductive Behaviour where
  /-- Returns a word. -/
  | done (result : UInt32)
  | trap
  /-- Asks for the number of pages of the memory. -/
  | pages (next : Nat → Behaviour)
  /-- Asks for more pages; the answer is the number before, or none if they are refused. -/
  | grow (delta : Nat) (next : Option Nat → Behaviour)
  | load (start width : Nat) (next : Bytes → Behaviour)
  | store (start : Nat) (content : Bytes) (next : Behaviour)
  /-- Turns to one of the other memories; numbers are answered as the octets of a long word. -/
  | spare (index : Nat) (access : Access) (next : Bytes → Behaviour)
  /-- Asks for a global of the guest's own. -/
  | getGlobal (index : Nat) (next : Value → Behaviour)
  | setGlobal (index : Nat) (value : Value) (next : Behaviour)
  /-- Calls an import. -/
  | call (function : String) (arguments : List Value) (next : List Value → Behaviour)

/-- A memory of the guest's own that the host does not know. -/
structure SpareMemory where
  memory : Memory
  /-- The number of pages that the memory cannot exceed, if there is one. -/
  maximum : Option Nat

/-- The state of a guest. -/
structure GuestState where
  /-- The linear memory, if there is one. -/
  memory : Option Memory
  /-- The number of pages that the memory cannot exceed, if there is one. -/
  maximum : Option Nat
  /-- Whether the host knows the memory. -/
  isKnown : Bool
  buffers : BufferRegistry
  /-- The values of the guest's globals, in the order of their numbers. -/
  globals : List Value
  /-- The memories that the host does not know. -/
  spares : List SpareMemory

/-- A guest on its host. -/
structure Machine where
  guest : GuestState
  host : Host

namespace Memory

/-- The number of whole pages. -/
def pages (m : Memory) : Nat := m.size / pageSize

/-- **Grows a memory** by a number of pages, as far as the limits and its own maximum allow. The answer is the
number of pages before. -/
def grow (limits : Limits) (maximum : Option Nat) (delta : Nat) (m : Memory) : Option Nat × Memory :=
  let after := (m.pages + delta) * pageSize
  if delta = 0 then (some m.pages, m)
  else if limits.allowsMemory after (maximum.map (· * pageSize)) then (some m.pages, m.resize after)
  else (none, m)

end Memory

namespace Access

/-- A number as an answer. -/
def number (n : Nat) : Bytes := Bytes.ofNat 8 n

/-- The answer to growth that is refused: all ones. -/
def refused : Bytes := List.replicate 8 0xff

end Access

/-- Turns to a memory that the host does not know; none is a trap. -/
def SpareMemory.access (limits : Limits) (x : SpareMemory) : Access → Option (Bytes × SpareMemory)
  | .pages => some (Access.number x.memory.pages, x)
  | .grow delta =>
    let (answer, memory) := x.memory.grow limits x.maximum delta
    some ((answer.map Access.number).getD Access.refused, { x with memory := memory })
  | .load start width =>
    if x.memory.contains start width then some (x.memory.bytesAt start width, x) else none
  | .store start content =>
    if x.memory.contains start content.length then
      some ([], { x with memory := x.memory.overlay start content })
    else none

namespace Machine

/-- Grows the memory that the host knows. -/
def grow (limits : Limits) (delta : Nat) (m : Machine) : Option Nat × Machine :=
  match m.guest.memory with
  | none => (none, m)
  | some memory =>
    let (answer, memory) := memory.grow limits m.guest.maximum delta
    (answer, { m with guest := { m.guest with memory := some memory } })

/-- Turns to one of the other memories; none is a trap. -/
def access (limits : Limits) (index : Nat) (a : Access) (m : Machine) : Option (Bytes × Machine) := do
  let spare ← m.guest.spares[index]?
  let (answer, spare) ← spare.access limits a
  return (answer, { m with guest := { m.guest with spares := m.guest.spares.set index spare } })

/-- Calls a core import. Until the host knows the memory, those that need it fail. -/
def callCore (s : Surroundings) (c : CoreCall) (m : Machine) : UInt32 × Machine :=
  match m.guest.memory with
  | none => (c.code c.needsMemory, m)
  | some memory =>
    if m.guest.isKnown then
      let (code, state) := c.run s ⟨memory, m.guest.buffers, m.host⟩
      (code,
        { guest := { m.guest with memory := some state.memory, buffers := state.buffers }
          host := state.host })
    else (c.code c.needsMemory, m)

/-- Calls a native function; none means that it traps. -/
def callNative (s : Surroundings) (f : NativeFunction) (arguments : List Value) (m : Machine) :
    Option (List Value) × Machine :=
  match m.guest.memory with
  | none => (none, m)
  | some memory =>
    if m.guest.isKnown then
      let after (state : CallState) : Machine :=
        { guest := { m.guest with memory := some state.memory }
          host := { m.host with output := state.output } }
      match f.invoke s.deviceId arguments ⟨memory, m.host.output⟩ with
      | .ok results state => (some results, after state)
      | .error _ state => (none, after state)
    else (none, m)

/-- The words among values, if all are words. -/
def words? (values : List Value) : Option (List Int32) :=
  values.mapM fun
    | .i32 v => some v.toInt32
    | _ => none

/-- **Calls an import by name**: a core import, or else a native function. -/
def call (s : Surroundings) (function : String) (arguments : List Value) (m : Machine) :
    Option (List Value) × Machine :=
  match (words? arguments).bind (CoreCall.ofWords? function) with
  | some c =>
    let (code, m) := callCore s c m
    (some [.i32 code], m)
  | none =>
    match s.natives.find? function with
    | some f => callNative s f arguments m
    | none => (none, m)

end Machine

namespace Behaviour

/-- **Runs a behaviour.** The result is none after a trap; what was done before it stays. -/
def run (s : Surroundings) : Behaviour → Machine → Option UInt32 × Machine
  | done result, m => (some result, m)
  | trap, m => (none, m)
  | pages next, m =>
    match m.guest.memory with
    | some memory => run s (next memory.pages) m
    | none => (none, m)
  | grow delta next, m =>
    let (answer, m) := m.grow s.limits delta
    run s (next answer) m
  | load start width next, m =>
    match m.guest.memory with
    | some memory =>
      if memory.contains start width then run s (next (memory.bytesAt start width)) m
      else (none, m)
    | none => (none, m)
  | store start content next, m =>
    match m.guest.memory with
    | some memory =>
      if memory.contains start content.length then
        run s next
          { m with guest := { m.guest with memory := some (memory.overlay start content) } }
      else (none, m)
    | none => (none, m)
  | spare index access next, m =>
    match m.access s.limits index access with
    | some (answer, m) => run s (next answer) m
    | none => (none, m)
  | getGlobal index next, m =>
    match m.guest.globals[index]? with
    | some value => run s (next value) m
    | none => (none, m)
  | setGlobal index value next, m =>
    if index < m.guest.globals.length then
      run s next { m with guest := { m.guest with globals := m.guest.globals.set index value } }
    else (none, m)
  | call function arguments next, m =>
    match m.call s function arguments with
    | (some results, m) => run s (next results) m
    | (none, m) => (none, m)

end Behaviour

end FlowHost
