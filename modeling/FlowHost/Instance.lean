import FlowHost.Instance.Exports

/-!
# Instances

A guest that was instantiated and configured, with its place in the lifecycle. Calls of its
exports are entered one at a time; a trap and a result code other than zero are failures of
the call, not of the instance.

* `Instance.start`, `tick`, `deliver`, `trigger`, `setConnectionStatus`, `shutdown`: what
  is done with an instance, each refused where the lifecycle has no place for it.
* `MachineM.enter`: a call of an export.
-/

namespace FlowHost

/-- Work with a guest on its host; what was done before a failure stays done. -/
abbrev MachineM := EStateM Error Machine

namespace MachineM

/-- Records that an export is entered. -/
def recordEntry (s : Surroundings) (name : String) (arguments : List Value)
    (m : Machine) : Machine :=
  { m with
    host := m.host.record
      (.entered s.instanceId name arguments (m.guest.memory.getD (Memory.filled 0 0))) }

/-- Records that an export came to its end. -/
def recordExit (s : Surroundings) (name : String) (result : Option UInt32) (m : Machine) :
    Machine :=
  { m with host := m.host.record (.left s.instanceId name result) }

/-- **Calls an export.** A trap is a failed execution; the result code decides the rest. -/
def enter (s : Surroundings) (name : String) (body : Body) (arguments : List Value) :
    MachineM Unit := fun m =>
  match (body arguments).run s (recordEntry s name arguments m) with
  | (none, m) => .error (.execution (name ++ " trapped")) (recordExit s name none m)
  | (some code, m) =>
    match checkCode name code.toInt32 with
    | .ok _ => .ok () (recordExit s name (some code) m)
    | .error e => .error e (recordExit s name (some code) m)

/-- Forgives the result code of a call. -/
def tolerant (action : MachineM Unit) : MachineM Unit := fun m =>
  match action m with
  | .ok _ m => .ok () m
  | .error e m =>
    match tolerateCode (.error e) with
    | .ok _ => .ok () m
    | .error e => .error e m

end MachineM

/-- An instance. -/
structure Instance where
  surroundings : Surroundings
  bundle : String
  exports : Exports
  lifecycle : Lifecycle
  guest : GuestState

namespace Instance

/-- Whether the guest has announced its buffers. -/
def isNegotiated (i : Instance) : Bool := i.guest.buffers.isNegotiated

/-- The outcome of work with an instance: the instance and the host afterwards. -/
structure Outcome where
  result : Except Error Unit
  after : Instance
  host : Host

/-- Work with the guest of an instance. -/
def onMachine (i : Instance) (host : Host) (action : MachineM Unit) : Outcome :=
  match action ⟨i.guest, host⟩ with
  | .ok _ m => ⟨.ok (), { i with guest := m.guest }, m.host⟩
  | .error e m => ⟨.error e, { i with guest := m.guest }, m.host⟩

/-- Calls an entry point. -/
def call (i : Instance) (host : Host) (e : EntryPoint) (arguments : List Value) : Outcome :=
  i.onMachine host (MachineM.enter i.surroundings e.name (i.exports.entry e) arguments)

/-- A refusal: nothing is done. -/
def refuse (i : Instance) (host : Host) (operation : Operation) : Outcome :=
  ⟨.error (.invalidState (.refused operation i.lifecycle)), i, host⟩

/-- **Starts an instance.** It runs afterwards, whatever its initialisation reports. -/
def start (i : Instance) (host : Host) : Outcome :=
  if i.lifecycle = .instantiated then
    { i with lifecycle := .running }.call host .init []
  else i.refuse host .start

/-- Lets the guest advance by one step. -/
def tick (i : Instance) (host : Host) (now : Int64) : Outcome :=
  if i.lifecycle = .running then i.call host .loop [.i64 now.toUInt64]
  else i.refuse host .tick

/-- Copies two texts into the guest's buffers and calls an entry point with their lengths. -/
def pass (i : Instance) (host : Host) (e : EntryPoint) (first payload : String) : Outcome :=
  match i.guest.buffers.get with
  | .error fault => ⟨.error fault, i, host⟩
  | .ok buffers =>
    match i.guest.memory with
    | none => ⟨.error (.exportNotFound memoryName), i, host⟩
    | some memory =>
      match buffers.write first payload memory with
      | .error fault memory =>
        ⟨.error fault, { i with guest := { i.guest with memory := some memory } }, host⟩
      | .ok (one, two) memory =>
        { i with guest := { i.guest with memory := some memory } }.call host e
          [.i32 (UInt32.ofNat one.written), .i32 (UInt32.ofNat two.written)]

/-- **Delivers a message.** -/
def deliver (i : Instance) (host : Host) (topic payload : String) : Outcome :=
  if i.lifecycle = .running then i.pass host .messageReceived topic payload
  else i.refuse host .deliver

/-- **Fires a direct trigger.** -/
def trigger (i : Instance) (host : Host) (identifier payload : String) : Outcome :=
  if i.lifecycle = .running then i.pass host .directTrigger identifier payload
  else i.refuse host .trigger

/-- The argument that tells a guest whether there is a connection. -/
def statusArgument (connected : Bool) : List Value := [.i32 (if connected then 1 else 0)]

/-- Tells the guest whether there is a connection. -/
def setConnectionStatus (i : Instance) (host : Host) (connected : Bool) : Outcome :=
  match i.lifecycle with
  | .instantiated | .running => i.call host .setConnectionStatus (statusArgument connected)
  | _ => i.refuse host .connection

/-- **Shuts an instance down**, once. It is terminated afterwards, whatever its shutdown
reports. -/
def shutdown (i : Instance) (host : Host) : Outcome :=
  match i.lifecycle with
  | .shuttingDown | .terminated => ⟨.ok (), i, host⟩
  | .instantiated | .running =>
    let outcome := { i with lifecycle := .shuttingDown }.call host .shutdown []
    { outcome with after := { outcome.after with lifecycle := .terminated } }

end Instance

end FlowHost
