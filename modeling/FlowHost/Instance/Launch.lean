import FlowHost.Bundle
import FlowHost.Instance

/-!
# Instantiation

From a bundle to an instance: compiled, given its memory, linked, initialised, looked up and
configured, in this order. The first stage that fails says why.

* `Module.prepare`: the guest's state before anything of it runs.
* `Launcher.launch`: an instance of a bundle.
-/

namespace FlowHost

/-- How instances are made. -/
structure InstanceConfig where
  settings : GuestSettings
  /-- The pages that a memory of the host's starts with. -/
  memoryPages : UInt32
  /-- The pages that no memory exceeds. -/
  maxMemoryPages : UInt32
  deriving DecidableEq, Repr

/-- How instances are made unless something else is set. -/
def InstanceConfig.standard : InstanceConfig := ⟨.standard, 8, 256⟩

/-- Why there is no instance. -/
inductive Abort where
  | failed (e : Error)
  /-- The host asked for a memory that no host can have, and stopped. -/
  | crashed
  deriving DecidableEq

namespace Module

/-- The type of the memory that the host provides for a declared one. What is declared is cut to words. -/
def hostMemoryType (config : InstanceConfig) (declared : MemoryType) : MemoryType :=
  let least := max (UInt32.ofNat declared.minimum).toNat config.memoryPages.toNat
  let most := ((declared.maximum.map UInt32.ofNat).getD config.maxMemoryPages).toNat
  ⟨least, some (max most least)⟩

/-- Whether a memory satisfies a declaration. -/
def satisfies (provided declared : MemoryType) : Bool :=
  decide (declared.minimum ≤ provided.minimum) &&
    match declared.maximum, provided.maximum with
    | none, _ => true
    | some most, some provided => decide (provided ≤ most)
    | some _, none => false

/-- Whether a memory can start. The host makes none that is shared between threads, and of the others those that the
limits allow. -/
def allows (limits : Limits) (type : MemoryType) (form : MemoryForm) : Bool :=
  !form.isShared &&
    limits.allowsMemory (type.minimum * pageSize) ((form.most? type.maximum).map (· * pageSize))

/-- **The memory that the host provides**, where a module imports the shared one. It is a plain one, whatever the form
of the import, and the host stops where words do not reach all of its pages. -/
def hostMemory (config : InstanceConfig) (limits : Limits) (m : Module) :
    Except Abort (Option MemoryType) :=
  match m.memory with
  | .importedAs space name declared _ =>
    if space = hostSpace ∧ name = memoryName then
      let provided := hostMemoryType config declared
      if maxPages < provided.maximum.getD 0 then .error .crashed
      else if allows limits provided .plain then .ok (some provided)
      else .error (.failed (.instantiation "memory allocation failed: denied by the limits"))
    else .ok none
  | _ => .ok none

/-- Whether an import is provided with its signature. -/
def provides (natives : NativeTable) (i : FunctionImport) : Bool :=
  decide (i.space = hostSpace) &&
    match CoreCall.signature? i.name with
    | some signature => decide (signature = i.signature)
    | none =>
      match natives.find? i.name with
      | some f => decide (f.signature = i.signature)
      | none => false

/-- Whether the memory that the host provides satisfies a declaration. -/
def providesMemory (provided : Option MemoryType) (declared : MemoryType) (form : MemoryForm) : Bool :=
  match provided with
  | some provided => decide (form = .plain) && satisfies provided declared
  | none => false

/-- Whether all that a module imports is provided. The host has no memory but the shared one. -/
def links (natives : NativeTable) (provided : Option MemoryType) (m : Module) : Bool :=
  m.imports.all (provides natives) &&
    (match m.memory with
    | .importedAs _ _ declared form => providesMemory provided declared form
    | _ => true) &&
    m.further.all fun i =>
      decide (i.space = hostSpace ∧ i.name = memoryName) && providesMemory provided i.type i.form

/-- The memory that the host may know: its sizes, and its form. -/
def memoryType? (provided : Option MemoryType) (m : Module) : Option (MemoryType × MemoryForm) :=
  match m.memory with
  | .ownAs type _ form => some (type, form)
  | _ => provided.map fun type => (type, .plain)

/-- All memories of an instance. -/
def memoryTypes (provided : Option MemoryType) (m : Module) : List (MemoryType × MemoryForm) :=
  (m.memoryType? provided).toList ++ m.spares.map fun x => (x.type, x.form)

/-- Whether the host knows the memory while the module is instantiated. -/
def isKnown (m : Module) : Bool :=
  match m.memory with
  | .ownAs _ (some name) _ => name = memoryName
  | .importedAs space name _ _ => space = hostSpace ∧ name = memoryName
  | _ => false

/-- Puts segments into a memory, if they all fit. -/
def initialise : Memory → List (Nat × Bytes) → Option Memory
  | memory, [] => some memory
  | memory, (start, content) :: rest =>
    if memory.contains start content.length then initialise (memory.overlay start content) rest
    else none

/-- A memory as it is before anything runs, if all that is put into it fits. -/
def firstMemory (type : MemoryType) (data : List (Nat × Bytes)) : Option Memory :=
  initialise (Memory.filled (type.minimum * pageSize) 0) data

/-- The other memories as they are before anything runs. -/
def firstSpares (m : Module) : Option (List SpareMemory) :=
  m.spares.mapM fun x =>
    (firstMemory x.type x.data).map fun memory => ⟨memory, x.form.most? x.type.maximum⟩

/-- Whether the limits let a table start. -/
def allowsTable (limits : Limits) (type : MemoryType) : Bool :=
  limits.allowsTable type.minimum type.maximum

/-- Whether references fit into their table. -/
def fitsTable (m : Module) (segment : TableSegment) : Bool :=
  match m.tables[segment.table]? with
  | some type => decide (segment.start + segment.count ≤ type.minimum)
  | none => false

/-- A stage that fails as an instantiation. -/
def require (holds : Bool) (detail : String) : Except Abort Unit :=
  if holds then .ok () else .error (.failed (.instantiation detail))

/-- What is said of imports that are not provided. -/
def unlinkedImport : String := "unknown or incompatible import"

/-- What is said of data that do not fit into their memory. -/
def outsideMemory : String := "data segment out of bounds"

/-- **The guest's state before anything of it runs.** -/
def prepare (config : InstanceConfig) (natives : NativeTable) (limits : Limits) (m : Module) :
    Except Abort GuestState := do
  let provided ← m.hostMemory config limits
  require (m.links natives provided) unlinkedImport
  require m.foreign.isEmpty "import of neither a function nor a memory"
  require ((m.memoryTypes provided).all fun x => allows limits x.1 x.2) "memory denied by the limits"
  require (m.tables.all (allowsTable limits)) "table denied by the limits"
  require (m.elements.all m.fitsTable) "element segment out of bounds"
  match m.firstSpares with
  | none => .error (.failed (.instantiation outsideMemory))
  | some spares =>
    match m.memoryType? provided with
    | none => return ⟨none, none, false, .empty, m.globals, spares⟩
    | some (type, form) =>
      match firstMemory type m.data with
      | none => .error (.failed (.instantiation outsideMemory))
      | some memory =>
        return ⟨some memory, form.most? type.maximum, m.isKnown, .empty, m.globals, spares⟩

/-- Runs what a module runs while it is instantiated. -/
def runStart (s : Surroundings) (m : Module) : MachineM Unit := fun machine =>
  match m.start with
  | none => .ok () machine
  | some start =>
    match start.run s machine with
    | (some _, machine) => .ok () machine
    | (none, machine) => .error (.instantiation "start function trapped") machine

/-- Fails if the host does not know the memory. -/
def requireMemory : MachineM Unit := do
  let machine ← get
  if machine.guest.memory.isSome && machine.guest.isKnown then return
  else throw (.exportNotFound memoryName)

end Module

namespace Exports

/-- Calls the setters that are there, forgiving their result codes. -/
def configure (s : Surroundings) (settings : GuestSettings) :
    List (Setter × Body) → MachineM Unit
  | [] => return
  | (setter, body) :: rest => do
    MachineM.tolerant (MachineM.enter s setter.name body (setter.arguments settings))
    configure s settings rest

end Exports

/-- What makes instances: the compiler and all that instances are wired to. -/
structure Launcher where
  compile : Bytes → Option Module
  deviceId : String
  config : InstanceConfig
  natives : NativeTable
  blobPlace : BlobPlace

namespace Launcher

/-- The limits of instances. -/
def limits (l : Launcher) : Limits := Limits.ofPages l.config.maxMemoryPages.toNat

/-- What the imports of an instance know of it. -/
def surroundings (l : Launcher) (instanceId : Nat) : Surroundings :=
  ⟨instanceId, l.deviceId, l.blobPlace, l.natives, l.limits⟩

/-- What is done with a prepared guest before it counts as an instance. -/
def settle (l : Launcher) (s : Surroundings) (m : Module) (connected : Bool) :
    MachineM Exports := do
  m.runStart s
  Module.requireMemory
  let exports ← match Exports.resolve m with
    | .ok exports => pure exports
    | .error e => throw e
  Exports.configure s l.config.settings exports.setters
  MachineM.tolerant (MachineM.enter s EntryPoint.setConnectionStatus.name
    (exports.entry .setConnectionStatus) (Instance.statusArgument connected))
  return exports

/-- **An instance of a bundle.** What the guest did to the host before a failure stays done. -/
def launch (l : Launcher) (instanceId : Nat) (bundle : Bundle) (connected : Bool) (host : Host) :
    Except Abort Instance × Host :=
  match l.compile bundle.binary with
  | none => (.error (.failed (.compilation "invalid module")), host)
  | some m =>
    match m.prepare l.config l.natives l.limits with
    | .error abort => (.error abort, host)
    | .ok guest =>
      let s := l.surroundings instanceId
      match l.settle s m connected ⟨guest, host⟩ with
      | .error e machine => (.error (.failed e), machine.host)
      | .ok exports machine =>
        (.ok ⟨s, bundle.identifier, exports, .instantiated, machine.guest⟩, machine.host)

end Launcher

/-- How many instances were made, and how many were not. -/
structure LaunchCount where
  created : Nat
  failed : Nat
  deriving DecidableEq, Repr

namespace LaunchCount

/-- None yet. -/
def zero : LaunchCount := ⟨0, 0⟩

/-- The number of attempts, which numbers the next instance. -/
def attempts (c : LaunchCount) : Nat := c.created + c.failed

/-- The count after an attempt. -/
def add (c : LaunchCount) (succeeded : Bool) : LaunchCount :=
  if succeeded then { c with created := c.created + 1 } else { c with failed := c.failed + 1 }

end LaunchCount

end FlowHost
