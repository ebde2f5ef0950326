import FlowHost.Hello
import FlowHost.Instance.Launch

/-!
# The agent

The agent owns the active instance. Commands and ticks are handled one at a time, so no
export is entered while another one runs.

* `Agent.swap`: a bundle replaces the active instance, or is rejected.
* `Agent.handle`: a command, with its reply.
* `Agent.tick`: a step of the active instance.
* `Agent.run`: a whole run, as a fold over what happens to the agent.
-/

namespace FlowHost

/-- What a transport reports. -/
inductive Event where
  | connected
  | disconnected
  | message (topic : String) (payload : Bytes)
  deriving DecidableEq, Repr

/-- What an agent is asked to do. -/
inductive Command where
  | event (e : Event)
  /-- Load a bundle. -/
  | load (content : Bytes)
  /-- Fire a direct trigger. -/
  | trigger (identifier payload : String)
  | info
  | shutdown
  deriving DecidableEq, Repr

/-- What an agent says about itself. -/
structure AgentInfo where
  deviceId : String
  bundle : String
  lifecycle : Option Lifecycle
  isConnected : Bool
  loopIntervalMs : Nat
  ticks : Nat
  instancesCreated : Nat
  rejectedCandidates : Nat
  deriving DecidableEq, Repr

/-- The fields of what an agent says about itself. -/
def AgentInfo.toJson (i : AgentInfo) : Json :=
  .ofMembers [("device_id", .ofText i.deviceId), ("bundle", .ofText i.bundle),
    ("state", Json.orNull (fun l => .ofText l.name) i.lifecycle),
    ("connected", .bool i.isConnected), ("loop_interval_ms", .ofInt i.loopIntervalMs),
    ("ticks", .ofInt i.ticks), ("instances_created", .ofInt i.instancesCreated),
    ("rejected_candidates", .ofInt i.rejectedCandidates)]

/-- The reply to a command. -/
inductive Reply where
  /-- Taken; there is nothing to say. -/
  | taken
  /-- The identifier of the bundle that was loaded. -/
  | loaded (bundle : String)
  | info (i : AgentInfo)
  deriving DecidableEq, Repr

/-- How an agent behaves. -/
structure AgentOptions where
  layout : TopicLayout
  /-- The time between ticks in milliseconds. -/
  loopIntervalMs : Nat
  version : String
  compilerOptions : CompilerOptions
  /-- The bound of the command queue. -/
  capacity : Nat

/-- How an agent behaves unless something else is set. -/
def AgentOptions.standard (layout : TopicLayout) : AgentOptions :=
  ⟨layout, 1000, "1.0.0", .standard, 64⟩

/-- All about an agent that does not change. -/
structure AgentSettings where
  launcher : Launcher
  options : AgentOptions
  /-- Where the last accepted bundle is kept, if it is kept. -/
  bundleFile : Option Path

/-- Whether an agent handles commands. -/
inductive Phase where
  | running
  /-- Shut down in order. -/
  | stopped
  /-- Ended by a crash of the host. -/
  | crashed
  deriving DecidableEq, Repr

/-- An agent with its host. -/
structure Agent where
  host : Host
  active : Option Instance
  isConnected : Bool
  ticks : Nat
  rejected : Nat
  count : LaunchCount
  phase : Phase

namespace Agent

/-- An agent that has not begun. -/
def fresh (host : Host) : Agent := ⟨host, none, false, 0, 0, .zero, .running⟩

/-- The identifier of the active bundle. -/
def bundle (a : Agent) : String := (a.active.map (·.bundle)).getD nullBundle

/-- Queues a request of the agent's own. -/
def queue (a : Agent) (request : Outbound) : Agent := { a with host := a.host.queue none request }

/-- Announces the agent. -/
def sendHello (s : AgentSettings) (a : Agent) : Agent :=
  a.queue (.publish
    ((Hello.make s.options.version a.bundle s.options.compilerOptions).toMessage
      s.options.layout))

/-- Works with the active instance, if there is one; failures are of no consequence. -/
def withActive (a : Agent) (work : Instance → Host → Instance.Outcome) : Agent :=
  match a.active with
  | none => a
  | some i =>
    let outcome := work i a.host
    { a with active := some outcome.after, host := outcome.host }

/-- What the agent says about itself. -/
def info (s : AgentSettings) (a : Agent) : AgentInfo :=
  { deviceId := s.launcher.deviceId
    bundle := a.bundle
    lifecycle := a.active.map (·.lifecycle)
    isConnected := a.isConnected
    loopIntervalMs := s.options.loopIntervalMs
    ticks := a.ticks
    instancesCreated := a.count.created
    rejectedCandidates := a.rejected }

/-- The agent after a candidate was rejected. -/
def reject (a : Agent) : Agent := { a with rejected := a.rejected + 1 }

/-- The agent after the host crashed: whatever it owned is gone. -/
def crash (a : Agent) : Agent := { a with active := none, phase := .crashed }

/-- Shuts down the instance that another one has replaced. -/
def retire (previous : Option Instance) (a : Agent) : Agent :=
  match previous with
  | none => a
  | some i => { a with host := (i.shutdown a.host).host }

/-- Saves a bundle, if bundles are kept; a failure is of no consequence. -/
def persist (s : AgentSettings) (content : Bytes) (a : Agent) : Agent :=
  match s.bundleFile with
  | none => a
  | some path =>
    match a.host.storage.save (.file path) content with
    | (.ok _, storage) =>
      { a with host := { a.host with storage := storage }.record (.persisted content) }
    | (.error _, storage) => { a with host := { a.host with storage := storage } }

/-- **Makes a candidate the active instance**: the previous one is retired before the candidate
starts, so that what it saved last is there. -/
def promote (s : AgentSettings) (candidate : Instance) (content : Bytes) (keep : Bool)
    (a : Agent) : Agent :=
  let previous := a.active
  let a := retire previous { a with active := some candidate }
  let a := a.withActive fun i host => i.start host
  let a := a.withActive fun i host => i.setConnectionStatus host a.isConnected
  let a := if keep then persist s content a else a
  sendHello s a

/-- **Loads a bundle.** A candidate that fails leaves the active instance as it was. -/
def swap (s : AgentSettings) (content : Bytes) (keep : Bool) (a : Agent) :
    Except Error String × Agent :=
  match Bundle.parse content with
  | .error e => (.error e, a.reject)
  | .ok bundle =>
    match s.launcher.launch a.count.attempts bundle a.isConnected a.host with
    | (.error .crashed, host) => (.error .agentStopped, { a with host := host }.crash)
    | (.error (.failed e), host) =>
      (.error e, { a with host := host, count := a.count.add false }.reject)
    | (.ok candidate, host) =>
      (.ok bundle.identifier,
        promote s candidate bundle.raw keep { a with host := host, count := a.count.add true })

/-- **Handles a change of the connection.** -/
def onConnection (s : AgentSettings) (connected : Bool) (a : Agent) : Agent :=
  let a := { a with isConnected := connected }.withActive fun i host =>
    i.setConnectionStatus host connected
  if connected then
    sendHello s (a.queue (.subscribe s.options.layout.subscriptions .atLeastOnce))
  else a

/-- **Handles an event.** Bundles go to the loader, all other messages to the guest. -/
def onEvent (s : AgentSettings) (e : Event) (a : Agent) : Agent :=
  match e with
  | .connected => onConnection s true a
  | .disconnected => onConnection s false a
  | .message topic payload =>
    match s.options.layout.route topic with
    | .artifact => (swap s payload true a).2
    | .guest => a.withActive fun i host => i.deliver host topic (Utf8.decodeLossy payload)

/-- Fires a direct trigger. -/
def fire (identifier payload : String) (a : Agent) : Except Error Unit × Agent :=
  match a.active with
  | none => (.error (.invalidState .noWorkflow), a)
  | some i =>
    let outcome := i.trigger a.host identifier payload
    (outcome.result, { a with active := some outcome.after, host := outcome.host })

/-- Shuts the guest down and queues the disconnect behind its last messages. -/
def stop (a : Agent) : Agent :=
  let a := { retire a.active a with active := none }
  { a.queue .disconnect with phase := .stopped }

/-- **Handles a command.** An agent that does not run answers none. -/
def handle (s : AgentSettings) (c : Command) (a : Agent) : Except Error Reply × Agent :=
  if a.phase = .running then
    match c with
    | .event e => (.ok .taken, onEvent s e a)
    | .load content =>
      let (result, a) := swap s content true a
      (result.map .loaded, a)
    | .trigger identifier payload =>
      let (result, a) := fire identifier payload a
      (result.map fun _ => .taken, a)
    | .info => (.ok (.info (info s a)), a)
    | .shutdown => (.ok .taken, a.stop)
  else (.error .agentStopped, a)

/-- **Lets the active instance advance**, if it runs. -/
def tick (now : Int64) (a : Agent) : Agent :=
  match a.phase, a.active with
  | .running, some i =>
    if i.lifecycle = .running then
      { a with ticks := a.ticks + 1 }.withActive fun i host => i.tick host now
    else a
  | _, _ => a

/-- Loses the last handle: the agent stops on its own. -/
def release (a : Agent) : Agent := if a.phase = .running then a.stop else a

/-- Loads the bundle that was kept, if there is one. It is not saved again. -/
def loadPersisted (s : AgentSettings) (a : Agent) : Agent :=
  match s.bundleFile with
  | none => a
  | some path =>
    match a.host.storage.load (.file path) with
    | .ok (some content) => (swap s content false a).2
    | _ => a

/-- **Begins**: the bundle that was kept is loaded, then the clock starts. A clock cannot tick
without any time between ticks. -/
def begin (s : AgentSettings) (a : Agent) : Agent :=
  let a := loadPersisted s a
  if s.options.loopIntervalMs = 0 then a.crash else a

/-- What happens to an agent. -/
inductive Input where
  | command (c : Command)
  | tick (now : Int64)
  /-- The host's clock moves on. -/
  | clock (now : UInt64)
  /-- The last handle is gone. -/
  | release
  deriving DecidableEq, Repr

/-- What happens to an agent, done. -/
def step (s : AgentSettings) (a : Agent) : Input → Agent
  | .command c => (handle s c a).2
  | .tick now => tick now a
  | .clock now => { a with host := { a.host with clock := now } }
  | .release => a.release

/-- **A run from the beginning.** -/
def run (s : AgentSettings) (host : Host) (inputs : List Input) : Agent :=
  inputs.foldl (step s) (begin s (fresh host))

end Agent

end FlowHost
