import FlowHost.Agent.Console
import FlowHost.CommandLine
import FlowHost.Config.Load
import FlowHost.Guest.Binary
import FlowHost.Mqtt
import FlowHost.Native.Stock

/-!
# The program

Reads the configuration and runs an agent at the console until the operator ends the session.
Requests to the broker wait in the queue of the client, which this program never connects.
-/

namespace FlowHost.Main

/-- The text that explains the arguments. -/
def usage : String :=
  "Usage: flowhost [-c PATH | --config PATH] [-v | --verbose] [--no-console]\n" ++
  "       flowhost -h | --help | -V | --version"

/-- The name and the version of the program. -/
def version : String := "flowhost 1.0.0"

/-- What is said about arguments that are refused. -/
def complaint : CommandLine.Stop → String
  | .unknownArgument => "unexpected argument"
  | .invalidValue => "a value is missing"
  | .givenTwice => "an argument is given twice"
  | .unwantedValue => "a flag takes no value"
  | .help | .version => ""

/-- The content of a file, if it can be read. -/
def contentOf (path : String) : IO (Option Bytes) := do
  try return some (← IO.FS.readBinFile path).toList
  catch _ => return none

/-- The milliseconds since the epoch: those before the machine was started, and those since. -/
def epochMs : IO Nat := do
  let status := Utf8.decodeLossy ((← contentOf "/proc/stat").getD [])
  let mark := "btime "
  let started := (status.splitOn "\n").findSome? fun line =>
    if line.startsWith mark then readNatural? (line.toList.drop mark.length) else none
  return started.getD 0 * 1000 + (← IO.monoMsNow)

/-- The variables of the process. -/
def environment : IO Environment := do
  let octets := (← contentOf "/proc/self/environ").getD []
  let entries := (Utf8.decodeLossy octets).splitOn "\x00"
  return entries.filterMap fun e =>
    let name := e.toList.takeWhile (· ≠ '=')
    if name.length < e.length then
      some (String.ofList name, String.ofList (e.toList.drop (name.length + 1)))
    else none

/-- A disk that holds some files of the machine. -/
def diskOf (paths : List String) : IO Disk :=
  paths.foldlM (fun disk text => do
    match ← contentOf text with
    | none => return disk
    | some content =>
      let path := Path.ofText text
      let operations := path.parent.prefixes.map Disk.Operation.makeDirectory ++
        [.create path, .fill path content]
      return (Storage.performAll disk operations).1) .empty

/-- A path up to its last slash. -/
def directoryOf (text : String) : List Char :=
  (text.toList.reverse.dropWhile (· ≠ '/')).reverse

/-- Where the content of a file is written before it takes the file's place. -/
def besideOf (text : String) : String :=
  match (Path.ofText text).fileName? with
  | some name =>
    String.ofList (directoryOf text) ++ Path.stem name ++ "." ++ Storage.temporarySuffix
  | none => text

/-- Writes the files that have changed to the machine. -/
def writeBack (paths : List String) (before after : Disk) : IO Unit :=
  paths.forM fun text => do
    let path := Path.ofText text
    match after.read path with
    | .ok content =>
      if (before.read path).toOption ≠ some content then
        let directory := directoryOf text
        unless directory.isEmpty do IO.FS.createDirAll (String.ofList directory)
        IO.FS.writeBinFile (besideOf text) ⟨content.toArray⟩
        IO.FS.rename (besideOf text) text
    | .error _ => return

/-- What the agent is made of. -/
def settingsOf (c : AgentConfig) : AgentSettings :=
  { launcher :=
      { compile := Module.ofBinary?
        deviceId := c.deviceId
        config := c.instanceConfig
        natives := agentFunctions
        blobPlace := match c.storagePath with
          | some text => .file (Path.ofText text)
          | none => .memory }
    options := c.agentOptions
    bundleFile := c.artifactPath.map Path.ofText }

/-- Whether a guest's trace is shown. -/
def isShown (isVerbose : Bool) (t : TraceEvent) : Bool :=
  match t.severity with
  | .debug _ => isVerbose
  | _ => true

/-- Shows what an agent has done to its host: traces, prints and files. -/
def publish (isVerbose : Bool) (paths : List String) (before after : Agent) : IO Unit := do
  let traces := after.host.traces.drop before.host.traces.length
  (traces.filter (isShown isVerbose)).forM fun t => IO.eprintln t.message
  let printed := before.host.output.printed.length
  IO.print (String.ofList (after.host.output.printed.toList.drop printed))
  (← IO.getStdout).flush
  writeBack paths before.host.storage.disk after.host.storage.disk

/-- An agent that is told the time, and ticks if it is due to. -/
def atTime (s : AgentSettings) (isDue : Bool) (agent : Agent) : IO Agent := do
  let now ← epochMs
  let agent := agent.step s (.clock (UInt64.ofNat now))
  return if isDue then agent.step s (.tick (Int64.ofNat now)) else agent

/-- Does the lines of the operator, with a tick before a line where one is due. -/
partial def converse (s : AgentSettings) (isVerbose : Bool) (paths : List String)
    (input : IO.FS.Stream) (due : Nat) (agent : Agent) : IO Agent := do
  let line ← input.getLine
  if line.isEmpty then return agent
  let elapsed ← IO.monoMsNow
  let isDue := decide (due ≤ elapsed)
  let due := if isDue then elapsed + s.options.loopIntervalMs else due
  let words := Console.lines line
  let session := Console.run s words ⟨← atTime s isDue agent, []⟩
  session.complaints.forM fun text => IO.eprintln text
  publish isVerbose paths agent session.agent
  let ends := words.any fun w => Console.parse w matches .ok (some .exit)
  if ends then return session.agent else converse s isVerbose paths input due session.agent

/-- Runs an agent from beginning to end. -/
def run (c : AgentConfig) (isVerbose hasConsole : Bool) : IO Unit := do
  let s := settingsOf c
  let paths := c.storagePath.toList ++ c.artifactPath.toList
  let disk ← diskOf paths
  let fresh ← atTime s false (Agent.fresh (Host.fresh ⟨disk, none⟩))
  let begun ← atTime s true (fresh.begin s)
  publish isVerbose paths fresh begun
  let due := (← IO.monoMsNow) + s.options.loopIntervalMs
  let agent ←
    if hasConsole then converse s isVerbose paths (← IO.getStdin) due begun else pure begun
  let (_, ended) := agent.handle s .shutdown
  publish isVerbose paths agent ended
  let waiting := Mqtt.client.forward [] ended.host.outbound
  IO.eprintln (toString waiting.length ++ " requests wait for the broker")

/-- Does what the arguments ask for; the answer is the exit code. -/
def start (arguments : List String) : IO UInt32 := do
  let env ← environment
  match CommandLine.parse env arguments with
  | .error .help =>
    IO.println usage
    return 0
  | .error .version =>
    IO.println version
    return 0
  | .error stop =>
    IO.eprintln (complaint stop ++ "\n" ++ usage)
    return 2
  | .ok line =>
    let source ← line.config.mapM fun text => do
      return (⟨Path.ofText text, ← contentOf text⟩ : AgentConfig.Source)
    match AgentConfig.load env source with
    | .error fault =>
      IO.eprintln (Error.config fault).message
      return 1
    | .ok c =>
      run c line.isVerbose (!line.noConsole)
      return 0

end FlowHost.Main

/-- The program. -/
def main (arguments : List String) : IO UInt32 := FlowHost.Main.start arguments
