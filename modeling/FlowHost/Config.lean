import FlowHost.Agent
import FlowHost.Setting
import FlowHost.Text.Blank

/-!
# The configuration of an agent

All that can be set about an agent. What a document leaves out has its standard value.

* `AgentConfig.validate`: what no agent can run with.
* `AgentConfig.ofSetting?`: a table of settings as a configuration.
* `AgentConfig.toJson`, `AgentConfig.ofJson?`: the fields as a JSON document.
-/

namespace FlowHost

/-- The configuration of an agent. -/
structure AgentConfig where
  deviceId : String
  accessKey : Option String
  accessSecret : Option String
  brokerHost : String
  brokerPort : UInt16
  brokerTls : Bool
  keepAliveSecs : UInt64
  /-- The root of every topic of the device. -/
  baseTopic : String
  extraTopics : List String
  /-- Where the last accepted bundle is kept. -/
  artifactPath : Option String
  /-- Where the guest's blob is kept; in memory if nowhere. -/
  storagePath : Option String
  traceLevel : Int32
  debugEnabled : Bool
  topicBufferLength : UInt32
  payloadBufferLength : UInt32
  queueSize : UInt32
  storageSize : UInt32
  storageIntervalMs : UInt32
  loopIntervalMs : UInt64
  memoryPages : UInt32
  maxMemoryPages : UInt32
  agentVersion : String
  exportMemory : Option Bool
  disableDebugMessage : Option Bool
  debugSymbols : Option Bool
  stackSize : Option UInt32
  gzip : Option Bool
  logLevel : String
  deriving DecidableEq, Repr

namespace AgentConfig

/-- What is set where nothing else is. -/
def standard : AgentConfig :=
  let guest := GuestSettings.standard
  { deviceId := ""
    accessKey := none
    accessSecret := none
    brokerHost := "broker.losant.com"
    brokerPort := 8883
    brokerTls := true
    keepAliveSecs := 30
    baseTopic := "losant"
    extraTopics := []
    artifactPath := some "data/eea_bundle.wasm"
    storagePath := some "data/eea_storage.bin"
    traceLevel := guest.traceLevel
    debugEnabled := guest.debugEnabled
    topicBufferLength := guest.topicBufferLength
    payloadBufferLength := guest.payloadBufferLength
    queueSize := guest.queueSize
    storageSize := guest.storageSize
    storageIntervalMs := guest.storageIntervalMs
    loopIntervalMs := 1000
    memoryPages := 8
    maxMemoryPages := 256
    agentVersion := "1.0.0"
    exportMemory := none
    disableDebugMessage := none
    debugSymbols := none
    stackSize := none
    gzip := none
    logLevel := "info" }

/-- **What no agent can run with**: a blank device, no time between ticks, or more pages at the
start than ever. The first fault counts. -/
def validate (c : AgentConfig) : Except ConfigFault Unit :=
  if (trimBlank c.deviceId.toList).isEmpty then .error .deviceIdRequired
  else if c.loopIntervalMs = 0 then .error .loopIntervalZero
  else if c.maxMemoryPages < c.memoryPages then
    .error (.pagesExceed c.memoryPages.toNat c.maxMemoryPages.toNat)
  else .ok ()

/-! What the parts of an agent are told. -/

/-- What guests are told. -/
def guestSettings (c : AgentConfig) : GuestSettings :=
  { debugEnabled := c.debugEnabled
    topicBufferLength := c.topicBufferLength
    payloadBufferLength := c.payloadBufferLength
    queueSize := c.queueSize
    storageIntervalMs := c.storageIntervalMs
    storageSize := c.storageSize
    traceLevel := c.traceLevel }

/-- How instances are made. -/
def instanceConfig (c : AgentConfig) : InstanceConfig :=
  ⟨c.guestSettings, c.memoryPages, c.maxMemoryPages⟩

/-- How bundles should be compiled. -/
def compilerOptions (c : AgentConfig) : CompilerOptions :=
  { traceLevel := c.traceLevel
    exportMemory := c.exportMemory
    disableDebugMessage := c.disableDebugMessage
    debugSymbols := c.debugSymbols
    stackSize := c.stackSize
    gzip := c.gzip }

/-- The topics of the device. -/
def topicLayout (c : AgentConfig) : TopicLayout := ⟨c.baseTopic, c.deviceId, c.extraTopics⟩

/-- How the agent behaves. -/
def agentOptions (c : AgentConfig) : AgentOptions :=
  { AgentOptions.standard c.topicLayout with
    loopIntervalMs := c.loopIntervalMs.toNat
    version := c.agentVersion
    compilerOptions := c.compilerOptions }

/-! From settings. -/

/-- A setting, or its standard value if it is not there. -/
def orStandard {α : Type} (standard : α) (read : Setting → Option α) :
    Option Setting → Option α
  | none => some standard
  | some s => read s

/-- A setting that may be null. -/
def nullable {α : Type} (read : Setting → Option α) : Setting → Option (Option α)
  | .null => some none
  | s => (read s).map some

/-- A setting of 32 bits without a sign. -/
def word? (s : Setting) : Option UInt32 := (s.unsigned? (Nat.pow 2 32 - 1)).map UInt32.ofNat

/-- A setting of 64 bits without a sign. -/
def long? (s : Setting) : Option UInt64 := (s.unsigned? (Nat.pow 2 64 - 1)).map UInt64.ofNat

/-- **A table of settings as a configuration.** Settings that it does not have are of no
account. -/
def ofSetting? (root : Setting) : Option AgentConfig := do
  let get (name : String) : Option Setting := root.entries.lookup name
  let d := standard
  return {
    deviceId := ← orStandard d.deviceId Setting.text? (get "device_id")
    accessKey := ← orStandard d.accessKey (nullable Setting.text?) (get "access_key")
    accessSecret := ← orStandard d.accessSecret (nullable Setting.text?) (get "access_secret")
    brokerHost := ← orStandard d.brokerHost Setting.text? (get "broker_host")
    brokerPort := ← orStandard d.brokerPort
      (fun s => (s.unsigned? (Nat.pow 2 16 - 1)).map UInt16.ofNat) (get "broker_port")
    brokerTls := ← orStandard d.brokerTls Setting.bool? (get "broker_tls")
    keepAliveSecs := ← orStandard d.keepAliveSecs long? (get "keep_alive_secs")
    baseTopic := ← orStandard d.baseTopic Setting.text? (get "base_topic")
    extraTopics := ← orStandard d.extraTopics Setting.texts? (get "extra_topics")
    artifactPath := ← orStandard d.artifactPath (nullable Setting.text?) (get "artifact_path")
    storagePath := ← orStandard d.storagePath (nullable Setting.text?) (get "storage_path")
    traceLevel := ← orStandard d.traceLevel
      (fun s => (s.signed? (-(Int.pow 2 31)) (Int.pow 2 31 - 1)).map Int32.ofInt) (get "trace_level")
    debugEnabled := ← orStandard d.debugEnabled Setting.bool? (get "debug_enabled")
    topicBufferLength := ← orStandard d.topicBufferLength word? (get "topic_buffer_length")
    payloadBufferLength := ← orStandard d.payloadBufferLength word? (get "payload_buffer_length")
    queueSize := ← orStandard d.queueSize word? (get "queue_size")
    storageSize := ← orStandard d.storageSize word? (get "storage_size")
    storageIntervalMs := ← orStandard d.storageIntervalMs word? (get "storage_interval_ms")
    loopIntervalMs := ← orStandard d.loopIntervalMs long? (get "loop_interval_ms")
    memoryPages := ← orStandard d.memoryPages word? (get "memory_pages")
    maxMemoryPages := ← orStandard d.maxMemoryPages word? (get "max_memory_pages")
    agentVersion := ← orStandard d.agentVersion Setting.text? (get "agent_version")
    exportMemory := ← orStandard d.exportMemory (nullable Setting.bool?) (get "export_memory")
    disableDebugMessage := ← orStandard d.disableDebugMessage (nullable Setting.bool?)
      (get "disable_debug_message")
    debugSymbols := ← orStandard d.debugSymbols (nullable Setting.bool?) (get "debug_symbols")
    stackSize := ← orStandard d.stackSize (nullable word?) (get "stack_size")
    gzip := ← orStandard d.gzip (nullable Setting.bool?) (get "gzip")
    logLevel := ← orStandard d.logLevel Setting.text? (get "log_level") }

/-! In JSON. -/

/-- The fields of a configuration. -/
def members (c : AgentConfig) : List (String × Json) :=
  let word (n : UInt32) : Json := .ofInt n.toNat
  [("device_id", .ofText c.deviceId),
    ("access_key", Json.orNull .ofText c.accessKey),
    ("access_secret", Json.orNull .ofText c.accessSecret),
    ("broker_host", .ofText c.brokerHost),
    ("broker_port", .ofInt c.brokerPort.toNat),
    ("broker_tls", .bool c.brokerTls),
    ("keep_alive_secs", .ofInt c.keepAliveSecs.toNat),
    ("base_topic", .ofText c.baseTopic),
    ("extra_topics", .array (c.extraTopics.map .ofText)),
    ("artifact_path", Json.orNull .ofText c.artifactPath),
    ("storage_path", Json.orNull .ofText c.storagePath),
    ("trace_level", .ofInt c.traceLevel.toInt),
    ("debug_enabled", .bool c.debugEnabled),
    ("topic_buffer_length", word c.topicBufferLength),
    ("payload_buffer_length", word c.payloadBufferLength),
    ("queue_size", word c.queueSize),
    ("storage_size", word c.storageSize),
    ("storage_interval_ms", word c.storageIntervalMs),
    ("loop_interval_ms", .ofInt c.loopIntervalMs.toNat),
    ("memory_pages", word c.memoryPages),
    ("max_memory_pages", word c.maxMemoryPages),
    ("agent_version", .ofText c.agentVersion),
    ("export_memory", Json.orNull .bool c.exportMemory),
    ("disable_debug_message", Json.orNull .bool c.disableDebugMessage),
    ("debug_symbols", Json.orNull .bool c.debugSymbols),
    ("stack_size", Json.orNull word c.stackSize),
    ("gzip", Json.orNull .bool c.gzip),
    ("log_level", .ofText c.logLevel)]

/-- The names of the fields, in order. -/
def fields : List String := standard.members.map (·.1)

/-- A configuration as a document. -/
def toJson (c : AgentConfig) : Json := .ofMembers c.members

/-- An unsigned integer of a number of bits. -/
def unsignedJson? (bits : Nat) (j : Json) : Option Nat :=
  (j.int? 0 (Int.pow 2 bits - 1)).map Int.toNat

/-- A field that may be null. -/
def nullableJson {α : Type} (read : Json → Option α) : Json → Option (Option α)
  | .null => some none
  | j => (read j).map some

/-- **Reads a configuration.** A field that is not there has its standard value. -/
def ofJson? (j : Json) : Option AgentConfig := do
  let found := fields.zip (← j.slots? fields)
  let get (name : String) : Option Json := (found.lookup name).join
  let d := standard
  let text (d : String) := Json.withDefault d Json.text?
  let bool (d : Bool) := Json.withDefault d Json.bool?
  let word (d : UInt32) := Json.withDefault d fun j => (unsignedJson? 32 j).map UInt32.ofNat
  let long (d : UInt64) := Json.withDefault d fun j => (unsignedJson? 64 j).map UInt64.ofNat
  let textOrNull (d : Option String) := Json.withDefault d (nullableJson Json.text?)
  let boolOrNull (d : Option Bool) := Json.withDefault d (nullableJson Json.bool?)
  return {
    deviceId := ← text d.deviceId (get "device_id")
    accessKey := ← textOrNull d.accessKey (get "access_key")
    accessSecret := ← textOrNull d.accessSecret (get "access_secret")
    brokerHost := ← text d.brokerHost (get "broker_host")
    brokerPort := ← Json.withDefault d.brokerPort
      (fun j => (unsignedJson? 16 j).map UInt16.ofNat) (get "broker_port")
    brokerTls := ← bool d.brokerTls (get "broker_tls")
    keepAliveSecs := ← long d.keepAliveSecs (get "keep_alive_secs")
    baseTopic := ← text d.baseTopic (get "base_topic")
    extraTopics := ← Json.withDefault d.extraTopics Json.texts? (get "extra_topics")
    artifactPath := ← textOrNull d.artifactPath (get "artifact_path")
    storagePath := ← textOrNull d.storagePath (get "storage_path")
    traceLevel := ← Json.withDefault d.traceLevel
      (fun j => (j.int? (-(Int.pow 2 31)) (Int.pow 2 31 - 1)).map Int32.ofInt) (get "trace_level")
    debugEnabled := ← bool d.debugEnabled (get "debug_enabled")
    topicBufferLength := ← word d.topicBufferLength (get "topic_buffer_length")
    payloadBufferLength := ← word d.payloadBufferLength (get "payload_buffer_length")
    queueSize := ← word d.queueSize (get "queue_size")
    storageSize := ← word d.storageSize (get "storage_size")
    storageIntervalMs := ← word d.storageIntervalMs (get "storage_interval_ms")
    loopIntervalMs := ← long d.loopIntervalMs (get "loop_interval_ms")
    memoryPages := ← word d.memoryPages (get "memory_pages")
    maxMemoryPages := ← word d.maxMemoryPages (get "max_memory_pages")
    agentVersion := ← text d.agentVersion (get "agent_version")
    exportMemory := ← boolOrNull d.exportMemory (get "export_memory")
    disableDebugMessage := ← boolOrNull d.disableDebugMessage (get "disable_debug_message")
    debugSymbols := ← boolOrNull d.debugSymbols (get "debug_symbols")
    stackSize := ← Json.withDefault d.stackSize
      (nullableJson fun j => (unsignedJson? 32 j).map UInt32.ofNat) (get "stack_size")
    gzip := ← boolOrNull d.gzip (get "gzip")
    logLevel := ← text d.logLevel (get "log_level") }

end AgentConfig

end FlowHost
