import FlowHost.Config
import FlowHost.Transport

/-!
# The MQTT client

How the agent presents itself to a broker, and the requests that wait for the connection.

* `Mqtt.Options.ofConfig`: the options of a connection.
* `Mqtt.client`: the transport whose state is the waiting requests.
-/

namespace FlowHost.Mqtt

/-- The options of a connection. -/
structure Options where
  clientId : String
  host : String
  port : UInt16
  keepAliveSecs : UInt64
  /-- The name and the password to log in with. -/
  credentials : Option (String × String)
  /-- The size of a packet in octets that no inbound one exceeds. -/
  maxInbound : Nat
  /-- The size of a packet in octets that no outbound one exceeds. -/
  maxOutbound : Nat
  tls : Bool
  deriving DecidableEq, Repr

/-- **The options of a connection.** There are credentials if both parts of them are set. -/
def Options.ofConfig (c : AgentConfig) : Options :=
  { clientId := c.deviceId
    host := c.brokerHost
    port := c.brokerPort
    keepAliveSecs := c.keepAliveSecs
    credentials := do return (← c.accessKey, ← c.accessSecret)
    maxInbound := 262144
    maxOutbound := 90508
    tls := c.brokerTls }

/-- A request that waits for the connection. -/
inductive Request where
  | publish (message : Message)
  | subscribe (filter : String) (qos : QoS)
  | disconnect
  deriving DecidableEq, Repr

/-- Whether something may be published on a topic: it holds no wildcard. -/
def isTopic (topic : String) : Bool := topic.toList.all fun c => c != '+' && c != '#'

/-- The requests that a request of the agent becomes, if it is taken. -/
def requests? : Outbound → Option (List Request)
  | .publish m => if isTopic m.topic then some [.publish m] else none
  | .subscribe topics qos => some (topics.map fun t => .subscribe t qos)
  | .disconnect => some [.disconnect]

/-- **The client before it is connected**: requests wait in order. -/
def client : Transport (List Request) where
  perform request queue :=
    match requests? request with
    | some more => (.ok (), queue ++ more)
    | none => (.error (.transport (.other "the topic holds a wildcard")), queue)

end FlowHost.Mqtt
