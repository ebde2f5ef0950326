/-!
# Messages

What travels between a guest, the agent and a publish/subscribe transport.

* `QoS.ofWord`: a guest's word as a quality of service, held to the three levels.
* `Outbound`: the requests that wait for the transport, messages and others in one line.
-/

namespace FlowHost

/-- The quality of service of a message. -/
inductive QoS where
  | atMostOnce | atLeastOnce | exactlyOnce
  deriving DecidableEq, Repr

namespace QoS

/-- A guest's word as a quality of service: what is not positive is the lowest, one is the
middle, all else is the highest. -/
def ofWord (v : Int32) : QoS :=
  if v ≤ 0 then atMostOnce else if v = 1 then atLeastOnce else exactlyOnce

/-- The level as a number. -/
def level : QoS → Nat
  | atMostOnce => 0
  | atLeastOnce => 1
  | exactlyOnce => 2

/-- The name of a level. -/
def name : QoS → String
  | atMostOnce => "AtMostOnce"
  | atLeastOnce => "AtLeastOnce"
  | exactlyOnce => "ExactlyOnce"

/-- Every level. -/
def all : List QoS := [atMostOnce, atLeastOnce, exactlyOnce]

end QoS

/-- A message, in either direction. -/
structure Message where
  topic : String
  payload : String
  qos : QoS
  deriving DecidableEq, Repr

/-- A request that waits for the transport. -/
inductive Outbound where
  | publish (message : Message)
  | subscribe (topics : List String) (qos : QoS)
  /-- Send what waits ahead, disconnect and forward nothing more. -/
  | disconnect
  deriving DecidableEq, Repr

/-- The message of a request, if it is one. -/
def Outbound.message? : Outbound → Option Message
  | .publish m => some m
  | _ => none

end FlowHost
