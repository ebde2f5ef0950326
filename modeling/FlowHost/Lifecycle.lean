/-!
# Lifecycle of an instance

The states that an instance passes through, and the operations that some of
them refuse.
-/

namespace FlowHost

/-- Where an instance stands between calls. -/
inductive Lifecycle where
  /-- Configured; its first export call is still to come. -/
  | instantiated
  | running
  | shuttingDown
  | terminated
  deriving DecidableEq, Repr

/-- The name of a state. -/
def Lifecycle.name : Lifecycle → String
  | instantiated => "instantiated"
  | running => "running"
  | shuttingDown => "shutting down"
  | terminated => "terminated"

/-- The operations on an instance that its state may refuse. -/
inductive Operation where
  | start | tick | deliver | trigger | connection
  deriving DecidableEq, Repr

/-- What an operation does, as refusals put it. -/
def Operation.phrase : Operation → String
  | start => "start"
  | tick => "tick"
  | deliver => "deliver a message"
  | trigger => "fire a direct trigger"
  | connection => "set connection status"

end FlowHost
