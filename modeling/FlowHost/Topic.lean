/-!
# Topics of a device

The topics that a device uses under a root, what it subscribes to, and which topic
carries new bundles.
-/

namespace FlowHost

/-- The topics of one device under a root, with further ones to subscribe to. -/
structure TopicLayout where
  root : String
  deviceId : String
  extra : List String
  deriving DecidableEq, Repr

/-- Where an inbound message goes. -/
inductive Route where
  /-- To the loader of new bundles. -/
  | artifact
  /-- To the guest. -/
  | guest
  deriving DecidableEq, Repr

namespace TopicLayout

/-- A topic of the device. -/
def deviceTopic (l : TopicLayout) (suffix : String) : String :=
  l.root ++ "/" ++ l.deviceId ++ "/" ++ suffix

/-- Where the agent announces itself. -/
def hello (l : TopicLayout) : String := l.deviceTopic "fromAgent/hello"

/-- Where new bundles arrive. -/
def flows (l : TopicLayout) : String := l.deviceTopic "toAgent/flows"

/-- Where commands to the device arrive. -/
def command (l : TopicLayout) : String := l.deviceTopic "command"

/-- All that is addressed to the agent. -/
def toAgent (l : TopicLayout) : String := l.deviceTopic "toAgent/#"

/-- The topics subscribed to on every connect. -/
def subscriptions (l : TopicLayout) : List String := l.toAgent :: l.command :: l.extra

/-- **Only the topic of new bundles leads to the loader.** -/
def route (l : TopicLayout) (topic : String) : Route :=
  if topic = l.flows then .artifact else .guest

end TopicLayout

end FlowHost
