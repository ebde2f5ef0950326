/-!
# Guest traces

The levels that guests name by number, and the trace events that reach the log.
-/

namespace FlowHost

/-- The trace levels that a guest can be configured with. -/
inductive TraceLevel where
  | none | error | verbose
  deriving DecidableEq, Repr

namespace TraceLevel

/-- The level of a number; numbers without a level trace nothing. -/
def ofWord (v : Int32) : TraceLevel :=
  if v = 1 then error else if v = 2 then verbose else none

/-- The number of a level. -/
def number : TraceLevel → Nat
  | none => 0
  | error => 1
  | verbose => 2

/-- The word shown for a level. -/
def label : TraceLevel → String
  | none => "NONE"
  | error => "ERROR"
  | verbose => "INFO"

/-- The name of a level. -/
def name : TraceLevel → String
  | none => "None"
  | error => "Error"
  | verbose => "Verbose"

/-- Every level. -/
def all : List TraceLevel := [none, error, verbose]

end TraceLevel

/-- Where a trace event goes in the log. -/
inductive Severity where
  | error
  | info
  /-- Everything else; the guest's own number is kept. -/
  | debug (level : Int32)
  deriving DecidableEq, Repr

/-- The severity of a guest's number. -/
def Severity.ofWord (level : Int32) : Severity :=
  if level = 1 then .error else if level = 2 then .info else .debug level

/-- A line that a guest traced. -/
structure TraceEvent where
  severity : Severity
  deviceId : String
  message : String
  deriving DecidableEq, Repr

/-- The event of a guest's trace call. -/
def TraceEvent.make (deviceId : String) (level : Int32) (message : String) : TraceEvent :=
  ⟨Severity.ofWord level, deviceId, message⟩

end FlowHost
