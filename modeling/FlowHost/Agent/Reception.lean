import FlowHost.Agent

/-!
# Asking an agent

Any number of handles lead to one agent. What is asked through them waits for room in a bounded queue, the agent takes
from the queue one command at a time, and each request has an answer of its own. Once the agent has ended the queue is
closed, and whatever is in it or waits for room is refused.

Each move is what one party does without waiting, and any of them may be the next. Two things are taken for granted of
the queue: what enters it first is taken first, and whoever asked learns that the request was dropped. Nobody gives up
a request while it waits.

* `Reception.step`: what a move comes to.
* `Reception.run`: any interleaving, from the beginning of the agent.
-/

namespace FlowHost

/-- Whether a command has an answer of its own. Whoever reports an event waits only until it is in the queue. -/
def Command.isRequest : Command → Bool
  | .event _ => false
  | _ => true

/-- Something that was asked, with its number. -/
structure Ticket where
  number : Nat
  command : Command
  deriving DecidableEq, Repr

/-- An answer, with the number of what was asked. -/
structure Answer where
  number : Nat
  result : Except Error Reply

/-- The answer to what was asked. -/
def Ticket.answer (t : Ticket) (result : Except Error Reply) : Answer := ⟨t.number, result⟩

/-- **An agent behind its queue**, with all that was asked of it. -/
structure Reception where
  agent : Agent
  /-- How many handles there are. -/
  handles : Nat
  /-- What waits for room in the queue. -/
  waiting : List Ticket
  /-- What is in the queue, the next first. -/
  queue : List Ticket
  /-- Whether anything can enter the queue. -/
  isOpen : Bool
  /-- The answers so far, oldest first. -/
  answers : List Answer
  /-- All that was asked so far, in the order of its numbers. -/
  asked : List Ticket
  /-- All that entered the queue so far, in its order. -/
  entered : List Ticket
  /-- All that the agent took from the queue so far. -/
  taken : List Ticket
  /-- What happened to the agent so far. -/
  inputs : List Agent.Input

namespace Reception

/-- An agent that begins, with its first handle. -/
def start (s : AgentSettings) (host : Host) : Reception :=
  ⟨Agent.begin s (.fresh host), 1, [], [], true, [], [], [], [], []⟩

/-- What nobody has answered yet. -/
def pending (r : Reception) : List Ticket := r.queue.filter (·.command.isRequest) ++ r.waiting

/-- Makes another handle from one that there is. -/
def clone (r : Reception) : Reception :=
  if r.handles = 0 then r else { r with handles := r.handles + 1 }

/-- Gives up a handle. A request keeps the handle that it was made through. -/
def drop (r : Reception) : Reception :=
  if r.handles = 1 ∧ r.pending ≠ [] then r else { r with handles := r.handles - 1 }

/-- Asks through a handle. Where the queue is closed, that is refused at once. -/
def ask (c : Command) (r : Reception) : Reception :=
  let t : Ticket := ⟨r.asked.length, c⟩
  if r.handles = 0 then r
  else if r.isOpen then { r with asked := r.asked ++ [t], waiting := r.waiting ++ [t] }
  else { r with asked := r.asked ++ [t], answers := r.answers ++ [t.answer (.error .agentStopped)] }

/-- One of those who wait puts a command into the queue, if there is room for it. -/
def enter (s : AgentSettings) (index : Nat) (r : Reception) : Reception :=
  match r.waiting[index]? with
  | none => r
  | some t =>
    if r.queue.length < max s.options.capacity 1 then
      { r with
        waiting := r.waiting.eraseIdx index
        queue := r.queue ++ [t]
        entered := r.entered ++ [t]
        answers := r.answers ++ if t.command.isRequest then [] else [t.answer (.ok .taken)] }
    else r

/-- **The agent takes the next command and handles it.** Whoever requested that is answered then. -/
def take (s : AgentSettings) (r : Reception) : Reception :=
  match r.agent.phase, r.queue with
  | .running, t :: rest =>
    let (result, agent) := Agent.handle s t.command r.agent
    { r with
      agent := agent
      queue := rest
      taken := r.taken ++ [t]
      inputs := r.inputs ++ [.command t.command]
      answers := r.answers ++ if t.command.isRequest then [t.answer result] else [] }
  | _, _ => r

/-- Something happens to the agent that nobody asked for. -/
def occur (s : AgentSettings) (x : Agent.Input) (r : Reception) : Reception :=
  { r with agent := Agent.step s r.agent x, inputs := r.inputs ++ [x] }

/-- The agent finds that nothing is left in the queue, and no handle to put anything into it. -/
def release (s : AgentSettings) (r : Reception) : Reception :=
  if r.handles = 0 ∧ r.queue = [] then r.occur s .release else r

/-- **The queue of an agent that has ended is closed**: all that is in it or waits for room is refused. -/
def close (r : Reception) : Reception :=
  if r.agent.phase = .running ∨ r.isOpen = false then r
  else
    { r with
      isOpen := false
      queue := []
      waiting := []
      answers := r.answers ++ r.pending.map (·.answer (.error .agentStopped)) }

/-- What one of the parties does. -/
inductive Move where
  | clone
  | drop
  | ask (c : Command)
  | enter (index : Nat)
  | take
  | tick (now : Int64)
  | clock (now : UInt64)
  | release
  | close
  deriving DecidableEq, Repr

/-- **What a move comes to.** -/
def step (s : AgentSettings) (r : Reception) : Move → Reception
  | .clone => r.clone
  | .drop => r.drop
  | .ask c => r.ask c
  | .enter index => r.enter s index
  | .take => r.take s
  | .tick now => r.occur s (.tick now)
  | .clock now => r.occur s (.clock now)
  | .release => r.release s
  | .close => r.close

/-- **Any interleaving**, from the beginning of the agent. -/
def run (s : AgentSettings) (host : Host) (moves : List Move) : Reception :=
  moves.foldl (step s) (start s host)

end Reception

end FlowHost
