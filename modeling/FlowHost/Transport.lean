import FlowHost.Error
import FlowHost.Message

/-!
# Transports

A transport takes requests one by one and may refuse each of them. What waits for it
is forwarded in order, and forwarding ends with the first disconnect.

* `Transport.forward`: a queue handed to a transport.
* `Transport.recorder`: a transport that remembers what it is asked to do.
-/

namespace FlowHost

/-- A transport: what a request does to its state, and whether it is taken. -/
structure Transport (σ : Type) where
  perform : Outbound → σ → Except Error Unit × σ

namespace Transport

variable {σ : Type}

/-- **Hands a queue to a transport**, up to and including the first disconnect. A refusal is of
no consequence for what follows. -/
def forward (t : Transport σ) : σ → List Outbound → σ
  | s, [] => s
  | s, .disconnect :: _ => (t.perform .disconnect s).2
  | s, request :: rest => forward t (t.perform request s).2 rest

/-- Hands over requests one by one, whatever they are, with the outcome of each. -/
def performEach (t : Transport σ) : σ → List Outbound → List (Except Error Unit) × σ
  | s, [] => ([], s)
  | s, request :: rest =>
    let (outcome, s) := t.perform request s
    let (outcomes, s) := performEach t s rest
    (outcome :: outcomes, s)

/-- What a recorder has been asked to do. -/
structure Record where
  published : List Message
  subscriptions : List (String × QoS)
  isDisconnected : Bool
  deriving DecidableEq, Repr

/-- Nothing so far. -/
def Record.empty : Record := ⟨[], [], false⟩

/-- What a request adds to a record. -/
def Record.add (r : Record) : Outbound → Record
  | .publish m => { r with published := r.published ++ [m] }
  | .subscribe topics qos =>
    { r with subscriptions := r.subscriptions ++ topics.map fun t => (t, qos) }
  | .disconnect => { r with isDisconnected := true }

/-- **A transport that remembers everything.** After a disconnect it publishes nothing more. -/
def recorder : Transport Record where
  perform request r :=
    match request with
    | .publish m =>
      if r.isDisconnected then (.error (.transport .disconnected), r)
      else (.ok (), r.add (.publish m))
    | request => (.ok (), r.add request)

/-- A transport that refuses some requests outright. -/
def refusing (refuses : Outbound → Bool) (t : Transport σ) : Transport σ where
  perform request s :=
    if refuses request then (.error (.transport (.other "refused")), s) else t.perform request s

end Transport

end FlowHost
