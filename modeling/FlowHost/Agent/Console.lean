import FlowHost.Agent
import FlowHost.Json.Reader
import FlowHost.Text.Blank

/-!
# The console

Lines that an operator types: `info` shows what the agent says about itself, `direct` fires
a trigger with a JSON payload, `exit` and `quit` end the session.

* `Console.parse`: a line as an entry.
* `Console.converse`, `Console.run`: a session, with whoever is asked and with an agent.
-/

namespace FlowHost.Console

/-- What a line asks for. -/
inductive Entry where
  | info
  | direct (identifier payload : String)
  | exit
  deriving DecidableEq, Repr

/-- The characters before the first blank and those after it, if there is one. -/
def splitBlank? : List Char → Option (List Char × List Char)
  | [] => none
  | c :: rest =>
    if isBlank c then some ([], rest)
    else (splitBlank? rest).map fun p => (c :: p.1, p.2)

/-- Whether characters are one document. -/
def isPayload (cs : List Char) : Bool := Json.isDocument (String.ofList cs)

/-- What is said about a trigger without a payload. -/
def usage : String := "usage: direct <trigger-id> <json>"

/-- What follows the word for a trigger, as an entry: an identifier, and after a blank the payload. -/
def parseDirect (rest : List Char) : Except String (Option Entry) :=
  match splitBlank? (trimBlank rest) with
  | none => .error usage
  | some (identifier, payload) =>
    let payload := trimBlank payload
    if isPayload payload then .ok (some (.direct (String.ofList identifier) (String.ofList payload)))
    else .error "payload is not valid JSON"

/-- **A line as an entry**; blank lines ask for nothing, and an error is a sentence. -/
def parse (line : List Char) : Except String (Option Entry) :=
  let line := trimBlank line
  let (word, rest) := (splitBlank? line).getD (line, [])
  if word = [] then .ok none
  else if word = "info".toList then .ok (some .info)
  else if word = "exit".toList ∨ word = "quit".toList then .ok (some .exit)
  else if word = "direct".toList then parseDirect rest
  else .error ("unknown command: " ++ String.ofList word)

/-- Whoever is asked as an agent is, and passes on what is printed for the operator. -/
structure Desk (α : Type) where
  ask : Command → α → Except Error Reply × α
  print : String → α → α

/-- A session: who is asked, and the lines of complaint. -/
structure Session (α : Type) where
  agent : α
  complaints : List String

section

variable {α : Type}

/-- Does what an entry asks for. -/
def perform (d : Desk α) (e : Entry) (session : Session α) : Session α :=
  match e with
  | .exit => session
  | .info =>
    match d.ask .info session.agent with
    | (.ok (.info i), a) => { session with agent := d.print i.toJson.pretty a }
    | (.ok _, a) => { session with agent := a }
    | (.error e, a) => ⟨a, session.complaints ++ [e.message]⟩
  | .direct identifier payload =>
    match d.ask (.trigger identifier payload) session.agent with
    | (.ok _, a) => { session with agent := d.print ("triggered " ++ identifier) a }
    | (.error e, a) =>
      ⟨a, session.complaints ++ ["direct trigger failed: " ++ e.message]⟩

/-- **A session**: lines are done in order, up to the first that ends it. -/
def converse (d : Desk α) : List (List Char) → Session α → Session α
  | [], session => session
  | line :: rest, session =>
    match parse line with
    | .ok none => converse d rest session
    | .ok (some .exit) => session
    | .ok (some e) => converse d rest (perform d e session)
    | .error complaint =>
      converse d rest { session with complaints := session.complaints ++ [complaint] }

end

/-- Prints a line for the operator. -/
def printLine (text : String) (a : Agent) : Agent :=
  { a with host := { a.host with
      output := { a.host.output with printed := a.host.output.printed ++ text ++ "\n" } } }

/-- An agent as it is asked by its operator. -/
def desk (s : AgentSettings) : Desk Agent := ⟨Agent.handle s, printLine⟩

/-- **A session with an agent.** -/
def run (s : AgentSettings) : List (List Char) → Session Agent → Session Agent := converse (desk s)

/-- The lines of a text. -/
def lines (text : String) : List (List Char) :=
  go text.toList
where
  /-- The lines of characters. -/
  go : List Char → List (List Char)
    | [] => []
    | c :: rest =>
      if c = '\n' then [] :: go rest
      else
        match go rest with
        | [] => [[c]]
        | line :: more => (c :: line) :: more

end FlowHost.Console
