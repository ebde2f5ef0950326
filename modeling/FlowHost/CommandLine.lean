import FlowHost.Setting.Environment

/-!
# The command line

The flags and the one option of the program. An option's value may be in the same argument
or in the next; nothing may be given twice, and nothing else may be given.

* `CommandLine.parse`: the arguments as a command line.
-/

namespace FlowHost

/-- What the arguments ask for. -/
structure CommandLine where
  /-- The path of the configuration. -/
  config : Option String
  isVerbose : Bool
  noConsole : Bool
  deriving DecidableEq, Repr

namespace CommandLine

/-- Why there is no command line. -/
inductive Stop where
  | help
  | version
  | unknownArgument
  | invalidValue
  | givenTwice
  /-- A flag is given a value. -/
  | unwantedValue
  deriving DecidableEq, Repr

/-- What an argument names. -/
inductive Name where
  | config | verbose | noConsole | help | version
  deriving DecidableEq, Repr

/-- What a long argument names. -/
def ofLong? : String → Option Name
  | "config" => some .config
  | "verbose" => some .verbose
  | "no-console" => some .noConsole
  | "help" => some .help
  | "version" => some .version
  | _ => none

/-- What a letter names. -/
def ofShort? : Char → Option Name
  | 'c' => some .config
  | 'v' => some .verbose
  | 'h' => some .help
  | 'V' => some .version
  | _ => none

/-- A command line under way. -/
structure Parsing where
  line : CommandLine
  /-- The option whose value is not settled: the value, if it has come. -/
  pending : Option (Option String)

namespace Parsing

/-- Gives the option a value. -/
def give (p : Parsing) (value : String) : Except Stop Parsing :=
  if p.line.config.isSome then .error .givenTwice
  else if value = "" then .error .invalidValue
  else .ok ⟨{ p.line with config := some value }, none⟩

/-- **Settles the value of an option.** -/
def settle (p : Parsing) : Except Stop Parsing :=
  match p.pending with
  | none => .ok p
  | some none => .error .invalidValue
  | some (some value) => p.give value

/-- Takes a name without a value. -/
def take (p : Parsing) (name : Name) : Except Stop Parsing := do
  let p ← p.settle
  match name with
  | .config => .ok { p with pending := some none }
  | .verbose =>
    if p.line.isVerbose then .error .givenTwice
    else .ok { p with line := { p.line with isVerbose := true } }
  | .noConsole =>
    if p.line.noConsole then .error .givenTwice
    else .ok { p with line := { p.line with noConsole := true } }
  | .help => .error .help
  | .version => .error .version

/-- Takes letters in one argument. The option takes what follows as its value, without an
equals sign before it. -/
def letters : List Char → Parsing → Except Stop Parsing
  | [], p => .ok p
  | c :: rest, p =>
    match ofShort? c, rest with
    | none, _ => .error .unknownArgument
    | some .config, '=' :: value => do (← p.settle).give (String.ofList value)
    | some .config, c :: value => do (← p.settle).give (String.ofList (c :: value))
    | some name, rest => do letters rest (← p.take name)

/-- Takes a long argument without its two dashes. -/
def long (p : Parsing) (argument : List Char) : Except Stop Parsing :=
  let word := argument.takeWhile (· ≠ '=')
  match ofLong? (String.ofList word), argument.drop word.length with
  | none, _ => .error .unknownArgument
  | some name, [] => p.take name
  | some .config, _ :: value => do (← p.settle).give (String.ofList value)
  | some _, _ :: _ => .error .unwantedValue

/-- Takes the arguments in order. Nothing may follow two dashes. -/
def arguments : List String → Parsing → Except Stop Parsing
  | [], p => p.settle
  | argument :: rest, p =>
    match argument.toList with
    | ['-', '-'] => if rest.isEmpty then p.settle else .error .unknownArgument
    | '-' :: '-' :: cs => do arguments rest (← p.long cs)
    | '-' :: c :: cs => do arguments rest (← letters (c :: cs) p)
    | _ =>
      match p.pending with
      | some none => arguments rest { p with pending := some (some argument) }
      | _ => .error .unknownArgument

end Parsing

/-- The variable that names the configuration if no argument does. -/
def configVariable : String := "EEA_CONFIG"

/-- **The arguments as a command line**, without the name of the program. -/
def parse (env : Environment) (arguments : List String) : Except Stop CommandLine := do
  let p ← Parsing.arguments arguments ⟨⟨none, false, false⟩, none⟩
  match p.line.config, env.lookup configVariable with
  | none, some value => return (← p.give value).line
  | _, _ => return p.line

end CommandLine

end FlowHost
