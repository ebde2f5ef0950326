import FlowHost.Agent.Console
import FlowHost.Agent.Reception
import FlowHost.CommandLine
import FlowHost.Config.Load
import FlowHost.Guest.Binary
import FlowHost.Instance.Linker
import FlowHost.Json.Values
import FlowHost.Main
import FlowHost.Mqtt
import FlowHost.Native.Stock
import FlowHost.Transport
import FlowHost.Proofs.History
import FlowHost.Proofs.Disk
import FlowHost.Proofs.Register
import FlowHost.Proofs.Leads
import FlowHost.Proofs.Run
import FlowHost.Proofs.Work
import FlowHost.Proofs.Calls
import FlowHost.Proofs.Launch
import FlowHost.Proofs.Swap
import FlowHost.Proofs.Steps
import FlowHost.Proofs.Life
import FlowHost.Proofs.Conduct
import FlowHost.Proofs.Rejection
import FlowHost.Proofs.Handoff
import FlowHost.Proofs.Sending
import FlowHost.Proofs.Activity
import FlowHost.Proofs.Answers
import FlowHost.Proofs.Chronicle
import FlowHost.Proofs.Forwarding
import FlowHost.Proofs.Entrances
import FlowHost.Proofs.Outbox
import FlowHost.Proofs.Passing
import FlowHost.Proofs.Sized
import FlowHost.Proofs.Room
import FlowHost.Proofs.Lasting
import FlowHost.Proofs.Delivery
import FlowHost.Proofs.Connection
import FlowHost.Proofs.Growth
import FlowHost.Proofs.Preparing
import FlowHost.Proofs.Savings
import FlowHost.Proofs.Restart
import FlowHost.Proofs.Spelling
import FlowHost.Proofs.Stable
import FlowHost.Proofs.Tree
import FlowHost.Proofs.Caps
import FlowHost.Proofs.Confinement
import FlowHost.Proofs.Crash
import FlowHost.Proofs.Declarations
import FlowHost.Proofs.Oversight
import FlowHost.Proofs.Provision
import FlowHost.Proofs.Lives
import FlowHost.Proofs.Negotiation
import FlowHost.Proofs.Stores
import FlowHost.Proofs.Overlay
import FlowHost.Proofs.Layers
import FlowHost.Proofs.Queueing
import FlowHost.Proofs.Requests
import FlowHost.Proofs.Rounding
import FlowHost.Proofs.Rational
import FlowHost.Proofs.Casting
import FlowHost.Proofs.Wrapping
import FlowHost.Proofs.Numerals
import FlowHost.Proofs.Grammar
import FlowHost.Proofs.Compact
import FlowHost.Proofs.Records
import FlowHost.Proofs.Quotes
import FlowHost.Proofs.Placeholder
import FlowHost.Proofs.Substitution
import FlowHost.Proofs.Boundaries
import FlowHost.Proofs.Encoders
import FlowHost.Proofs.Texts
import FlowHost.Proofs.Arrays
import FlowHost.Proofs.Lengths
import FlowHost.Proofs.Reencoding
import FlowHost.Proofs.Discipline
import FlowHost.Proofs.Stages
import FlowHost.Proofs.Linking
import FlowHost.Proofs.Instantiation
import FlowHost.Proofs.Verdict
import FlowHost.Proofs.Expansion
import FlowHost.Proofs.Lenient
import FlowHost.Proofs.Framing
import FlowHost.Proofs.Metadata
import FlowHost.Proofs.Replacement
import FlowHost.Proofs.Interruption
import FlowHost.Proofs.Refusal
import FlowHost.Proofs.Exchange
import FlowHost.Proofs.Registration
import FlowHost.Proofs.Resolution
import FlowHost.Proofs.Invocation
import FlowHost.Proofs.Sextets
import FlowHost.Proofs.Transcription
import FlowHost.Proofs.Trimming
import FlowHost.Proofs.Conversation
