import FlowHost.Guest.Behaviour

/-!
# Guest programs

A small language in which guests are written: words, memory accesses, calls of imports,
branches. A program has no loops, so every run of it comes to an end.

* `Program.behaviour`: what a function body does with its arguments.
* `Program.isValid`: whether a body makes sense in its module.
-/

namespace FlowHost

/-- The operations on two words. -/
inductive WordOp where
  | add | sub | mul
  /-- The remainder of unsigned words; by zero it traps. -/
  | rem
  /-- One if the first is less than the second, both unsigned. -/
  | less
  | equal
  deriving DecidableEq, Repr

/-- The result of an operation; none is a trap. -/
def WordOp.apply : WordOp → UInt32 → UInt32 → Option UInt32
  | add, x, y => some (x + y)
  | sub, x, y => some (x - y)
  | mul, x, y => some (x * y)
  | rem, x, y => if y = 0 then none else some (x % y)
  | less, x, y => some (if x < y then 1 else 0)
  | equal, x, y => some (if x = y then 1 else 0)

/-- Expressions; their values are words. -/
inductive Expr where
  | const (value : UInt32)
  /-- A parameter, cut to a word. -/
  | param (index : Nat)
  /-- The first result of the last call so far, or zero. -/
  | last
  /-- The size of the memory in pages. -/
  | pages
  | load8 (start : Expr)
  | load32 (start : Expr)
  | grow (delta : Expr)
  | binary (op : WordOp) (left right : Expr)
  deriving DecidableEq, Repr

/-- An argument of a call. -/
inductive Argument where
  | word (e : Expr)
  | constant (v : Value)
  deriving DecidableEq

/-- Statements. -/
inductive Statement where
  /-- Calls an import and may store its results at an address, eight octets apart. -/
  | call (function : String) (arguments : List Argument) (results : Option Expr)
  | store8 (start value : Expr)
  | store32 (start value : Expr)
  /-- Stores a long parameter. -/
  | store64 (start : Expr) (index : Nat)
  /-- Moves octets from one region to another. -/
  | copy (target source len : Expr)
  | branch (condition : Expr) (yes no : List Statement)
  | give (e : Expr)
  | trap

/-- The body of a function. -/
abbrev Program := List Statement

/-- Little-endian octets as a word. -/
def wordOfBytes (bs : Bytes) : UInt32 := UInt32.ofNat (Bytes.toNat bs)

/-- The word for growth that is refused: all ones. -/
def refusedWord : UInt32 := 0xffffffff

namespace Expr

/-- What an expression does, and what follows with its value. -/
def behaviour (params : List Value) (last : UInt32) : Expr → (UInt32 → Behaviour) → Behaviour
  | const value, next => next value
  | param index, next => next ((params[index]?).map Value.low |>.getD 0)
  | .last, next => next last
  | pages, next => .pages fun n => next (UInt32.ofNat n)
  | load8 start, next =>
    behaviour params last start fun a => .load a.toNat 1 fun bs => next (wordOfBytes bs)
  | load32 start, next =>
    behaviour params last start fun a => .load a.toNat 4 fun bs => next (wordOfBytes bs)
  | grow delta, next =>
    behaviour params last delta fun d =>
      .grow d.toNat fun answer => next ((answer.map UInt32.ofNat).getD refusedWord)
  | binary op left right, next =>
    behaviour params last left fun x => behaviour params last right fun y =>
      match op.apply x y with
      | some v => next v
      | none => .trap

/-- Whether an expression needs a memory. -/
def usesMemory : Expr → Bool
  | const _ | param _ | last => false
  | pages | load8 _ | load32 _ | grow _ => true
  | binary _ left right => usesMemory left || usesMemory right

/-- Whether every parameter that an expression names is there. -/
def isClosed (count : Nat) : Expr → Bool
  | const _ | last | pages => true
  | param index => decide (index < count)
  | load8 e | load32 e | grow e => isClosed count e
  | binary _ left right => isClosed count left && isClosed count right

end Expr

namespace Argument

/-- The type of an argument. -/
def type : Argument → ValueType
  | word _ => .i32
  | constant v => v.type

/-- The expression in an argument. -/
def expr? : Argument → Option Expr
  | word e => some e
  | constant _ => none

/-- The values of arguments, and what follows with them. -/
def behaviours (params : List Value) (last : UInt32) :
    List Argument → (List Value → Behaviour) → Behaviour
  | [], next => next []
  | word e :: rest, next =>
    e.behaviour params last fun v => behaviours params last rest fun vs => next (.i32 v :: vs)
  | constant v :: rest, next => behaviours params last rest fun vs => next (v :: vs)

end Argument

namespace Program

/-- Stores results eight octets apart. -/
def storeResults (params : List Value) (last : UInt32) (start : Expr) :
    Nat → List Value → Behaviour → Behaviour
  | _, [], next => next
  | k, v :: rest, next =>
    start.behaviour params last fun a =>
      .store (a.toNat + 8 * k) v.toBytes (storeResults params last start (k + 1) rest next)

/-- The word that a call leaves behind. -/
def lastAfter (last : UInt32) : List Value → UInt32
  | .i32 v :: _ => v
  | _ => last

mutual

/-- What a statement does, and what follows with the last word. -/
def statement (params : List Value) (last : UInt32) :
    Statement → (UInt32 → Behaviour) → Behaviour
  | .call function arguments results, next =>
    Argument.behaviours params last arguments fun values =>
      .call function values fun given =>
        let last := lastAfter last given
        match results with
        | some start => storeResults params last start 0 given (next last)
        | none => next last
  | .store8 start value, next =>
    start.behaviour params last fun a => value.behaviour params last fun v =>
      .store a.toNat (Bytes.ofNat 1 v.toNat) (next last)
  | .store32 start value, next =>
    start.behaviour params last fun a => value.behaviour params last fun v =>
      .store a.toNat (Bytes.ofNat 4 v.toNat) (next last)
  | .store64 start index, next =>
    start.behaviour params last fun a =>
      .store a.toNat ((params[index]?).map Value.toBytes |>.getD []) (next last)
  | .copy target source len, next =>
    target.behaviour params last fun t => source.behaviour params last fun s =>
      len.behaviour params last fun n =>
        .load s.toNat n.toNat fun content => .store t.toNat content (next last)
  | .branch condition yes no, next =>
    condition.behaviour params last fun c =>
      if c ≠ 0 then statements params last yes next else statements params last no next
  | .give e, _ => e.behaviour params last .done
  | .trap, _ => .trap

/-- What statements do in order. -/
def statements (params : List Value) (last : UInt32) :
    List Statement → (UInt32 → Behaviour) → Behaviour
  | [], next => next last
  | s :: rest, next => statement params last s fun last => statements params last rest next

end

/-- **What a body does with its arguments.** At its end it returns zero. -/
def behaviour (body : Program) (params : List Value) : Behaviour :=
  statements params 0 body fun _ => .done 0

/-- What a body may refer to. -/
structure Scope where
  params : List ValueType
  imports : String → Option Signature
  hasMemory : Bool

namespace Scope

/-- Whether an expression makes sense. -/
def admits (s : Scope) (e : Expr) : Bool :=
  e.isClosed s.params.length && (s.hasMemory || !e.usesMemory)

/-- Whether a call makes sense. -/
def admitsCall (s : Scope) (function : String) (arguments : List Argument)
    (results : Option Expr) : Bool :=
  match s.imports function with
  | some signature =>
    decide (arguments.map Argument.type = signature.params) &&
      (arguments.filterMap Argument.expr?).all s.admits &&
      (match results with
       | some e => s.hasMemory && s.admits e
       | none => true)
  | none => false

end Scope

mutual

/-- Whether a statement makes sense. -/
def validStatement (s : Scope) : Statement → Bool
  | .call function arguments results => s.admitsCall function arguments results
  | .store8 start value | .store32 start value => s.hasMemory && s.admits start && s.admits value
  | .store64 start index =>
    s.hasMemory && s.admits start && decide (s.params[index]? = some .i64)
  | .copy target source len =>
    s.hasMemory && s.admits target && s.admits source && s.admits len
  | .branch condition yes no =>
    s.admits condition && validStatements s yes && validStatements s no
  | .give e => s.admits e
  | .trap => true

/-- Whether statements make sense. -/
def validStatements (s : Scope) : List Statement → Bool
  | [] => true
  | t :: rest => validStatement s t && validStatements s rest

end

mutual

/-- The imports that a statement calls. -/
def statementCalls : Statement → List String
  | .call function _ _ => [function]
  | .branch _ yes no => calls yes ++ calls no
  | _ => []

/-- The imports that statements call. -/
def calls : List Statement → List String
  | [] => []
  | s :: rest => statementCalls s ++ calls rest

end

/-- Whether a body makes sense where it stands. -/
def isValid (scope : Scope) (body : Program) : Bool := validStatements scope body

end Program

end FlowHost
