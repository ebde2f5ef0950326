import FlowHost.Bytes
import FlowHost.Text.Utf8

/-!
# Disks

A disk is a tree of directories with files at its leaves, known by where each entry
is. A path is walked step by step from the root, and every directory that it passes
must be there.

* `Disk.locate`: where a path leads, its last step perhaps to nothing.
* `Disk.Operation.perform`: the four operations that a save is made of, each of them
  done wholly or not at all.
* `Disk.listing`: the entries below a place, each directory before what it holds.
-/

namespace FlowHost

/-- Where an entry is: the names that lead to it from the root. -/
abbrev Location := List String

/-- One step of a path. -/
inductive PathStep where
  /-- To the directory that holds the present one. -/
  | up
  | down (name : String)
  deriving DecidableEq, Repr

/-- A path from the root. -/
structure Path where
  steps : List PathStep
  /-- Written so that only a directory is meant. -/
  namesDirectory : Bool
  deriving DecidableEq, Repr

/-- An entry of a disk. -/
inductive Entry where
  | file (content : Bytes)
  | directory
  deriving DecidableEq, Repr

/-- Why the disk refuses an operation. -/
inductive DiskFault where
  | notFound | notDirectory | isDirectory | alreadyExists | nameTooLong | invalidName
  deriving DecidableEq, Repr

/-- The sentence of a disk's refusal. -/
def DiskFault.message : DiskFault → String
  | notFound => "No such file or directory"
  | notDirectory => "Not a directory"
  | isDirectory => "Is a directory"
  | alreadyExists => "File exists"
  | nameTooLong => "File name too long"
  | invalidName => "file name contained an unexpected NUL byte"

namespace Path

/-- The pieces of a text between slashes. -/
def pieces : List Char → List (List Char)
  | [] => [[]]
  | c :: rest =>
    if c = '/' then [] :: pieces rest
    else
      match pieces rest with
      | [] => [[c]]
      | piece :: more => (c :: piece) :: more

/-- The step of a piece; empty pieces and single dots lead nowhere. -/
def step? (piece : List Char) : Option PathStep :=
  if piece = [] ∨ piece = ['.'] then none
  else if piece = ['.', '.'] then some .up
  else some (.down (String.ofList piece))

/-- **Reads a path.** A slash or a dot at the end means a directory. -/
def ofText (text : String) : Path :=
  let all := pieces text.toList
  ⟨all.filterMap step?, ((all.getLast?).bind step?).isNone⟩

/-- The path of the directory that holds what a path leads to. -/
def parent (p : Path) : Path := ⟨p.steps.dropLast, false⟩

/-- The name at the end of a path, if it ends in one. -/
def fileName? (p : Path) : Option String :=
  match p.steps.getLast? with
  | some (.down name) => some name
  | _ => none

/-- A name up to its last dot; a dot at the very start does not count. -/
def stem (name : String) : String :=
  let before := (name.toList.reverse.dropWhile (· ≠ '.')).drop 1
  if before.isEmpty then name else String.ofList before.reverse

/-- The text after the last dot of a name; a dot at the very start does not count. -/
def suffix? (name : String) : Option String :=
  let before := (name.toList.reverse.dropWhile (· ≠ '.')).drop 1
  if before.isEmpty then none
  else some (String.ofList (name.toList.reverse.takeWhile (· ≠ '.')).reverse)

/-- **The path beside a path** whose name has another suffix. -/
def withSuffix (p : Path) (suffix : String) : Path :=
  match p.fileName? with
  | some name => ⟨p.steps.dropLast ++ [.down (stem name ++ "." ++ suffix)], false⟩
  | none => p

/-- The octets that a path takes. -/
def width (p : Path) : Nat :=
  p.steps.foldl (fun octets step =>
    octets + match step with
      | .up => 3
      | .down name => name.utf8ByteSize + 1) 0

/-- Whether a path can be handed to the disk at all. -/
def isUsable (p : Path) : Bool :=
  decide (p.width ≤ 4095) && p.steps.all fun
    | .up => true
    | .down name => !name.toList.contains '\x00'

/-- The paths of the directories on the way, from the root down, with the path itself last. -/
def prefixes (p : Path) : List Path :=
  (List.range p.steps.length).map fun n => ⟨p.steps.take (n + 1), false⟩

end Path

/-- A disk: each entry with its place. The root is always there and is not listed. -/
structure Disk where
  entries : List (Location × Entry)
  deriving DecidableEq

namespace Disk

/-- A disk with nothing on it. -/
def empty : Disk := ⟨[]⟩

/-- The entry at a place. -/
def get? (d : Disk) (place : Location) : Option Entry :=
  if place = [] then some .directory else d.entries.lookup place

/-- The disk with an entry at a place, whatever was there. -/
def insert (d : Disk) (place : Location) (entry : Entry) : Disk :=
  ⟨(place, entry) :: d.entries.filter fun e => e.1 ≠ place⟩

/-- The disk without the entry at a place. -/
def erase (d : Disk) (place : Location) : Disk := ⟨d.entries.filter fun e => e.1 ≠ place⟩

/-- The disk without the entry at a place and all below it. -/
def eraseTree (d : Disk) (place : Location) : Disk :=
  ⟨d.entries.filter fun e => !place.isPrefixOf e.1⟩

/-- The greatest length of a name, in octets. -/
def maxName : Nat := 255

/-- Walks the steps of a path from a place. -/
def walk (d : Disk) : Location → List PathStep → Except DiskFault Location
  | here, [] => .ok here
  | here, step :: rest =>
    match d.get? here with
    | none => .error .notFound
    | some (.file _) => .error .notDirectory
    | some .directory =>
      match step with
      | .up => walk d here.dropLast rest
      | .down name =>
        if maxName < name.utf8ByteSize then .error .nameTooLong
        else walk d (here ++ [name]) rest

/-- **Where a path leads.** Its last step may lead to nothing. -/
def locate (d : Disk) (p : Path) : Except DiskFault Location :=
  if p.isUsable then walk d [] p.steps else .error .invalidName

/-- The content of the file that a path leads to. -/
def read (d : Disk) (p : Path) : Except DiskFault Bytes := do
  let place ← d.locate p
  match d.get? place with
  | none => .error .notFound
  | some .directory => .error .isDirectory
  | some (.file content) => if p.namesDirectory then .error .notDirectory else .ok content

/-- The operations that a save is made of. -/
inductive Operation where
  /-- Makes a directory, unless there is one. -/
  | makeDirectory (p : Path)
  /-- Opens a file for writing; it is empty then. -/
  | create (p : Path)
  /-- Puts octets into a file. -/
  | fill (p : Path) (content : Bytes)
  /-- Moves a file over another name. -/
  | rename (source target : Path)
  deriving DecidableEq

namespace Operation

/-- Puts content into the file that a path leads to, which may be new. -/
def putFile (d : Disk) (p : Path) (content : Bytes) : Except DiskFault Disk := do
  let place ← d.locate p
  match d.get? place with
  | some .directory => .error .isDirectory
  | _ => if p.namesDirectory then .error .notDirectory else .ok (d.insert place (.file content))

/-- **One operation, done wholly or refused.** -/
def perform (d : Disk) : Operation → Except DiskFault Disk
  | makeDirectory p => do
    let place ← d.locate p
    match d.get? place with
    | none => .ok (d.insert place .directory)
    | some .directory => .ok d
    | some (.file _) => .error .alreadyExists
  | create p => putFile d p []
  | fill p content => putFile d p content
  | rename source target => do
    let origin ← d.locate source
    let place ← d.locate target
    match d.get? origin with
    | none => .error .notFound
    | some .directory => .error .isDirectory
    | some (.file content) =>
      if target.namesDirectory then .error .notDirectory
      else
        match d.get? place with
        | some .directory => .error .isDirectory
        | _ =>
          if origin = place then .ok d
          else .ok ((d.erase origin).insert place (.file content))

end Operation

/-- Whether one place comes before another: name by name. -/
def placeLe : Location → Location → Bool
  | [], _ => true
  | _ :: _, [] => false
  | a :: as, b :: bs => if a = b then placeLe as bs else decide (a < b)

/-- **The entries below a place**, by name, each directory before what it holds. -/
def listing (d : Disk) (base : Location) : List (Location × Entry) :=
  let below := d.entries.filterMap fun e =>
    if base.isPrefixOf e.1 ∧ e.1 ≠ base then some (e.1.drop base.length, e.2) else none
  below.mergeSort fun a b => placeLe a.1 b.1

end Disk

end FlowHost
