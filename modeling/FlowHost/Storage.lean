import FlowHost.Error
import FlowHost.Storage.Disk

/-!
# What persists

Blobs are kept in memory or in a file. A save to a file writes the new content beside
the file, under the same name with another suffix, and then moves it over.

* `Storage.saveOperations`: the operations of a save, in order.
* `Storage.load`, `Storage.save`: a blob as a register with two operations.
-/

namespace FlowHost

/-- Where a blob is kept. -/
inductive BlobPlace where
  | memory
  | file (path : Path)
  deriving DecidableEq

/-- All that persists: the disk, and the blob kept in memory. -/
structure Storage where
  disk : Disk
  held : Option Bytes
  deriving DecidableEq

namespace Storage

/-- The suffix of files that are being written. -/
def temporarySuffix : String := "tmp"

/-- The directories that a save makes sure of, outermost first. -/
def directories (p : Path) : List Path :=
  if p.parent.isUsable then p.parent.prefixes else [p.parent]

/-- **The operations of a save to a file.** -/
def saveOperations (p : Path) (content : Bytes) : List Disk.Operation :=
  let beside := p.withSuffix temporarySuffix
  (directories p).map .makeDirectory ++
    [.create beside, .fill beside content, .rename beside p]

/-- Performs operations up to the first refusal. -/
def performAll (d : Disk) : List Disk.Operation → Disk × Option DiskFault
  | [] => (d, none)
  | operation :: rest =>
    match operation.perform d with
    | .ok d' => performAll d' rest
    | .error fault => (d, some fault)

/-- A disk's refusal as a failure. -/
def failure (fault : DiskFault) : Error := .persistence fault.message

/-- **Reads a blob**; nothing has been saved where there is no file. -/
def load (s : Storage) : BlobPlace → Except Error (Option Bytes)
  | .memory => .ok s.held
  | .file path =>
    match s.disk.read path with
    | .ok content => .ok (some content)
    | .error .notFound => .ok none
    | .error fault => .error (failure fault)

/-- **Writes a blob.** A failed save may leave directories and the file beside. -/
def save (s : Storage) (place : BlobPlace) (content : Bytes) : Except Error Unit × Storage :=
  match place with
  | .memory => (.ok (), { s with held := some content })
  | .file path =>
    match performAll s.disk (saveOperations path content) with
    | (disk, none) => (.ok (), { s with disk := disk })
    | (disk, some fault) => (.error (failure fault), { s with disk := disk })

end Storage

end FlowHost
