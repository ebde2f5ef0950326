import FlowHost.Bundle.Gzip
import FlowHost.Bundle.Section
import FlowHost.Error

/-!
# Bundles

A bundle is a binary, possibly compressed, whose custom sections name the version
of the interface it was made for and the bundle itself. Both are checked before
anything of the binary is compiled.

* `Bundle.parse`: a bundle from the octets received.
-/

namespace FlowHost

/-- The interface version that the host supports. -/
def supportedInterface : String := "1.0.0"

/-- The custom section with the interface version. -/
def interfaceSection : String := "interfaceVersion"

/-- The custom section with the bundle's identifier. -/
def identifierSection : String := "bundleIdentifier"

/-- The identifier announced while nothing is loaded. -/
def nullBundle : String := "nullVersion"

/-- A bundle that passed its checks. -/
structure Bundle where
  /-- The octets as received. -/
  raw : Bytes
  /-- The binary, inflated. -/
  binary : Bytes
  interfaceVersion : String
  identifier : String
  deriving DecidableEq

namespace Bundle

/-- The data of the last custom section of a name, read leniently as text. -/
def lastSection (name : String) (sections : List Section.Custom) : Option String :=
  ((sections.filter fun s => s.name == name).getLast?).map fun s => Utf8.decodeLossy s.data

/-- The binary in the octets received: inflated if they are compressed. -/
def unpacked (raw : Bytes) : Except Error Bytes :=
  if Gzip.isMember raw then
    match Gzip.unpack raw with
    | some data => .ok data
    | none => .error (.validation (.malformed "gzip: corrupt member"))
  else .ok raw

/-- **A bundle from the octets received.** The framing is checked first, then the version, then
the identifier. -/
def parse (raw : Bytes) : Except Error Bundle := do
  let binary ← unpacked raw
  match Section.customSections binary with
  | none => .error (.validation (.malformed "section framing"))
  | some sections =>
    let version := lastSection interfaceSection sections
    if version = some supportedInterface then
      match lastSection identifierSection sections with
      | some identifier =>
        if identifier.isEmpty then .error (.validation .missingBundle)
        else .ok ⟨raw, binary, supportedInterface, identifier⟩
      | none => .error (.validation .missingBundle)
    else .error (.validation (.unsupportedVersion version))

/-- Whether a bundle was received compressed. -/
def isCompressed (b : Bundle) : Bool := Gzip.isMember b.raw

end Bundle

end FlowHost
