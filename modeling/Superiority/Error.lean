/-!
# The errors of the core and updater crates

The part of `core::Error` and `updater::Error` that the modelled functions return, under the
source's names. The payloads are the texts the source formats, so a statement about a message is a
statement about the code.
-/

namespace Superiority

/-- `core::Error`. The variants no modelled function builds are left out. -/
inductive Error where
  | bsnWire (message : String)
  | metadata (message : String)
  | authentication (message : String)
  | native (message : String)
  | nativeResumeRejected (errorCode wait : Int)
  | unmappedNativeRoute (slot command : UInt8)
  | incompleteFrame (message : String)
  | io (message : String)
  | server (message : String)
  | transport (message : String)
  | classicWire (message : String)
  | bgsWire (message : String)
  | protobufDecode (message : String)
  | url (message : String)
  deriving DecidableEq, Repr

/-- `updater::Error`. The variants no modelled function builds are left out, and so is the operating
system's part of an I/O error. -/
inductive Updater.Error where
  | invalidAppcast (message : String)
  | invalidArtifact (message : String)
  | unsupportedPlatform (platform : String)
  | io (path : List String)
  | serialization (message : String)
  | installation (message : String)
  | cancelled
  | invalidSignature (message : String)
  | invalidState (message : String)
  | network (message : String)
  | applicationNotFound (path : List String)
  deriving DecidableEq, Repr

end Superiority
