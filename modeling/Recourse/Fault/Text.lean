import Recourse.Fault.Chain
import Recourse.Inspect

/-!
# The text of a fault

There are three forms.

* `Fault.text` is one line: the messages of coded errors joined by `": "`, down
  to the first fault of another type, which shows its own text.
* `CodedError.report` has a line for every member of the chain, with the codes.
* `Fault.inspect` shows every part of a coded error for debugging.
-/

namespace Recourse

namespace Fault

/-- The one-line form. -/
def text : Fault → String
  | coded _ message => message
  | codedOver _ message cause => message ++ ": " ++ cause.text
  | foreign text _ => text
  | foreignOver text _ _ => text
  | io _ payload => payload.text
  | note text => text
  | expired => "deadline has elapsed"

end Fault

namespace CodedError

/-- The one-line form: the message, then the text of the cause. -/
def text (e : CodedError) : String := e.toFault.text

/-- The message and code of an error, without its cause. -/
def headline (e : CodedError) : String := e.message ++ " (code: " ++ e.code.text ++ ")"

end CodedError

/-- How a member of a chain appears in a report: coded errors without their
causes, which have entries of their own, and other faults by their text. -/
def Fault.entry (f : Fault) : String :=
  match f.asCoded? with
  | some e => e.headline
  | none => f.text

/-- The form with one line for each member of the chain. -/
def CodedError.report (e : CodedError) : String :=
  let entries := e.toFault.sources.map fun f => "\n  - " ++ f.entry
  let heading := if entries.isEmpty then "" else "\nCaused by:"
  "Error: " ++ e.headline ++ heading ++ String.join entries

/-! ## Inspection -/

/-- The name of a kind of failure. -/
def IoKind.name : IoKind → String
  | .notFound => "NotFound"
  | .permissionDenied => "PermissionDenied"
  | .connectionRefused => "ConnectionRefused"
  | .connectionReset => "ConnectionReset"
  | .hostUnreachable => "HostUnreachable"
  | .networkUnreachable => "NetworkUnreachable"
  | .connectionAborted => "ConnectionAborted"
  | .notConnected => "NotConnected"
  | .addrInUse => "AddrInUse"
  | .addrNotAvailable => "AddrNotAvailable"
  | .networkDown => "NetworkDown"
  | .brokenPipe => "BrokenPipe"
  | .alreadyExists => "AlreadyExists"
  | .wouldBlock => "WouldBlock"
  | .notADirectory => "NotADirectory"
  | .isADirectory => "IsADirectory"
  | .directoryNotEmpty => "DirectoryNotEmpty"
  | .readOnlyFilesystem => "ReadOnlyFilesystem"
  | .staleNetworkFileHandle => "StaleNetworkFileHandle"
  | .invalidInput => "InvalidInput"
  | .invalidData => "InvalidData"
  | .timedOut => "TimedOut"
  | .writeZero => "WriteZero"
  | .storageFull => "StorageFull"
  | .notSeekable => "NotSeekable"
  | .quotaExceeded => "QuotaExceeded"
  | .fileTooLarge => "FileTooLarge"
  | .resourceBusy => "ResourceBusy"
  | .executableFileBusy => "ExecutableFileBusy"
  | .deadlock => "Deadlock"
  | .crossesDevices => "CrossesDevices"
  | .tooManyLinks => "TooManyLinks"
  | .invalidFilename => "InvalidFilename"
  | .argumentListTooLong => "ArgumentListTooLong"
  | .interrupted => "Interrupted"
  | .unsupported => "Unsupported"
  | .unexpectedEof => "UnexpectedEof"
  | .outOfMemory => "OutOfMemory"
  | .other => "Other"

/-- A coded error with its parts, given how its cause is shown. -/
def inspectCoded (code : Code) (message cause : String) : String :=
  Inspect.record "StructuredError"
    [("code", Inspect.tagged "ErrorCode" (Inspect.quoted code.text)),
      ("message", Inspect.quoted message), ("cause", cause)]

/-- Every part of a coded error; other faults show what they hold. -/
def Fault.inspect : Fault → String
  | coded code message => inspectCoded code message "None"
  | codedOver code message cause =>
    inspectCoded code message (Inspect.tagged "Some" cause.inspect)
  | foreign text _ => Inspect.quoted text
  | foreignOver text _ _ => Inspect.quoted text
  | io kind payload =>
    Inspect.record "Custom" [("kind", kind.name), ("error", payload.inspect)]
  | note text => Inspect.quoted text
  | expired => Inspect.tagged "Elapsed" "()"

/-- Every part of a coded error. -/
def CodedError.inspect (e : CodedError) : String := e.toFault.inspect

end Recourse
