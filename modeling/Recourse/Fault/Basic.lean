import Recourse.Code

/-!
# Faults and coded errors

A `Fault` is any error, together with the errors that led to it.  Most faults
come from elsewhere and are known by their text alone.  A `CodedError` is the
kind this library reports: it has a code, which says what went wrong, a
message for people, and possibly a cause.

Two coded errors are of the same kind when their codes agree, whatever their
messages and causes.  Nothing here changes an error in place: wrapping a
cause or replacing a message gives a new one.
-/

namespace Recourse

/-- The kinds of failure that an input or output operation reports. -/
inductive IoKind where
  | notFound | permissionDenied | connectionRefused | connectionReset
  | hostUnreachable | networkUnreachable | connectionAborted | notConnected
  | addrInUse | addrNotAvailable | networkDown | brokenPipe | alreadyExists
  | wouldBlock | notADirectory | isADirectory | directoryNotEmpty
  | readOnlyFilesystem | staleNetworkFileHandle | invalidInput | invalidData
  | timedOut | writeZero | storageFull | notSeekable | quotaExceeded
  | fileTooLarge | resourceBusy | executableFileBusy | deadlock
  | crossesDevices | tooManyLinks | invalidFilename | argumentListTooLong
  | interrupted | unsupported | unexpectedEof | outOfMemory | other
  deriving DecidableEq, Repr

/-- Any error, outermost layer first. -/
inductive Fault where
  /-- A coded error without a cause. -/
  | coded (code : Code) (message : String)
  /-- A coded error and what caused it. -/
  | codedOver (code : Code) (message : String) (cause : Fault)
  /-- An error of some other type, which says itself whether a retry may
  help. -/
  | foreign (text : String) (transient : Bool)
  /-- An error of some other type and what caused it. -/
  | foreignOver (text : String) (transient : Bool) (cause : Fault)
  /-- An input or output failure around a payload.  It speaks for its payload:
  it shows the payload's text and names the payload's cause as its own, so the
  payload itself is not seen from outside. -/
  | io (kind : IoKind) (payload : Fault)
  /-- A bare text. -/
  | note (text : String)
  /-- The expiry of a timer. -/
  | expired
  deriving DecidableEq, Repr

/-- An error with a code. -/
structure CodedError where
  code : Code
  message : String
  cause : Option Fault
  deriving DecidableEq, Repr

namespace CodedError

/-- A coded error without a cause. -/
def bare (code message : String) : CodedError := ⟨⟨code⟩, message, none⟩

/-- The errors of a group declared as pairs of a code and a message. -/
def group (entries : List (String × String)) : List CodedError :=
  entries.map fun (code, message) => bare code message

/-- The same error over a new cause; an earlier cause is dropped. -/
def wrap (e : CodedError) (cause : Fault) : CodedError := { e with cause := some cause }

/-- The same error over a bare text. -/
def wrapText (e : CodedError) (text : String) : CodedError := e.wrap (.note text)

/-- The same error with another message; the cause stays. -/
def withMessage (e : CodedError) (message : String) : CodedError := { e with message }

/-- The same error with another cause, or with none. -/
def withCause (e : CodedError) (cause : Option Fault) : CodedError := { e with cause }

/-- Equal codes make equal kinds of error. -/
def sameKind (a b : CodedError) : Bool := a.code == b.code

/-- A hash that agrees on errors of the same kind. -/
def kindHash (e : CodedError) : UInt64 := hash e.code

/-- A coded error as a fault. -/
def toFault : CodedError → Fault
  | ⟨code, message, none⟩ => .coded code message
  | ⟨code, message, some cause⟩ => .codedOver code message cause

end CodedError

/-- The coded error that a fault is, looking at its outermost layer only. -/
def Fault.asCoded? : Fault → Option CodedError
  | .coded code message => some ⟨code, message, none⟩
  | .codedOver code message cause => some ⟨code, message, some cause⟩
  | _ => none

@[simp] theorem CodedError.asCoded?_toFault (e : CodedError) : e.toFault.asCoded? = some e := by
  obtain ⟨code, message, _ | cause⟩ := e <;> rfl

theorem Fault.toFault_of_asCoded? {f : Fault} {e : CodedError} (h : f.asCoded? = some e) :
    e.toFault = f := by
  cases f <;> simp [asCoded?] at h <;> subst h <;> rfl

end Recourse
