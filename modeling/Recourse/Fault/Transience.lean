import Recourse.Fault.Builtin

/-!
# Transient faults

A transient fault may go away when the same call is made again; every other
fault is permanent.  For a coded error the outermost code alone decides: an
error that reports the end of a series of attempts is final, whatever
transport failure it wraps.
-/

namespace Recourse

/-- The kinds of failure that come from a connection or a wait. -/
def IoKind.isTransient : IoKind → Bool
  | .connectionRefused | .connectionReset | .connectionAborted | .timedOut | .interrupted
  | .wouldBlock | .unexpectedEof => true
  | _ => false

namespace CodedError

/-- The kinds of coded error for which a retry may help: a lost connection, a
failed read, a timeout and a peer that is not ready. -/
def transientKinds : List CodedError :=
  [Builtin.peerConnection, Builtin.readFailure, Builtin.timeout, Builtin.notReady]

/-- Whether a retry may help. -/
def isTransient (e : CodedError) : Bool := transientKinds.any e.sameKind

/-- Whether a retry is of no use. -/
def isPermanent (e : CodedError) : Bool := !e.isTransient

end CodedError

namespace Fault

/-- The verdict of the outermost layer.  Texts and timers have no say of their
own and count as permanent. -/
def isTransient (f : Fault) : Bool :=
  match f with
  | coded code message => CodedError.isTransient ⟨code, message, none⟩
  | codedOver code message cause => CodedError.isTransient ⟨code, message, some cause⟩
  | foreign _ transient => transient
  | foreignOver _ transient _ => transient
  | io kind _ => kind.isTransient
  | note _ => false
  | expired => false

/-- Whether a retry is of no use. -/
def isPermanent (f : Fault) : Bool := !f.isTransient

end Fault

end Recourse
