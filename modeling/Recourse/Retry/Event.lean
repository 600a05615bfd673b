import Recourse.Fault.Basic
import Recourse.Instant
import Recourse.Log

/-!
# Events of a series

What happens in a series of attempts that someone outside can see: attempts
begin, the observer is told of failures that will be retried, and log entries
are written.  A trace lists them in order.
-/

namespace Recourse

/-- What an observer is told about a failure that will be retried. -/
structure Notification where
  /-- The observer. -/
  tag : String
  error : CodedError
  /-- The wait that follows. -/
  delay : Span
  /-- The time since the series began. -/
  elapsed : Span
  deriving DecidableEq

/-- Something that happens in a series of attempts. -/
inductive Event where
  /-- An attempt begins, in a span of its own. -/
  | began (number : UInt32) (instant : Instant)
  /-- A later attempt than the first has succeeded. -/
  | recovered (attempts : UInt32)
  /-- An attempt has failed for good. -/
  | failedForGood (attempts : UInt32) (code : Code)
  /-- The observer is told. -/
  | notified (notification : Notification)
  /-- A wait begins after a failed attempt. -/
  | retrying (attempts : UInt32) (delay : Span) (code : Code)
  /-- The backoff has given up. -/
  | gaveUp (attempts : UInt32) (code reason : Code)
  /-- The token was found fired before an attempt. -/
  | cancelledBefore (attempts : UInt32)
  /-- The token was found fired after a failed attempt. -/
  | cancelledDuring (attempts : UInt32) (code : Code)
  /-- The token was fired in a wait. -/
  | cancelledWaiting (attempts : UInt32)
  deriving DecidableEq

namespace Event

/-- The log entry of an event; the observer's share is not logged. -/
def logEntry? : Event → Option LogEntry
  | began number _ => some ⟨.span, "retry_attempt", [("attempt", toString number)]⟩
  | recovered attempts =>
    some ⟨.debug, "operation succeeded after retrying", [("attempts", toString attempts)]⟩
  | failedForGood attempts code =>
    some ⟨.debug, "operation failed permanently",
      [("attempts", toString attempts), ("code", code.text)]⟩
  | notified _ => none
  | retrying attempts delay code =>
    some ⟨.debug, "attempt failed; retrying",
      [("attempts", toString attempts), ("delay", delay.text), ("code", code.text)]⟩
  | gaveUp attempts code reason =>
    some ⟨.warn, "giving up on operation",
      [("attempts", toString attempts), ("code", code.text), ("reason", reason.text)]⟩
  | cancelledBefore attempts =>
    some ⟨.debug, "retry cancelled before next attempt", [("attempts", toString attempts)]⟩
  | cancelledDuring attempts code =>
    some ⟨.debug, "retry cancelled during attempt",
      [("attempts", toString attempts), ("code", code.text)]⟩
  | cancelledWaiting attempts =>
    some ⟨.debug, "retry cancelled while waiting", [("attempts", toString attempts)]⟩

/-- What the observer is told by an event. -/
def notification? : Event → Option Notification
  | notified notification => some notification
  | _ => none

/-- The instant of an attempt that begins. -/
def beginning? : Event → Option Instant
  | began _ instant => some instant
  | _ => none

end Event

/-- Events in the order in which they happened. -/
abbrev Trace := List Event

namespace Trace

/-- The log of a trace. -/
def log (t : Trace) : List LogEntry := t.filterMap Event.logEntry?

/-- What the observer was told. -/
def notifications (t : Trace) : List Notification := t.filterMap Event.notification?

/-- When the attempts began. -/
def beginnings (t : Trace) : List Instant := t.filterMap Event.beginning?

end Trace

end Recourse
