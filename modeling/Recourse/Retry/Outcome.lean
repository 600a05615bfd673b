import Recourse.Fault.Builtin
import Recourse.Span

/-!
# Outcomes

How a series of attempts ended: its result, and how it came about.
-/

namespace Recourse

/-- The four ways in which a series ends. -/
inductive Ending where
  /-- An attempt succeeded. -/
  | succeeded
  /-- An attempt failed for good. -/
  | permanentlyFailed
  /-- The backoff gave up. -/
  | exhausted
  /-- The token was fired. -/
  | cancelled
  deriving DecidableEq, Repr

/-- The name of an ending. -/
def Ending.name : Ending → String
  | succeeded => "Succeeded"
  | permanentlyFailed => "PermanentlyFailed"
  | exhausted => "Exhausted"
  | cancelled => "Cancelled"

/-- The end of a series of attempts. -/
structure Outcome (α : Type) where
  result : Except CodedError α
  ending : Ending
  /-- The number of attempts begun. -/
  attempts : UInt32
  /-- The time from the start of the series to its end. -/
  elapsed : Span
  /-- The error of the most recent failed attempt. -/
  lastError : Option CodedError

namespace Outcome

/-- Continues with the value of a success, which may turn into an error; all
else stays as it is. -/
def andThen (o : Outcome α) (f : α → Except CodedError β) : Outcome β :=
  { o with result := o.result.bind f }

end Outcome

end Recourse
