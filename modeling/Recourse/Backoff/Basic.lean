import Recourse.Fault.Builtin
import Recourse.Instant

/-!
# Backoffs

A backoff decides, failure by failure, how long to wait before the next
attempt, or that there is to be none.  It is a value: asking it gives an answer
and the backoff to ask next time.  The clock and the random draw are given from
outside, so equal questions have equal answers.
-/

namespace Recourse

/-- A number drawn from `[0, 1)`, as a count of steps of `2 ^ -53`. -/
structure Draw where
  steps : Fin (Nat.pow 2 53)
  deriving DecidableEq

namespace Draw

/-- The binary64 number that was drawn; it is exact. -/
def value (d : Draw) : Binary64 := .nearest false (d.steps.val * Binary64.one) (Nat.pow 2 53)

/-- The smallest draw. -/
def least : Draw := ⟨0⟩

instance : Inhabited Draw := ⟨least⟩

end Draw

/-- Values that answer how long to wait before the next attempt. -/
class Backoff (β : Type) where
  /-- The wait after a failure at `now`, or none to give up, and the backoff
  for the next failure. -/
  next : β → Instant → Draw → Option Span × β
  /-- The backoff at the start of a new series that begins at `now`. -/
  reset : β → Instant → β
  /-- The error that reports that the backoff has given up. -/
  exhausted : β → CodedError

end Recourse
