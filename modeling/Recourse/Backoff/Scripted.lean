import Recourse.Backoff.Basic
import Recourse.Inspect

/-!
# Scripted backoff

A fixed list of waits, given one after the other and then no more.
-/

namespace Recourse

/-- A list of waits and how many of them have been given. -/
structure Scripted where
  waits : List Span
  given : Nat
  deriving DecidableEq

namespace Scripted

/-- The backoff that gives these waits. -/
def start (waits : List Span) : Scripted := ⟨waits, 0⟩

instance : Backoff Scripted where
  next b _ _ := (b.waits[b.given]?, { b with given := b.given + 1 })
  reset b _ := start b.waits
  exhausted _ := Builtin.retryTimeSpent

/-- The waits and the position, for debugging. -/
def inspect (b : Scripted) : String :=
  Inspect.record "Scripted"
    [("delays", Inspect.sequence (b.waits.map Span.text)), ("at", toString b.given)]

end Scripted

end Recourse
