import Recourse.Span

/-!
# Instants

An `Instant` is a point on a clock that starts at zero.  The clock counts in
nanoseconds, and timers in whole milliseconds.
-/

namespace Recourse

/-- A point in time, in nanoseconds since the clock started. -/
structure Instant where
  nanos : Nat
  deriving DecidableEq

namespace Instant

/-- The instant at which the clock starts. -/
def start : Instant := ⟨0⟩

instance : LT Instant := ⟨fun a b => a.nanos < b.nanos⟩
instance : LE Instant := ⟨fun a b => a.nanos ≤ b.nanos⟩
instance (a b : Instant) : Decidable (a < b) := inferInstanceAs (Decidable (a.nanos < b.nanos))
instance (a b : Instant) : Decidable (a ≤ b) := inferInstanceAs (Decidable (a.nanos ≤ b.nanos))

instance : Max Instant := ⟨fun a b => if a ≤ b then b else a⟩

theorem le_iff {a b : Instant} : a ≤ b ↔ a.nanos ≤ b.nanos := Iff.rfl

theorem lt_iff {a b : Instant} : a < b ↔ a.nanos < b.nanos := Iff.rfl

theorem ext_nanos {a b : Instant} (h : a.nanos = b.nanos) : a = b := by
  cases a
  cases b
  exact congrArg Instant.mk h

/-- The instant a span later. -/
def after (t : Instant) (s : Span) : Instant := ⟨t.nanos + s.nanos⟩

/-- The instant so many nanoseconds later. -/
def later (t : Instant) (lag : Nat) : Instant := ⟨t.nanos + lag⟩

/-- The time from an earlier instant to this one; none if it is not earlier. -/
def since (t earlier : Instant) : Span := Span.clamp (t.nanos - earlier.nanos)

/-- The first whole millisecond at or after an instant. -/
def roundUp (t : Instant) : Instant :=
  ⟨(t.nanos + (Span.milliNanos - 1)) / Span.milliNanos * Span.milliNanos⟩

/-- On a whole millisecond. -/
def OnTick (t : Instant) : Prop := t.nanos % Span.milliNanos = 0

instance (t : Instant) : Decidable t.OnTick := inferInstanceAs (Decidable (_ = _))

end Instant

end Recourse
