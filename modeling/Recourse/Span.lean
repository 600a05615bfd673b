import Recourse.Binary64.Arithmetic

/-!
# Spans of time

A `Span` is a length of time in whole nanoseconds.  It never exceeds
`Span.most`, the longest time that 64 bits of seconds and a nanosecond part
below one second can hold, and the type carries that bound.
-/

namespace Recourse

namespace Span

/-- One microsecond in nanoseconds. -/
abbrev microNanos : Nat := 1000

/-- One millisecond in nanoseconds. -/
abbrev milliNanos : Nat := 1000000

/-- One second in nanoseconds. -/
abbrev secondNanos : Nat := 1000000000

/-- The nanoseconds of the longest span. -/
def most : Nat := UInt64.size * secondNanos - 1

end Span

/-- A length of time. -/
structure Span where
  nanos : Nat
  le_most : nanos ≤ Span.most
  deriving DecidableEq

namespace Span

/-- The span of so many nanoseconds, or the longest one if they do not fit. -/
def clamp (nanos : Nat) : Span := ⟨min nanos most, Nat.min_le_right _ _⟩

theorem clamp_nanos (nanos : Nat) : (clamp nanos).nanos = min nanos most := rfl

/-- The span of so many nanoseconds, if they fit. -/
def ofNanos? (nanos : Nat) : Option Span :=
  if h : nanos ≤ most then some ⟨nanos, h⟩ else none

/-- A number of milliseconds. -/
def ofMillis (millis : Nat) : Span := clamp (millis * milliNanos)

/-- A number of seconds. -/
def ofSeconds (seconds : Nat) : Span := clamp (seconds * secondNanos)

/-- No time at all. -/
def zero : Span := clamp 0

/-- The longest span. -/
def longest : Span := clamp most

instance : LT Span := ⟨fun a b => a.nanos < b.nanos⟩
instance : LE Span := ⟨fun a b => a.nanos ≤ b.nanos⟩
instance (a b : Span) : Decidable (a < b) := inferInstanceAs (Decidable (a.nanos < b.nanos))
instance (a b : Span) : Decidable (a ≤ b) := inferInstanceAs (Decidable (a.nanos ≤ b.nanos))

/-- No time at all? -/
def isZero (s : Span) : Bool := s.nanos == 0

/-- The sum, or the longest span if the sum does not fit. -/
def addClamped (a b : Span) : Span := clamp (a.nanos + b.nanos)

/-- The whole seconds of a span. -/
def seconds (s : Span) : Nat := s.nanos / secondNanos

/-- The nanoseconds beyond the whole seconds. -/
def subsecond (s : Span) : Nat := s.nanos % secondNanos

/-! ## Binary64 readings -/

/-- The span in seconds: the whole seconds rounded to a binary64 number, plus
the remaining nanoseconds divided by a thousand million. -/
def inSeconds (s : Span) : Binary64 :=
  .ofNat s.seconds + .ofNat s.subsecond / .ofNat secondNanos

/-- The span in nanoseconds, rounded to a binary64 number. -/
def inNanos (s : Span) : Binary64 := .ofNat s.nanos

/-- The span of a binary64 number of nanoseconds, rounded to whole ones and
held within 64 bits. -/
def ofNearestNanos (x : Binary64) : Span := clamp x.nearestWord

/-! ## Text -/

/-- The decimals of `part / 10 ^ places` with their point, without trailing
zeros; nothing if there are none. -/
def decimals (part places : Nat) : String :=
  let digits := Nat.toDigits 10 part
  let padded := List.replicate (places - digits.length) '0' ++ digits
  let kept := (padded.reverse.dropWhile (· == '0')).reverse
  if kept.isEmpty then "" else String.ofList ('.' :: kept)

/-- The text of a span in the largest of the units `s`, `ms`, `µs` and `ns`
of which it holds at least one: `1.5ms`, `60s`, `0ns`. -/
def text (s : Span) : String :=
  let inUnit (unit places : Nat) (name : String) : String :=
    toString (s.nanos / unit) ++ decimals (s.nanos % unit) places ++ name
  if secondNanos ≤ s.nanos then inUnit secondNanos 9 "s"
  else if milliNanos ≤ s.nanos then inUnit milliNanos 6 "ms"
  else if microNanos ≤ s.nanos then inUnit microNanos 3 "µs"
  else inUnit 1 0 "ns"

end Span

end Recourse
