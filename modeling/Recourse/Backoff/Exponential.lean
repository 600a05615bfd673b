import Recourse.Backoff.Basic
import Recourse.Backoff.Policy

/-!
# Exponential backoff

Each interval is the one before times the multiplier, up to the ceiling.  The
wait is the interval spread by the jitter, and it is granted while the time
since the series began, with the wait added, stays within the budget.

The computation is in binary64.  Whether the ceiling is reached is decided in
seconds, the product is taken in nanoseconds, and a product beyond 64 bits of
nanoseconds is held there.
-/

namespace Recourse

namespace Span

/-- A span times a factor, rounded to whole nanoseconds. -/
def scaled (s : Span) (factor : Binary64) : Span := ofNearestNanos (s.inNanos * factor)

/-- The wait for an interval, spread by the fraction `factor` of it.  The draw
goes from the lower end of the band to the upper one. -/
def jittered (interval : Span) (factor draw : Binary64) : Span :=
  if factor.atMost (.ofNat 0) then interval
  else
    let base := interval.inNanos
    let delta := factor * base
    let low := base - delta
    let high := base + delta
    ofNearestNanos (low + draw * (high - low))

end Span

/-- The interval after `current`: the ceiling once the next step would reach
it, else the current interval times the multiplier. -/
def Policy.grow (p : Policy) (current : Span) : Span :=
  if (p.ceiling.inSeconds / p.multiplier).atMost current.inSeconds then p.ceiling
  else current.scaled p.multiplier

/-- Whether a wait fits into the budget after so much time. -/
def Policy.affords (p : Policy) (elapsed wait : Span) : Bool :=
  match p.budget with
  | none => true
  | some budget => elapsed.addClamped wait ≤ budget

/-- A growing sequence of waits within a time budget. -/
structure Exponential where
  policy : Policy
  /-- The interval that the next wait starts from, before any jitter. -/
  current : Span
  /-- When the series began. -/
  started : Instant
  deriving DecidableEq

namespace Exponential

/-- The backoff of a policy, used as it is, for a series that begins at
`now`. -/
def start (policy : Policy) (now : Instant) : Exponential := ⟨policy, policy.initial, now⟩

/-- The backoff of a policy, unless the policy is refused. -/
def checked (policy : Policy) (now : Instant) : Except Refusal Exponential :=
  match policy.refusal? with
  | some refusal => .error refusal
  | none => .ok (start policy now)

/-- The time since the series began. -/
def elapsed (b : Exponential) (now : Instant) : Span := now.since b.started

/-- The wait for the current interval, if the budget affords it.  The interval
grows in either case. -/
def next (b : Exponential) (now : Instant) (draw : Draw) : Option Span × Exponential :=
  let wait := b.current.jittered b.policy.jitter draw.value
  (if b.policy.affords (b.elapsed now) wait then some wait else none,
    { b with current := b.policy.grow b.current })

/-- Back to the initial interval, with the time counted from `now`. -/
def reset (b : Exponential) (now : Instant) : Exponential := start b.policy now

instance : Backoff Exponential where
  next := next
  reset := reset
  exhausted _ := Builtin.retryTimeSpent

end Exponential

end Recourse
