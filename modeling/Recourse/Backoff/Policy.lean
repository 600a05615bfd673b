import Recourse.Binary64.Text
import Recourse.Fault.Builtin
import Recourse.Inspect
import Recourse.Span

/-!
# Backoff policies

A policy says how the waits between attempts grow: from an initial interval by
a multiplier up to a ceiling, each wait spread by a jitter fraction around its
interval, and all of it within a time budget, or without one.

Any values can be put together.  `Policy.refusal?` names the first reason, if
there is one, why they do not describe a usable sequence that does not shrink.
-/

namespace Recourse

/-- The settings of a growing sequence of waits. -/
structure Policy where
  /-- The interval before the first retry. -/
  initial : Span
  /-- The largest interval. -/
  ceiling : Span
  /-- How much time a series may take from its beginning; none for no limit. -/
  budget : Option Span
  /-- The factor from one interval to the next. -/
  multiplier : Binary64
  /-- How far a wait may lie from its interval, as a fraction of it. -/
  jitter : Binary64
  deriving DecidableEq

/-- Why settings are refused. -/
inductive Refusal where
  | zeroInitial
  | ceilingBelowInitial
  | multiplier (given : Binary64)
  | jitter (given : Binary64)
  | zeroAttempts
  deriving DecidableEq

namespace Refusal

/-- The reason in words. -/
def message : Refusal → String
  | zeroInitial => "initial interval must be greater than zero"
  | ceilingBelowInitial => "max interval must not be below the initial interval"
  | multiplier given => "multiplier must be a finite value >= 1, got " ++ given.plain
  | jitter given => "randomization factor must be within [0, 1], got " ++ given.plain
  | zeroAttempts => "max attempts must be greater than zero"

/-- The error that reports a refusal. -/
def error (r : Refusal) : CodedError := Builtin.invalidInput.wrapText r.message

end Refusal

namespace Policy

/-- Half a second at first, half as much again each time up to a minute, each
wait spread by half, and a quarter of an hour in all. -/
def standard : Policy where
  initial := .ofMillis 500
  ceiling := .ofSeconds 60
  budget := some (.ofSeconds 900)
  multiplier := .ofNat 3 / .ofNat 2
  jitter := .ofNat 1 / .ofNat 2

/-! ## Changing a setting -/

/-- Sets the first interval. -/
def withInitial (p : Policy) (initial : Span) : Policy := { p with initial }

/-- Sets the largest interval. -/
def withCeiling (p : Policy) (ceiling : Span) : Policy := { p with ceiling }

/-- Sets the budget; a budget of no time removes the limit. -/
def withBudget (p : Policy) (budget : Span) : Policy :=
  { p with budget := if budget.isZero then none else some budget }

/-- Sets the factor between intervals. -/
def withMultiplier (p : Policy) (multiplier : Binary64) : Policy := { p with multiplier }

/-- Sets the spread of the waits. -/
def withJitter (p : Policy) (jitter : Binary64) : Policy := { p with jitter }

/-! ## Checking -/

/-- A multiplier that does not shrink an interval: finite and at least one. -/
def growing (multiplier : Binary64) : Bool :=
  multiplier.isFinite && (Binary64.ofNat 1).atMost multiplier

/-- A jitter fraction between nothing and all of the interval. -/
def spreading (jitter : Binary64) : Bool :=
  (Binary64.ofNat 0).atMost jitter && jitter.atMost (.ofNat 1)

/-- The first reason to refuse a policy. -/
def refusal? (p : Policy) : Option Refusal :=
  if p.initial.isZero then some .zeroInitial
  else if p.ceiling < p.initial then some .ceilingBelowInitial
  else if !growing p.multiplier then some (.multiplier p.multiplier)
  else if !spreading p.jitter then some (.jitter p.jitter)
  else none

/-- Nothing speaks against the policy. -/
def Valid (p : Policy) : Prop := p.refusal? = none

instance (p : Policy) : Decidable p.Valid := inferInstanceAs (Decidable (_ = _))

/-- Equal settings, numbers being compared by value; a policy with NaN in it
differs from every policy. -/
def same (p q : Policy) : Bool :=
  p.initial == q.initial && p.ceiling == q.ceiling && p.budget == q.budget &&
    p.multiplier.same q.multiplier && p.jitter.same q.jitter

/-- Every setting, for debugging. -/
def inspect (p : Policy) : String :=
  Inspect.record "BackoffPolicy"
    [("initial_interval", p.initial.text), ("max_interval", p.ceiling.text),
      ("max_elapsed_time", Inspect.optional Span.text p.budget),
      ("multiplier", p.multiplier.pointed), ("randomization_factor", p.jitter.pointed)]

end Policy

end Recourse
