import Recourse.Backoff.Policy

/-!
# Settings of a series

A series is set up by a list of settings on top of the ones to start from.  They
are applied in order, so of two values for the same setting the later counts.
-/

namespace Recourse

/-- Someone who is told of failures that will be retried, and who may fire the
token on being told. -/
structure Observer where
  tag : String
  cancels : Bool
  deriving DecidableEq, Repr

/-- One setting and its value. -/
inductive Setting where
  | initial (interval : Span)
  | ceiling (interval : Span)
  /-- The time budget; no time means no limit. -/
  | budget (budget : Span)
  | multiplier (multiplier : Binary64)
  | jitter (jitter : Binary64)
  | observer (observer : Observer)
  deriving DecidableEq

/-- The policy of the waits and the observer, if there is one. -/
structure Settings where
  policy : Policy
  observer : Option Observer
  deriving DecidableEq

namespace Settings

/-- A policy without an observer. -/
def ofPolicy (policy : Policy) : Settings := ⟨policy, none⟩

/-- The standard policy without an observer. -/
def standard : Settings := ofPolicy .standard

/-- Applies one setting. -/
def set (s : Settings) : Setting → Settings
  | .initial interval => { s with policy.initial := interval }
  | .ceiling interval => { s with policy.ceiling := interval }
  | .budget budget => { s with policy.budget := if budget.isZero then none else some budget }
  | .multiplier multiplier => { s with policy.multiplier := multiplier }
  | .jitter jitter => { s with policy.jitter := jitter }
  | .observer observer => { s with observer := some observer }

/-- Applies settings in order. -/
def apply (s : Settings) (changes : List Setting) : Settings := changes.foldl set s

/-- The observer as it is shown for debugging: present or not. -/
def inspectObserver (observer : Option Observer) : String :=
  Inspect.optional (fun _ => Inspect.quoted "..") observer

/-- Every setting, for debugging. -/
def inspect (s : Settings) : String :=
  Inspect.record "RetryConfig"
    [("backoff", s.policy.inspect), ("notify", inspectObserver s.observer)]

end Settings

/-- A setting, for debugging. -/
def Setting.inspect : Setting → String
  | initial d => Inspect.tagged "InitialInterval" d.text
  | ceiling d => Inspect.tagged "MaxInterval" d.text
  | budget d => Inspect.tagged "MaxElapsedTime" d.text
  | multiplier x => Inspect.tagged "Multiplier" x.pointed
  | jitter x => Inspect.tagged "RandomizationFactor" x.pointed
  | observer _ => Inspect.tagged "Notify" ".."

end Recourse
