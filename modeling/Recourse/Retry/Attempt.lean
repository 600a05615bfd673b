import Recourse.Fault.Coding
import Recourse.Fault.Transience
import Recourse.Retry.Runtime

/-!
# Attempts

An attempt takes some time and then succeeds with a value or fails.  It may wait
on the timer of the runtime, and on anything else for just as long as that takes.
A failure says whether another attempt may be made.

An operation that is tried again and again is a function from a state to its
next attempt and the state after it, so what it does may depend on how often
it has been called.  A `Script` is the simplest one: a list of attempts, the
last of which repeats.
-/

namespace Recourse

/-- Why an attempt failed, and whether another one may be made. -/
inductive Failure where
  /-- Another attempt may succeed. -/
  | transient (fault : Fault)
  /-- No other attempt is to be made. -/
  | permanent (fault : Fault)
  deriving DecidableEq, Repr

namespace Failure

/-- The fault, whatever the tag. -/
def fault : Failure → Fault
  | transient fault => fault
  | permanent fault => fault

/-- Whether no other attempt is to be made. -/
def isPermanent : Failure → Bool
  | transient _ => false
  | permanent _ => true

/-- An untagged fault is taken to be transient. -/
def ofFault (f : Fault) : Failure := transient f

/-- The failure tagged by the verdict of the fault itself. -/
def byVerdict (f : Fault) : Failure := if f.isTransient then transient f else permanent f

/-- The coded error that reports the failure. -/
def report (f : Failure) : CodedError := f.fault.toCoded

end Failure

/-- Something that takes an attempt some time. -/
inductive Wait where
  /-- A wait on the timer. -/
  | timer (length : Span)
  /-- Anything else, such as a reply from a peer: it takes this long. -/
  | other (length : Span)
  deriving DecidableEq

/-- Spans alone are waits on the timer. -/
instance : Coe (List Span) (List Wait) := ⟨List.map .timer⟩

/-- The instant at which a wait begun at `t` ends. -/
def Wait.ends (w : Wait) (runtime : Runtime) (t : Instant) : Instant :=
  match w with
  | timer length => runtime.wake t length
  | other length => t.after length

/-- One try of an operation. -/
structure Attempt (α : Type) where
  /-- What it waits for, one after the other. -/
  waits : List Wait
  /-- Whether it cancels its own series just before it returns. -/
  cancels : Bool
  outcome : Except Failure α

/-- An operation: its next attempt in a state, and the state after it. -/
abbrev Operation (σ α : Type) := σ → Attempt α × σ

namespace Attempt

/-- The instant at which an attempt begun at `t` returns. -/
def ends (a : Attempt α) (runtime : Runtime) (t : Instant) : Instant :=
  a.waits.foldl (fun t wait => wait.ends runtime t) t

/-- The same attempt with another outcome. -/
def mapOutcome (f : Except Failure α → Except Failure β) (a : Attempt α) : Attempt β :=
  ⟨a.waits, a.cancels, f a.outcome⟩

end Attempt

/-- Attempts to be made in order; the last one repeats. -/
structure Script (α : Type) where
  first : Attempt α
  rest : List (Attempt α)

namespace Script

/-- The attempt with a number, counted from zero. -/
def attempt (s : Script α) : Nat → Attempt α
  | 0 => s.first
  | n + 1 => s.rest.getD n (s.rest.getLastD s.first)

/-- The operation that plays a script; its state is the number of attempts
made. -/
def operation (s : Script α) : Operation Nat α := fun n => (s.attempt n, n + 1)

end Script

end Recourse
