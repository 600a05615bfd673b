import Recourse.Backoff.Basic
import Recourse.Retry.Attempt
import Recourse.Retry.Event
import Recourse.Retry.Outcome
import Recourse.Retry.Settings
import Recourse.Retry.Token

/-!
# Running a series of attempts

A `Runner` makes attempts one after the other until one succeeds, one fails for
good, the backoff gives up, or the token is fired.  The token is looked at
three times: before an attempt, after a failed one, and all through the wait
that follows.  A success or a permanent failure stands even if the token was
fired meanwhile.

`Runner.step` makes one attempt with everything around it, and `Runner.run?`
repeats it.  A series may go on for ever, so the number of steps is limited by
a fuel argument; with enough of it the answer no longer depends on it.
-/

namespace Recourse

/-- A backoff to start each series with, and the observer of the series. -/
structure Runner (β : Type) where
  backoff : β
  observer : Option Observer

/-- The surroundings of a series: the runtime, the time, the token and the random
draws.  Where no runtime is named it is the one that ticks. -/
structure Scene where
  [runtime : Runtime]
  clock : Instant
  token : Token
  /-- The draw for each question to the backoff. -/
  draws : Nat → Draw

/-- A series under way. -/
structure Progress (β σ : Type) where
  backoff : β
  clock : Instant
  token : Token
  /-- The state of the operation. -/
  state : σ
  attempts : UInt32
  lastError : Option CodedError
  /-- How often the backoff has been asked. -/
  asked : Nat
  /-- The events so far, the latest first. -/
  history : List Event

/-- What a series leaves behind: its answer, the time and the token at its end,
the state of the operation and the events in order. -/
structure Run (σ ρ : Type) where
  answer : ρ
  clock : Instant
  token : Token
  state : σ
  /-- How often the backoff was asked. -/
  asked : Nat
  trace : Trace

/-- The same run with another answer. -/
def Run.map (f : ρ → ρ') (r : Run σ ρ) : Run σ ρ' := { r with answer := f r.answer }

/-- A series after one more step. -/
inductive Step (β σ : Type) where
  | goOn (progress : Progress β σ)
  | stop (run : Run σ (Outcome Unit))

namespace Progress

variable {β σ : Type}

/-- The same series after one more event. -/
def record (p : Progress β σ) (event : Event) : Progress β σ :=
  { p with history := event :: p.history }

/-- Ends a series that began at `started`. -/
def finish (p : Progress β σ) (started : Instant) (ending : Ending)
    (result : Except CodedError Unit) : Step β σ :=
  .stop
    { answer := ⟨result, ending, p.attempts, p.clock.since started, p.lastError⟩
      clock := p.clock
      token := p.token
      state := p.state
      asked := p.asked
      trace := p.history.reverse }

/-- The error that reports a cancellation, over the last error if there is
one. -/
def cancellation (p : Progress β σ) : CodedError :=
  match p.lastError with
  | some error => Builtin.retryCanceled.wrap error.toFault
  | none => Builtin.retryCanceled

/-- Ends a series because its token was fired. -/
def cancel (p : Progress β σ) (started : Instant) (event : Event) : Step β σ :=
  (p.record event).finish started .cancelled (.error p.cancellation)

/-- Waits before the next attempt, unless the token cuts the wait short. -/
def wait (p : Progress β σ) (scene : Scene) (delay : Span) : Step β σ :=
  let ends := scene.runtime.wake p.clock delay
  -- The choice, in which the token is asked before the timer.
  match scene.runtime.choose p.token p.clock ends with
  | some cut =>
    { p with clock := cut, token := p.token.fire }.cancel scene.clock
      (.cancelledWaiting p.attempts)
  | none =>
    -- The yield.  Without it a token that is due on the tick on which the wait
    -- ends would not be found fired before the next attempt.
    let fired := scene.runtime.findsAfterYield p.token ends
    .goOn { p with clock := ends, token := { p.token with fired } }

/-- Tells the observer of a failure that will be retried. -/
def notify (p : Progress β σ) (observer : Option Observer) (started : Instant)
    (error : CodedError) (delay : Span) : Progress β σ :=
  match observer with
  | none => p
  | some observer =>
    let p := p.record (.notified ⟨observer.tag, error, delay, p.clock.since started⟩)
    if observer.cancels then { p with token := p.token.fire } else p

/-- Asks the backoff after a transient failure, and waits or gives up. -/
def retry [Backoff β] (p : Progress β σ) (observer : Option Observer) (scene : Scene)
    (error : CodedError) : Step β σ :=
  let (granted, backoff) := Backoff.next p.backoff p.clock (scene.draws p.asked)
  let p := { p with backoff, asked := p.asked + 1, lastError := some error }
  match granted with
  | none =>
    let reason := Backoff.exhausted backoff
    (p.record (.gaveUp p.attempts error.code reason.code)).finish scene.clock .exhausted
      (.error (reason.wrap error.toFault))
  | some delay =>
    let p := p.notify observer scene.clock error delay
    (p.record (.retrying p.attempts delay error.code)).wait scene delay

/-- Makes one attempt, up to its return. -/
def attempt (p : Progress β σ) (runtime : Runtime) (operation : Operation σ Unit) :
    Except Failure Unit × Progress β σ :=
  let (made, state) := operation p.state
  let number := p.attempts + 1
  let ends := made.ends runtime p.clock
  let token := { p.token with fired := runtime.finds p.token ends }
  let token := if made.cancels then token.fire else token
  (made.outcome,
    { p.record (.began number p.clock) with attempts := number, clock := ends, token, state })

/-- Takes up the result of an attempt. -/
def settle [Backoff β] (p : Progress β σ) (observer : Option Observer) (scene : Scene) :
    Except Failure Unit → Step β σ
  | .ok () =>
    let p := if 1 < p.attempts then p.record (.recovered p.attempts) else p
    p.finish scene.clock .succeeded (.ok ())
  | .error (.permanent fault) =>
    let error := fault.toCoded
    let p := { p with lastError := some error }
    (p.record (.failedForGood p.attempts error.code)).finish scene.clock .permanentlyFailed
      (.error error)
  | .error (.transient fault) =>
    let error := fault.toCoded
    if p.token.fired then
      { p with lastError := some error }.cancel scene.clock
        (.cancelledDuring p.attempts error.code)
    else p.retry observer scene error

end Progress

namespace Runner

variable {β σ α : Type}

/-- The series before its first attempt. -/
def begin [Backoff β] (r : Runner β) (scene : Scene) (state : σ) : Progress β σ where
  backoff := Backoff.reset r.backoff scene.clock
  clock := scene.clock
  token := { scene.token with fired := scene.runtime.finds scene.token scene.clock }
  state := state
  attempts := 0
  lastError := none
  asked := 0
  history := []

/-- One attempt with everything around it, in a series that began with
`scene`. -/
def step [Backoff β] (r : Runner β) (scene : Scene) (operation : Operation σ Unit)
    (p : Progress β σ) : Step β σ :=
  if p.token.fired then p.cancel scene.clock (.cancelledBefore p.attempts)
  else
    let (outcome, p) := p.attempt scene.runtime operation
    p.settle r.observer scene outcome

/-- Repeats steps until the series ends; none if the fuel does not last. -/
def drive [Backoff β] (r : Runner β) (scene : Scene) (operation : Operation σ Unit) :
    Nat → Progress β σ → Option (Run σ (Outcome Unit))
  | 0, _ => none
  | fuel + 1, p =>
    match r.step scene operation p with
    | .stop run => some run
    | .goOn p => r.drive scene operation fuel p

/-- A series that ends within some fuel ends in the same way with more. -/
theorem drive_add [Backoff β] (r : Runner β) (scene : Scene) (operation : Operation σ Unit)
    {fuel : Nat} {p : Progress β σ} {run : Run σ (Outcome Unit)}
    (h : r.drive scene operation fuel p = some run) (extra : Nat) :
    r.drive scene operation (fuel + extra) p = some run := by
  induction fuel generalizing p with
  | zero => simp [drive] at h
  | succ fuel ih =>
    rw [Nat.succ_add]
    simp only [drive] at h ⊢
    cases hstep : r.step scene operation p with
    | stop ended => simpa [hstep] using h
    | goOn next =>
      rw [hstep] at h
      exact ih h

/-- Runs a series of at most `fuel` steps. -/
def run? [Backoff β] (r : Runner β) (fuel : Nat) (scene : Scene)
    (operation : Operation σ Unit) (state : σ) : Option (Run σ (Outcome Unit)) :=
  r.drive scene operation fuel (r.begin scene state)

/-- The runner for debugging, given how its backoff is shown. -/
def inspect (backoff : β → String) (r : Runner β) : String :=
  Inspect.record "Retrier"
    [("backoff", backoff r.backoff), ("notify", Settings.inspectObserver r.observer)]

end Runner

end Recourse
