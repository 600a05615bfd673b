import Recourse.Retry.Build
import Recourse.Retry.Valued

/-!
# Ready-made series

Series with nothing to build beforehand.

* `Preset.retry?` follows the standard policy with its time budget.
* `Preset.forever?` has no time limit unless the settings given set one.
* `Preset.upTo?` makes a limited number of attempts, each of which may also
  answer that it is not done yet.

Each gives the result alone.  If the settings are refused, that is the result,
and neither the operation nor the clock has been touched.
-/

namespace Recourse

namespace Preset

variable {β σ α : Type}

/-- A series that ends before it begins. -/
def refused (scene : Scene) (state : σ) (refusal : Refusal) : Run σ (Except CodedError α) where
  answer := .error refusal.error
  clock := scene.clock
  token := scene.token
  state := state
  asked := 0
  trace := []

/-- Runs a series with a runner, unless it was refused. -/
def runWith (runner : Except Refusal (Runner β)) (scene : Scene) (state : σ)
    (run? : Runner β → Option (Run σ (Outcome α))) : Option (Run σ (Except CodedError α)) :=
  match runner with
  | .error refusal => some (refused scene state refusal)
  | .ok runner => (run? runner).map (·.map Outcome.result)

/-- Retries under the standard policy. -/
def retry? (fuel : Nat) (scene : Scene) (operation : Operation σ Unit) (state : σ) :
    Option (Run σ (Except CodedError Unit)) :=
  runWith (Runner.ofSettings .standard scene.clock) scene state
    (·.run? fuel scene operation state)

/-- Retries under the standard policy until there is a value. -/
def retryValue? (fuel : Nat) (scene : Scene) (operation : Operation σ α) (state : σ) :
    Option (Run σ (Except CodedError α)) :=
  runWith (Runner.ofSettings .standard scene.clock) scene state
    (·.runValue? fuel scene operation state)

/-- The runner without a time limit, except one that the changes set. -/
def unending (changes : List Setting) (now : Instant) : Except Refusal (Runner Exponential) :=
  Runner.withChanges (.budget .zero :: changes) now

/-- Retries without a time limit. -/
def forever? (fuel : Nat) (changes : List Setting) (scene : Scene)
    (operation : Operation σ Unit) (state : σ) : Option (Run σ (Except CodedError Unit)) :=
  runWith (unending changes scene.clock) scene state (·.run? fuel scene operation state)

/-- Retries without a time limit until there is a value. -/
def foreverValue? (fuel : Nat) (changes : List Setting) (scene : Scene)
    (operation : Operation σ α) (state : σ) : Option (Run σ (Except CodedError α)) :=
  runWith (unending changes scene.clock) scene state (·.runValue? fuel scene operation state)

/-- The failure of an attempt that was not done yet. -/
def notDoneYet : Failure :=
  .transient (Builtin.retryOperationFailed.withMessage "operation has not succeeded yet").toFault

/-- The operation for which only an answer of true is a success. -/
def untilDone (operation : Operation σ Bool) : Operation σ Unit := fun state =>
  let (attempt, state) := operation state
  (attempt.mapOutcome fun
    | .ok true => .ok ()
    | .ok false => .error notDoneYet
    | .error failure => .error failure, state)

/-- The runner of a limited number of attempts.  The number is checked before
the changes are. -/
def limited (cap : UInt32) (changes : List Setting) (now : Instant) :
    Except Refusal (Runner (Capped Exponential)) :=
  if cap = 0 then .error .zeroAttempts else (unending changes now).bind (·.capped cap)

/-- Makes at most `cap` attempts, until one answers true. -/
def upTo? (fuel : Nat) (cap : UInt32) (changes : List Setting) (scene : Scene)
    (operation : Operation σ Bool) (state : σ) : Option (Run σ (Except CodedError Unit)) :=
  runWith (limited cap changes scene.clock) scene state
    (·.run? fuel scene (untilDone operation) state)

end Preset

end Recourse
