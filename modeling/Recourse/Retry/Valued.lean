import Recourse.Retry.Runner

/-!
# Attempts that yield a value

The runner itself knows success and failure only.  An operation that yields a
value keeps it in a slot beside its own state, and once the series has
succeeded the slot holds the value of its last attempt.
-/

namespace Recourse

namespace Operation

variable {σ α : Type}

/-- The operation without its values: they go into the slot. -/
def filling (operation : Operation σ α) : Operation (σ × Option α) Unit := fun (state, slot) =>
  let (attempt, state) := operation state
  match attempt.outcome with
  | .ok value => (attempt.mapOutcome fun _ => .ok (), (state, some value))
  | .error failure => (attempt.mapOutcome fun _ => .error failure, (state, slot))

/-- The operation without its values. -/
def discarding (operation : Operation σ α) : Operation σ Unit := fun state =>
  let (attempt, state) := operation state
  (attempt.mapOutcome fun outcome => outcome.map fun _ => (), state)

end Operation

/-- The value in the slot. -/
def slotValue : Option α → Except CodedError α
  | some value => .ok value
  | none =>
    .error (Builtin.generalFailure.wrapText "operation reported success without a value")

namespace Runner

variable {β σ α : Type}

/-- Takes the value out of the slot at the end of a series. -/
def collect (run : Run (σ × Option α) (Outcome Unit)) : Run σ (Outcome α) where
  answer := run.answer.andThen fun () => slotValue run.state.2
  clock := run.clock
  token := run.token
  state := run.state.1
  asked := run.asked
  trace := run.trace

/-- Runs a series of attempts that yield a value. -/
def runValue? [Backoff β] (r : Runner β) (fuel : Nat) (scene : Scene)
    (operation : Operation σ α) (state : σ) : Option (Run σ (Outcome α)) :=
  (r.run? fuel scene operation.filling (state, none)).map collect

end Runner

end Recourse
