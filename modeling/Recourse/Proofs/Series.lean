import Recourse.Proofs.Timer
import Recourse.Retry.Runner

/-!
# Series, round by round

A series goes in rounds.  A round is an attempt, the question to the backoff
and the wait that follows.  `Series.pace` says when the rounds begin and which
backoff is asked in them, supposing that all of them are gone through, and so
needs neither the token nor the place where the series ends.  Everything else
about a round is read off the pace and the attempt made in it.

* `begins`, `returns` and `grant` are the timeline of a round: when its attempt
  begins, when it returns and which wait the backoff grants after it.
* `FiredBefore`, `FiredDuring` and `FiresInWait` list the ways in which the
  token can be fired: before an attempt, while it runs, and in the wait after
  it.  They speak of the script, the observer and the timer only.
* `lastFailure?` is the latest failure among the first attempts.
* `after` is the series after so many steps, ended or not.  What it makes its
  operation do is observed on its trace.

Rounds are counted from zero, and so are attempts.
-/

namespace Recourse

/-! ## The attempts of an operation -/

namespace Operation

variable {σ α : Type}

def stateAfter (operation : Operation σ α) (state : σ) : Nat → σ
  | 0 => state
  | n + 1 => (operation (operation.stateAfter state n)).2

def attemptAt (operation : Operation σ α) (state : σ) (n : Nat) : Attempt α :=
  (operation (operation.stateAfter state n)).1

/-- The operation that makes these attempts; its state is the number of attempts
made. -/
def ofSequence (attempts : Nat → Attempt α) : Operation Nat α := fun n => (attempts n, n + 1)

theorem stateAfter_ofSequence (attempts : Nat → Attempt α) (n : Nat) :
    (ofSequence attempts).stateAfter 0 n = n := by
  induction n with
  | zero => rfl
  | succ n ih => rw [stateAfter, ih, ofSequence]

theorem attemptAt_ofSequence (attempts : Nat → Attempt α) (n : Nat) :
    (ofSequence attempts).attemptAt 0 n = attempts n := by
  rw [attemptAt, stateAfter_ofSequence, ofSequence]

end Operation

theorem Script.attemptAt_operation {α : Type} (s : Script α) (n : Nat) :
    s.operation.attemptAt 0 n = s.attempt n := Operation.attemptAt_ofSequence s.attempt n

theorem Script.attempt_mem {α : Type} (s : Script α) (n : Nat) :
    s.attempt n ∈ s.first :: s.rest := by
  cases n with
  | zero => exact List.mem_cons_self
  | succ n =>
    rw [attempt, List.getD_eq_getElem?_getD]
    cases hget : s.rest[n]? with
    | none => exact List.getLastD_mem_cons
    | some a => exact List.mem_cons_of_mem _ (List.mem_of_getElem? hget)

/-- An attempt that fails at once over a lost connection. -/
def Attempt.lost : Attempt Unit :=
  ⟨[], false, .error (.transient Builtin.peerConnection.toFault)⟩

/-! ## Series -/

/-- A runner together with all that one of its series depends on. -/
structure Series (β σ : Type) where
  runner : Runner β
  scene : Scene
  operation : Operation σ Unit
  state : σ

namespace Series

variable {β σ : Type}

def made (s : Series β σ) (k : Nat) : Attempt Unit := s.operation.attemptAt s.state k

def outcome (s : Series β σ) (k : Nat) : Except Failure Unit := (s.made k).outcome

/-- The latest failure among the first `n` attempts. -/
def lastFailure? (s : Series β σ) : Nat → Option Failure
  | 0 => none
  | n + 1 =>
    match s.outcome n with
    | .ok () => s.lastFailure? n
    | .error failure => some failure

/-- The latest failure among the first `n` attempts, as it is reported. -/
def lastError? (s : Series β σ) (n : Nat) : Option CodedError :=
  (s.lastFailure? n).map Failure.report

theorem lastError?_succ_of_ok {s : Series β σ} {n : Nat} (hok : s.outcome n = .ok ()) :
    s.lastError? (n + 1) = s.lastError? n := by
  rw [lastError?, lastFailure?, hok, lastError?]

theorem lastError?_succ_of_error {s : Series β σ} {n : Nat} {failure : Failure}
    (hfail : s.outcome n = .error failure) :
    s.lastError? (n + 1) = some failure.report := by
  rw [lastError?, lastFailure?, hfail, Option.map_some]

/-- Series whose attempts come out alike have the same last errors. -/
theorem lastError?_congr {γ τ : Type} {r : Series γ τ} {s : Series β σ}
    (houtcome : ∀ k, r.outcome k = s.outcome k) (n : Nat) : r.lastError? n = s.lastError? n := by
  have hfailure : r.lastFailure? n = s.lastFailure? n := by
    induction n with
    | zero => rfl
    | succ n ih => rw [lastFailure?, lastFailure?, houtcome, ih]
  rw [lastError?, lastError?, hfailure]

def observerCancels (s : Series β σ) : Bool := s.runner.observer.any (·.cancels)

/-- A script played from the start of the clock, without an observer and with
the smallest draws. -/
def playing (backoff : β) (token : Token) (script : Script Unit) : Series β Nat where
  runner := ⟨backoff, none⟩
  scene := ⟨.start, token, fun _ => .least⟩
  operation := script.operation
  state := 0

/-- The same series with another runner. -/
def withRunner {γ : Type} (s : Series β σ) (runner : Runner γ) : Series γ σ :=
  ⟨runner, s.scene, s.operation, s.state⟩

theorem made_playing (backoff : β) (token : Token) (script : Script Unit) (k : Nat) :
    (playing backoff token script).made k = script.attempt k := script.attemptAt_operation k

variable [Backoff β]

/-! ### The timeline -/

/-- When round `k` begins and which backoff is asked in it, supposing that the
rounds before it are gone through. -/
def pace (s : Series β σ) : Nat → Instant × β
  | 0 => (s.scene.clock, Backoff.reset s.runner.backoff s.scene.clock)
  | k + 1 =>
    let (begun, backoff) := s.pace k
    let returned := (s.made k).ends s.scene.runtime begun
    let (granted, backoff) := Backoff.next backoff returned (s.scene.draws k)
    (s.scene.runtime.wake returned (granted.getD .zero), backoff)

def begins (s : Series β σ) (k : Nat) : Instant := (s.pace k).1

/-- The backoff that is asked if the attempt of a round fails. -/
def backoffAt (s : Series β σ) (k : Nat) : β := (s.pace k).2

def returns (s : Series β σ) (k : Nat) : Instant :=
  (s.made k).ends s.scene.runtime (s.begins k)

/-- The answer of the backoff if the attempt of a round fails, and the backoff
of the round after. -/
def answer (s : Series β σ) (k : Nat) : Option Span × β :=
  Backoff.next (s.backoffAt k) (s.returns k) (s.scene.draws k)

/-- The wait that is granted if the attempt of a round fails; none if the
backoff gives up there. -/
def grant (s : Series β σ) (k : Nat) : Option Span := (s.answer k).1

theorem backoffAt_succ (s : Series β σ) (k : Nat) : s.backoffAt (k + 1) = (s.answer k).2 := rfl

theorem begins_succ {s : Series β σ} {k : Nat} {delay : Span} (hgrant : s.grant k = some delay) :
    s.begins (k + 1) = s.scene.runtime.wake (s.returns k) delay := by
  have hnext : s.begins (k + 1) =
      s.scene.runtime.wake (s.returns k) ((s.grant k).getD .zero) := rfl
  rw [hnext, hgrant, Option.getD_some]

theorem begins_le_returns (s : Series β σ) (k : Nat) : s.begins k ≤ s.returns k :=
  Attempt.le_ends _ _ _

theorem returns_le_begins_succ (s : Series β σ) (k : Nat) : s.returns k ≤ s.begins (k + 1) :=
  Runtime.le_wake _ _ _

theorem begins_le_begins_succ (s : Series β σ) (k : Nat) : s.begins k ≤ s.begins (k + 1) :=
  Nat.le_trans (s.begins_le_returns k) (s.returns_le_begins_succ k)

/-! ### When the token is fired -/

/-- The token has been fired when the attempt of round `k` is about to begin,
supposing that the rounds before it are gone through. -/
inductive FiredBefore (s : Series β σ) (k : Nat) : Prop where
  | atStart (hfired : s.scene.token.fired = true)
  /-- Its timer was due earlier. -/
  | byTimer (due : Instant) (hdue : s.scene.token.due = some due) (hlt : due < s.begins k)
  /-- Its timer was due on the very tick on which the wait before the attempt
  ended. -/
  | onTick (hdue : s.scene.token.due = some (s.begins k)) (hpos : 0 < k)
  /-- An earlier attempt fired it. -/
  | byAttempt (i : Nat) (hi : i < k) (hcancels : (s.made i).cancels = true)
  /-- The observer fired it on being told of an earlier failure. -/
  | byObserver (hpos : 0 < k) (hcancels : s.observerCancels = true)

/-- The token is fired while the attempt of round `k` runs. -/
inductive FiredDuring (s : Series β σ) (k : Nat) : Prop where
  /-- Its timer is due before the attempt returns. -/
  | byTimer (due : Instant) (hdue : s.scene.token.due = some due)
      (hfrom : s.begins k ≤ due) (hlt : due < s.returns k)
  /-- The attempt fires it itself. -/
  | byAttempt (hcancels : (s.made k).cancels = true)

/-- The token, not fired so far, is fired at `c` in the wait of round `k`. -/
inductive FiresInWait (s : Series β σ) (k : Nat) : Instant → Prop where
  /-- The observer fires it as the wait begins. -/
  | byObserver (hcancels : s.observerCancels = true) : FiresInWait s k (s.returns k)
  /-- Its timer is due at some moment of the wait, the tick on which the wait
  ends included. -/
  | byTimer (due : Instant) (hdue : s.scene.token.due = some due)
      (hobserver : s.observerCancels = false)
      (hfrom : s.returns k ≤ due) (hto : due ≤ s.begins (k + 1)) : FiresInWait s k due

/-! ### The course of the series -/

def run? (s : Series β σ) (fuel : Nat) : Option (Run σ (Outcome Unit)) :=
  s.runner.run? fuel s.scene s.operation s.state

/-- The series after so many steps; once it has ended it stays as it is. -/
def after (s : Series β σ) : Nat → Step β σ
  | 0 => .goOn (s.runner.begin s.scene s.state)
  | n + 1 =>
    match s.after n with
    | .stop run => .stop run
    | .goOn p => s.runner.step s.scene s.operation p

end Series

def Step.trace {β σ : Type} : Step β σ → Trace
  | .goOn p => p.history.reverse
  | .stop run => run.trace

/-- How many attempts the runner has counted. -/
def Step.attempts {β σ : Type} : Step β σ → UInt32
  | .goOn p => p.attempts
  | .stop run => run.answer.attempts

/-- The series makes the attempt of round `k`: its operation is invoked for
that round at some step. -/
def Series.Makes {β σ : Type} [Backoff β] (s : Series β σ) (k : Nat) : Prop :=
  ∃ n, k < (s.after n).trace.beginnings.length

end Recourse
