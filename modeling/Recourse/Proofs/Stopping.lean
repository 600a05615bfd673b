import Recourse.Backoff.Scripted
import Recourse.Proofs.Exponential
import Recourse.Proofs.Observation

/-!
# Where a series stops

Without a cancellation a series ends in the first round whose attempt succeeds,
fails for good, or fails with the backoff giving up, and in no other.

* `Series.ending?` says what the attempt of a round and the answer of the
  backoff make of the series.
* `reaches_of_quiet` is the induction: a series whose token is left alone comes
  to every round before which no ending is due.
* `exit_of_ending` turns the ending that is due into an exit.
-/

namespace Recourse

namespace Series

variable {β σ : Type}

/-- Whether the attempt of a round fails and could be made again. -/
def failsTransiently (s : Series β σ) (k : Nat) : Bool :=
  match s.outcome k with
  | .error (.transient _) => true
  | _ => false

structure Uncancelled (s : Series β σ) : Prop where
  idle : s.scene.token = .idle
  attempts : ∀ i, (s.made i).cancels = false
  observer : s.observerCancels = false

theorem uncancelled_playing (backoff : β) {script : Script Unit}
    (hnone : ∀ a ∈ script.first :: script.rest, a.cancels = false) :
    (playing backoff .idle script).Uncancelled := by
  refine ⟨rfl, ?_, rfl⟩
  intro i
  rw [made_playing]
  exact hnone _ (script.attempt_mem i)

variable [Backoff β]

/-- How a round ends the series if the token is left alone; none if the series
goes on after it. -/
def ending? (s : Series β σ) (k : Nat) : Option Ending :=
  match s.outcome k, s.grant k with
  | .ok (), _ => some .succeeded
  | .error (.permanent _), _ => some .permanentlyFailed
  | .error (.transient _), none => some .exhausted
  | .error (.transient _), some _ => none

/-- Round `k` is the first that ends the series, and this is how. -/
structure EndsFirst (s : Series β σ) (k : Nat) (ending : Ending) : Prop where
  here : s.ending? k = some ending
  before : ∀ i < k, s.ending? i = none

/-- The token is not fired before the attempt of round `k` returns. -/
def QuietThrough (s : Series β σ) (k : Nat) : Prop := ¬s.FiredBefore k ∧ ¬s.FiredDuring k

omit [Backoff β] in
theorem failsTransiently_iff {s : Series β σ} {k : Nat} :
    s.failsTransiently k = true ↔ ∃ fault, s.outcome k = .error (.transient fault) := by
  unfold failsTransiently
  split
  · rename_i fault houtcome
    exact ⟨fun _ => ⟨fault, houtcome⟩, fun _ => rfl⟩
  · rename_i hother
    exact ⟨fun h => (by cases h), fun ⟨fault, hfail⟩ => absurd hfail (hother fault)⟩

theorem ending?_eq_none {s : Series β σ} {k : Nat} :
    s.ending? k = none ↔
      (∃ fault, s.outcome k = .error (.transient fault)) ∧ ∃ delay, s.grant k = some delay := by
  unfold ending?
  cases s.outcome k with
  | ok => simp
  | error failure =>
    cases failure with
    | permanent fault => simp
    | transient fault => cases s.grant k <;> simp

/-! ## Coming to a round -/

theorem firedReturning_of_quiet {s : Series β σ} {k : Nat} (h : s.QuietThrough k) :
    s.firedReturning k = false := by
  rw [Bool.eq_false_iff, ne_eq, firedReturning_iff]
  rintro (hbefore | hduring)
  · exact h.1 hbefore
  · exact h.2 hduring

theorem firedBefore_of_quiet {s : Series β σ} {k : Nat} (h : ¬s.FiredBefore k) :
    s.firedBefore k = false := by
  rw [Bool.eq_false_iff, ne_eq, firedBefore_iff]
  exact h

theorem FiredDuring.succ {s : Series β σ} {k : Nat} (h : s.FiredDuring k) :
    s.FiredBefore (k + 1) := by
  have hle := s.returns_le_begins_succ k
  rw [Instant.le_iff] at hle
  cases h with
  | byTimer due hdue _ hlt =>
    rw [Instant.lt_iff] at hlt
    exact .byTimer due hdue (Nat.lt_of_lt_of_le hlt hle)
  | byAttempt hcancels => exact .byAttempt k (Nat.lt_succ_self k) hcancels

/-- A round is gone through if it brings no ending and the token has not been
fired after it. -/
theorem retried_of_quiet {s : Series β σ} {k : Nat} (hgoes : s.ending? k = none)
    (hquiet : ¬s.FiredBefore (k + 1)) : s.Retried k := by
  have hbefore : ¬s.FiredBefore k := fun h => hquiet h.succ
  have hduring : ¬s.FiredDuring k := fun h => hquiet h.succ
  obtain ⟨hfail, hgrant⟩ := ending?_eq_none.1 hgoes
  refine ⟨firedBefore_of_quiet hbefore, hfail, firedReturning_of_quiet ⟨hbefore, hduring⟩,
    hgrant, ?_, ?_⟩
  · rw [Bool.eq_false_iff]
    intro hcancels
    exact hquiet (.byObserver (Nat.succ_pos k) hcancels)
  · intro due hdue hlt
    exact hquiet (.byTimer due hdue hlt)

/-- A series comes to every round before which no ending is due, as long as the
token is left alone. -/
theorem reaches_of_quiet {s : Series β σ} {k : Nat} (hgoes : ∀ i < k, s.ending? i = none)
    (hquiet : ¬s.FiredBefore k) : s.Reaches k := by
  induction k with
  | zero => exact .zero s
  | succ k ih =>
    have hreach := ih (fun i hi => hgoes i (Nat.lt_succ_of_lt hi)) (fun h => hquiet h.succ)
    exact hreach.succ (retried_of_quiet (hgoes k (Nat.lt_succ_self k)) hquiet)

/-! ## Ending in a round -/

/-- The backoff has been asked once for each round that was gone through. -/
theorem countP_failsTransiently {s : Series β σ} {k : Nat} (hreach : s.Reaches k) :
    (List.range k).countP s.failsTransiently = k := by
  induction k with
  | zero => rfl
  | succ k ih =>
    obtain ⟨fault, hfail⟩ := (hreach k (Nat.lt_succ_self k)).failed
    have hlast : s.failsTransiently k = true := by rw [failsTransiently, hfail]
    rw [List.range_succ, List.countP_append, ih (hreach.of_le (Nat.le_succ k)),
      List.countP_singleton, if_pos hlast]

/-- An ending that is due is the exit of its round.  The backoff is asked there
only if the attempt fails and could be made again. -/
theorem exit_of_ending {s : Series β σ} {k : Nat} {ending : Ending}
    (hending : s.ending? k = some ending) (hquiet : s.QuietThrough k) :
    ∃ c, s.Exit k c ∧ c.ending = ending ∧ c.made = k + 1 ∧ c.rounds = k ∧
      c.asked = k + if s.failsTransiently k then 1 else 0 := by
  have hopen := firedBefore_of_quiet hquiet.1
  cases houtcome : s.outcome k with
  | ok =>
    have hsame : Ending.succeeded = ending := by simpa [ending?, houtcome] using hending
    exact ⟨_, .succeeded hopen houtcome, hsame, rfl, rfl, by simp [failsTransiently, houtcome]⟩
  | error failure =>
    cases failure with
    | permanent fault =>
      have hsame : Ending.permanentlyFailed = ending := by simpa [ending?, houtcome] using hending
      exact ⟨_, .failed hopen fault houtcome, hsame, rfl, rfl,
        by simp [failsTransiently, houtcome]⟩
    | transient fault =>
      cases hgrant : s.grant k with
      | none =>
        have hsame : Ending.exhausted = ending := by
          simpa [ending?, houtcome, hgrant] using hending
        have hexit := Exit.spent hopen fault houtcome (firedReturning_of_quiet hquiet) hgrant
        exact ⟨_, hexit, hsame, rfl, rfl, by simp [failsTransiently, houtcome]⟩
      | some delay => simp [ending?, houtcome, hgrant] at hending

theorem Reaches.waited {s : Series β σ} {k : Nat} (hreach : s.Reaches k) :
    ∀ i < k, ∃ delay, s.grant i = some delay ∧ s.begins (i + 1) = s.scene.runtime.wake (s.returns i) delay ∧
      (s.returns i).after delay ≤ s.begins (i + 1) := by
  intro i hi
  obtain ⟨delay, hgrant⟩ := (hreach i hi).granted
  refine ⟨delay, hgrant, begins_succ hgrant, ?_⟩
  rw [begins_succ hgrant]
  exact s.scene.runtime.after_le_wake _ _

/-! ## The first ending -/

/-- The series ends in round `k`, with all that it does up to there: one attempt
for each round, none before the one before has returned and its wait is over,
and one answer of the backoff for each transient failure, in order. -/
structure StopsIn (s : Series β σ) (k : Nat) (ending : Ending)
    (run : Run σ (Outcome Unit)) : Prop where
  ends : ∀ fuel, s.run? fuel = if k < fuel then some run else none
  ending : run.answer.ending = ending
  attempts : run.answer.attempts.toNat = k + 1
  invoked : run.state = s.operation.stateAfter s.state (k + 1)
  beginnings : run.trace.beginnings = (List.range (k + 1)).map s.begins
  waited : ∀ i < k, ∃ delay, s.grant i = some delay ∧
    s.begins (i + 1) = s.scene.runtime.wake (s.returns i) delay ∧
    (s.returns i).after delay ≤ s.begins (i + 1)
  waits : run.trace.waits.map some = (List.range k).map s.grant
  asked : run.asked = (List.range (k + 1)).countP s.failsTransiently

theorem EndsFirst.stopsIn {s : Series β σ} {k : Nat} {ending : Ending}
    (hfirst : s.EndsFirst k ending) (hquiet : s.QuietThrough k) (hrange : k + 1 < UInt32.size) :
    ∃ run, s.StopsIn k ending run := by
  have hreach := reaches_of_quiet hfirst.before hquiet.1
  obtain ⟨c, hexit, hending, hmade, hrounds, hasked⟩ := exit_of_ending hfirst.here hquiet
  refine ⟨s.conclude c, run?_of_exit hreach hexit, hending, ?_, ?_, ?_, hreach.waited, ?_, ?_⟩
  · rw [conclude, hmade]
    exact UInt32.toNat_ofNat_of_lt' hrange
  · rw [conclude, hmade]
  · rw [hexit.beginnings hreach, hmade]
  · rw [hexit.waits hreach, hrounds]
  · rw [List.range_succ, List.countP_append, countP_failsTransiently hreach,
      List.countP_singleton]
    exact hasked

theorem EndsFirst.of_ok {s : Series β σ} {k : Nat}
    (hfails : ∀ i < k, s.failsTransiently i = true) (hgrants : ∀ i < k, s.grant i ≠ none)
    (hok : s.outcome k = .ok ()) : s.EndsFirst k .succeeded := by
  constructor
  · rw [ending?, hok]
  · intro i hi
    exact ending?_eq_none.2
      ⟨failsTransiently_iff.1 (hfails i hi), Option.ne_none_iff_exists'.1 (hgrants i hi)⟩

theorem EndsFirst.of_permanent {s : Series β σ} {k : Nat} {fault : Fault}
    (hbefore : ∀ i < k, s.ending? i = none) (hfail : s.outcome k = .error (.permanent fault)) :
    s.EndsFirst k .permanentlyFailed := by
  constructor
  · rw [ending?, hfail]
  · exact hbefore

/-! ## Series without a cancellation -/

theorem Uncancelled.not_firedBefore {s : Series β σ} (h : s.Uncancelled) (k : Nat) :
    ¬s.FiredBefore k := by
  have hfired : s.scene.token.fired = false := by rw [h.idle, Token.idle]
  have hdue : s.scene.token.due = none := by rw [h.idle, Token.idle]
  intro hbefore
  cases hbefore with
  | atStart htrue => exact Bool.false_ne_true (hfired.symm.trans htrue)
  | byTimer due hsome _ => cases hdue.symm.trans hsome
  | onTick hsome _ => cases hdue.symm.trans hsome
  | byAttempt i _ hcancels => exact Bool.false_ne_true ((h.attempts i).symm.trans hcancels)
  | byObserver _ hcancels => exact Bool.false_ne_true (h.observer.symm.trans hcancels)

theorem Uncancelled.quietThrough {s : Series β σ} (h : s.Uncancelled) (k : Nat) :
    s.QuietThrough k := by
  refine ⟨h.not_firedBefore k, ?_⟩
  intro hduring
  exact h.not_firedBefore (k + 1) hduring.succ

/-! ## Where a series ends -/

/-- A series whose token is left alone ends in the first round that brings an
ending, and in the way this round says.  If no round brings one, the series
never ends.

So a success after failures that the backoff all grants a wait ends it with one
attempt more than there were failures, and a permanent failure ends it whatever
the backoff would have granted. -/
theorem stops_at_first_ending (s : Series β σ) :
    (∀ k ending, s.EndsFirst k ending → s.QuietThrough k → k + 1 < UInt32.size →
      ∃ run, s.StopsIn k ending run) ∧
    ((∀ k, s.ending? k = none ∧ s.QuietThrough k) → ∀ fuel, s.run? fuel = none) ∧
    (∀ k, (∀ i < k, s.failsTransiently i = true) → (∀ i < k, s.grant i ≠ none) →
      s.outcome k = .ok () → s.QuietThrough k → k + 1 < UInt32.size →
      ∃ run, s.StopsIn k .succeeded run) ∧
    ∀ k fault, (∀ i < k, s.ending? i = none) → s.outcome k = .error (.permanent fault) →
      s.QuietThrough k → k + 1 < UInt32.size → ∃ run, s.StopsIn k .permanentlyFailed run := by
  refine ⟨?_, ?_, ?_, ?_⟩
  · intro k ending hfirst hquiet hrange
    exact hfirst.stopsIn hquiet hrange
  · intro hgoes fuel
    have hreach := reaches_of_quiet (k := fuel) (fun i _ => (hgoes i).1) (hgoes fuel).2.1
    exact run?_of_goOn (after_of_reaches hreach)
  · intro k hfails hgrants hok hquiet hrange
    exact (EndsFirst.of_ok hfails hgrants hok).stopsIn hquiet hrange
  · intro k fault hbefore hfail hquiet hrange
    exact (EndsFirst.of_permanent hbefore hfail).stopsIn hquiet hrange

/-- A lost connection and what comes after it, with two waits to grant. -/
def retryingTwice (rest : List (Attempt Unit)) : Series Scripted Nat :=
  playing (.start [.ofMillis 1, .ofMillis 2]) .idle ⟨.lost, rest⟩

def retryingForever : Series Exponential Nat :=
  playing (.start { Policy.standard with budget := none } .start) .idle ⟨.lost, []⟩

/-- A backoff that gives up, a series that never ends, a success at the last
attempt, and a permanent failure with a wait left to grant. -/
theorem stops_in_four_ways :
    (∃ run, (retryingTwice []).StopsIn 2 .exhausted run) ∧
    (∀ fuel, retryingForever.run? fuel = none) ∧
    (∃ run, (retryingTwice [.lost, ⟨[], false, .ok ()⟩]).StopsIn 2 .succeeded run) ∧
    ∃ run, (retryingTwice [⟨[], false, .error (.permanent .expired)⟩]).StopsIn 1
      .permanentlyFailed run := by
  have hforever : ∀ k, retryingForever.ending? k = none := by
    intro k
    refine ending?_eq_none.2 ⟨⟨Builtin.peerConnection.toFault, ?_⟩, _, grant_of_unlimited rfl k⟩
    rw [outcome, retryingForever, made_playing]
    cases k <;> rfl
  refine ⟨?_, ?_, ?_, ?_⟩
  · exact (stops_at_first_ending (retryingTwice [])).1 2 .exhausted ⟨by decide, by decide⟩
      ((uncancelled_playing _ (by decide)).quietThrough 2) (by decide)
  · have hquiet := Uncancelled.quietThrough (s := retryingForever)
      (uncancelled_playing _ (by decide))
    exact (stops_at_first_ending retryingForever).2.1 fun k => ⟨hforever k, hquiet k⟩
  · exact (stops_at_first_ending (retryingTwice _)).2.2.1 2 (by decide) (by decide) rfl
      ((uncancelled_playing _ (by decide)).quietThrough 2) (by decide)
  · exact (stops_at_first_ending (retryingTwice _)).2.2.2 1 .expired (by decide) rfl
      ((uncancelled_playing _ (by decide)).quietThrough 1) (by decide)

end Series

end Recourse
