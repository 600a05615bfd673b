import Recourse.Backoff.Exponential
import Recourse.Proofs.Series

/-!
# Exponential series

What a series asks its exponential backoff, and what it is answered.  The
policy and the beginning of the series never change under questions, so the
answer in a round depends on the time that has passed, on the interval the
round has come to and on its draw, and on nothing else (`grant_eq`).
-/

namespace Recourse

theorem Span.lt_most (s : Span) (hbelow : s < .longest) : s.nanos < most := by
  have hlt : s.nanos < min most most := hbelow
  rwa [Nat.min_self] at hlt

namespace Exponential

/-- The wait after the next failure, whether the budget affords it or not. -/
def wait (b : Exponential) (draw : Draw) : Span := b.current.jittered b.policy.jitter draw.value

theorem next_fst (b : Exponential) (now : Instant) (draw : Draw) :
    (Backoff.next b now draw).1 =
      if b.policy.affords (now.since b.started) (b.wait draw) then some (b.wait draw)
      else none := rfl

theorem next_snd (b : Exponential) (now : Instant) (draw : Draw) :
    (Backoff.next b now draw).2 = { b with current := b.policy.grow b.current } := rfl

end Exponential

namespace Policy

theorem affords_of_unlimited {p : Policy} (hbudget : p.budget = none) (elapsed wait : Span) :
    p.affords elapsed wait = true := by
  rw [affords, hbudget]

/-- Below the longest span the sum of time and wait is compared as it is. -/
theorem affords_iff {p : Policy} {budget : Span} (hbudget : p.budget = some budget)
    (hbelow : budget < .longest) (elapsed wait : Span) :
    p.affords elapsed wait = true ↔ elapsed.nanos + wait.nanos ≤ budget.nanos := by
  have hmost := budget.lt_most hbelow
  have hclamped : p.affords elapsed wait = true ↔
      min (elapsed.nanos + wait.nanos) Span.most ≤ budget.nanos := by
    simp only [affords, hbudget, decide_eq_true_eq]
    rfl
  rw [hclamped]
  omega

end Policy

namespace Series

variable {σ : Type}

theorem policy_backoffAt (s : Series Exponential σ) (k : Nat) :
    (s.backoffAt k).policy = s.runner.backoff.policy := by
  induction k with
  | zero => rfl
  | succ k ih => rw [backoffAt_succ, answer, Exponential.next_snd, ih]

theorem started_backoffAt (s : Series Exponential σ) (k : Nat) :
    (s.backoffAt k).started = s.scene.clock := by
  induction k with
  | zero => rfl
  | succ k ih => rw [backoffAt_succ, answer, Exponential.next_snd, ih]

theorem current_backoffAt_succ (s : Series Exponential σ) (k : Nat) :
    (s.backoffAt (k + 1)).current =
      s.runner.backoff.policy.grow (s.backoffAt k).current := by
  rw [backoffAt_succ, answer, Exponential.next_snd, policy_backoffAt]

/-- The wait that round `k` has come to, whether it is granted or not. -/
def delayAt (s : Series Exponential σ) (k : Nat) : Span :=
  (s.backoffAt k).wait (s.scene.draws k)

theorem grant_eq (s : Series Exponential σ) (k : Nat) :
    s.grant k =
      if s.runner.backoff.policy.affords ((s.returns k).since s.scene.clock) (s.delayAt k) then
        some (s.delayAt k)
      else none := by
  rw [grant, answer, Exponential.next_fst, policy_backoffAt, started_backoffAt, delayAt]

/-- Without a budget every wait is granted. -/
theorem grant_of_unlimited {s : Series Exponential σ}
    (hbudget : s.runner.backoff.policy.budget = none) (k : Nat) :
    s.grant k = some (s.delayAt k) := by
  rw [grant_eq, if_pos (Policy.affords_of_unlimited hbudget _ _)]

end Series

end Recourse
