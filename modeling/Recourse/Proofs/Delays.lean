import Recourse.Proofs.Truncation

/-!
# Delays

What a backoff answers to one question after the other.

* `Backoff.delay?` is the answer to a question, whatever the backoff, and
  `NeverFall` and `ClimbTo` are what may be asked of the answers as a whole.
* `Policy.interval` is what the interval of a policy has come to after so many
  steps.  An exponential backoff without jitter and without a budget answers with
  it (`delay?_eq`), and a series finds it in its rounds (`current_backoffAt`).
-/

namespace Recourse

/-! ## Questions in a row -/

namespace Backoff

variable {β : Type} [Backoff β]

/-- What a backoff is after `k` questions that are put to it at such times and
with such draws. -/
def asked (b : β) (times : Nat → Instant) (draws : Nat → Draw) : Nat → β
  | 0 => b
  | k + 1 => (Backoff.next (asked b times draws k) (times k) (draws k)).2

/-- Its answer to question `k`. -/
def delay? (b : β) (times : Nat → Instant) (draws : Nat → Draw) (k : Nat) : Option Span :=
  (Backoff.next (asked b times draws k) (times k) (draws k)).1

end Backoff

/-- There is always a delay, and none is shorter than the one before. -/
def NeverFall (delays : Nat → Option Span) : Prop :=
  ∀ k, ∃ earlier later,
    delays k = some earlier ∧ delays (k + 1) = some later ∧ earlier ≤ later

/-- Each delay is longer than the one before until a delay is the ceiling. -/
def ClimbTo (ceiling : Span) (delays : Nat → Option Span) : Prop :=
  ∀ k, (∀ j ≤ k, delays j ≠ some ceiling) → ∃ earlier later,
    delays k = some earlier ∧ delays (k + 1) = some later ∧ earlier < later

theorem neverFall_iff {interval : Nat → Span} :
    NeverFall (fun k => some (interval k)) ↔ ∀ k, interval k ≤ interval (k + 1) := by
  constructor
  · intro h k
    obtain ⟨_, _, hearlier, hlater, hle⟩ := h k
    rwa [← Option.some.inj hearlier, ← Option.some.inj hlater] at hle
  · intro h k
    exact ⟨_, _, rfl, rfl, h k⟩

theorem climbTo_iff {ceiling : Span} {interval : Nat → Span} :
    ClimbTo ceiling (fun k => some (interval k)) ↔
      ∀ k, (∀ j ≤ k, interval j ≠ ceiling) → interval k < interval (k + 1) := by
  have hnever (k : Nat) : (∀ j ≤ k, some (interval j) ≠ some ceiling) ↔
      ∀ j ≤ k, interval j ≠ ceiling := by
    simp only [ne_eq, Option.some.injEq]
  constructor
  · intro h k hbefore
    obtain ⟨_, _, hearlier, hlater, hlt⟩ := h k ((hnever k).2 hbefore)
    rwa [← Option.some.inj hearlier, ← Option.some.inj hlater] at hlt
  · intro h k hbefore
    exact ⟨_, _, rfl, rfl, h k ((hnever k).1 hbefore)⟩

theorem not_neverFall {delays : Nat → Option Span} {k : Nat} {earlier later : Span}
    (hearlier : delays k = some earlier) (hlater : delays (k + 1) = some later)
    (hfalls : later < earlier) : ¬NeverFall delays := by
  intro h
  obtain ⟨_, _, hk, hsucc, hle⟩ := h k
  rw [hearlier] at hk
  rw [hlater] at hsucc
  cases hk
  cases hsucc
  exact Nat.not_le_of_lt hfalls hle

theorem not_climbTo {ceiling : Span} {delays : Nat → Option Span} {earlier later : Span}
    (hearlier : delays 0 = some earlier) (hlater : delays 1 = some later)
    (hne : earlier ≠ ceiling) (hstalls : later ≤ earlier) : ¬ClimbTo ceiling delays := by
  intro h
  have hbefore (j : Nat) (hj : j ≤ 0) : delays j ≠ some ceiling := by
    rw [Nat.le_zero.1 hj, hearlier]
    exact fun heq => hne (Option.some.inj heq)
  obtain ⟨_, _, hzero, hone, hlt⟩ := h 0 hbefore
  rw [hearlier] at hzero
  rw [hlater] at hone
  cases hzero
  cases hone
  exact Nat.not_le_of_lt hlt hstalls

/-! ## The intervals of a policy -/

/-- What the interval has come to after `k` steps. -/
def Policy.interval (p : Policy) : Nat → Span
  | 0 => p.initial
  | k + 1 => p.grow (p.interval k)

namespace Exponential

/-- A backoff of the policy that has just been built, or reset after any use. -/
inductive Fresh (p : Policy) : Exponential → Prop where
  | built (now : Instant) : Fresh p (.start p now)
  | reset (used : Exponential) (hpolicy : used.policy = p) (now : Instant) :
    Fresh p (Backoff.reset used now)

theorem Fresh.eq_start {p : Policy} {b : Exponential} (h : b.Fresh p) :
    ∃ now, b = start p now := by
  cases h with
  | built now => exact ⟨now, rfl⟩
  | reset used hpolicy now =>
    subst hpolicy
    exact ⟨now, rfl⟩

theorem asked_start (p : Policy) (now : Instant) (times : Nat → Instant) (draws : Nat → Draw)
    (k : Nat) : Backoff.asked (start p now) times draws k = ⟨p, p.interval k, now⟩ := by
  induction k with
  | zero => rfl
  | succ k ih => rw [Backoff.asked, next_snd, ih, Policy.interval]

/-- Without jitter and without a budget the delays are the intervals, whenever
the questions are put. -/
theorem delay?_eq {p : Policy} (hsteady : p.Steady) (hbudget : p.budget = none)
    {b : Exponential} (hfresh : b.Fresh p) (times : Nat → Instant) (draws : Nat → Draw) :
    Backoff.delay? b times draws = fun k => some (p.interval k) := by
  obtain ⟨now, rfl⟩ := hfresh.eq_start
  funext k
  rw [Backoff.delay?, next_fst, asked_start, if_pos (Policy.affords_of_unlimited hbudget _ _),
    wait_of_steady hsteady]

end Exponential

/-- A series has come to these intervals in its rounds. -/
theorem Series.current_backoffAt {σ : Type} (s : Series Exponential σ) (k : Nat) :
    (s.backoffAt k).current = s.runner.backoff.policy.interval k := by
  induction k with
  | zero => rfl
  | succ k ih => rw [current_backoffAt_succ, ih, Policy.interval]

end Recourse
