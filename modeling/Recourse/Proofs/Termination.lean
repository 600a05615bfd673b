import Recourse.Proofs.Budget
import Recourse.Proofs.Delays
import Recourse.Proofs.Interval

/-!
# Series with a budget end

Nothing but its budget ends a series whose attempts fail for ever.  It does so
because no interval is ever zero, the timer makes a whole millisecond of any
other wait, and the budget counts that time.  The attempts may take any time or
none.

* `interval_pos` is what the policy has to do with it.
* `begins_add_tick` is the millisecond of a round, and `clock_add_le_begins` are
  those of all rounds before.
* `GrantsBefore.le_ticks` bounds the rounds by the milliseconds of the budget.
-/

namespace Recourse

/-- The milliseconds of a span, rounded up. -/
def Span.ticks (s : Span) : Nat := (s.nanos + (milliNanos - 1)) / milliNanos

/-- No interval of a valid policy is zero. -/
theorem Policy.interval_pos {p : Policy} (hvalid : p.Valid) (k : Nat) :
    0 < (p.interval k).nanos := by
  obtain ⟨hinitial, hceiling, _⟩ := valid_iff.1 hvalid
  induction k with
  | zero => exact hinitial
  | succ k ih =>
    rw [interval, grow_nanos hvalid]
    split
    · exact Nat.lt_of_lt_of_le hinitial hceiling
    · exact Span.stretched_pos ih hvalid.multiplier.1

/-! ## Whole milliseconds -/

/-- A wait of some time ends a whole millisecond later than the latest one before
it, or more. -/
theorem Runtime.add_le_wake (runtime : Runtime) {tick t : Instant} (htick : tick.OnTick)
    (hle : tick ≤ t) {wait : Span} (hpos : 0 < wait.nanos) :
    tick.nanos + Span.milliNanos ≤ (runtime.wake t wait).nanos := by
  have hlater : tick.nanos < (runtime.wake t wait).nanos := by
    have hover := runtime.after_le_wake t wait
    rw [Instant.le_iff] at hle hover
    simp only [Instant.after] at hover
    omega
  have hwake := runtime.onTick_wake t hpos
  unfold Instant.OnTick Span.milliNanos at *
  omega

namespace Series

variable {σ : Type}

/-! ## Rounds of a millisecond -/

section Rounds

variable {s : Series Exponential σ} {budget : Span}

theorem delayAt_pos (hvalid : s.runner.backoff.policy.Valid)
    (hsteady : s.runner.backoff.policy.Steady) (k : Nat) : 0 < (s.delayAt k).nanos := by
  rw [delayAt_of_steady hsteady, current_backoffAt]
  exact Policy.interval_pos hvalid k

theorem grant_pos (hvalid : s.runner.backoff.policy.Valid)
    (hsteady : s.runner.backoff.policy.Steady) {k : Nat} {delay : Span}
    (hgrant : s.grant k = some delay) : 0 < delay.nanos := by
  rw [eq_delayAt_of_grant hgrant]
  exact delayAt_pos hvalid hsteady k

theorem onTick_begins (hvalid : s.runner.backoff.policy.Valid)
    (hsteady : s.runner.backoff.policy.Steady) (htick : s.scene.clock.OnTick) {k : Nat}
    (hgrants : s.GrantsBefore k) : (s.begins k).OnTick := by
  cases k with
  | zero => exact htick
  | succ k =>
    obtain ⟨delay, hgrant⟩ := Option.ne_none_iff_exists'.1 (hgrants k (Nat.lt_succ_self k))
    rw [begins_succ hgrant]
    exact s.scene.runtime.onTick_wake _ (grant_pos hvalid hsteady hgrant)

/-- A round takes a millisecond at least, even if its attempt takes no time. -/
theorem begins_add_tick (hvalid : s.runner.backoff.policy.Valid)
    (hsteady : s.runner.backoff.policy.Steady) {k : Nat} (htick : (s.begins k).OnTick)
    {delay : Span} (hgrant : s.grant k = some delay) :
    (s.begins k).nanos + Span.milliNanos ≤ (s.begins (k + 1)).nanos := by
  have hpos := grant_pos hvalid hsteady hgrant
  rw [begins_succ hgrant]
  exact s.scene.runtime.add_le_wake htick (s.begins_le_returns k) hpos

theorem clock_add_le_begins (hvalid : s.runner.backoff.policy.Valid)
    (hsteady : s.runner.backoff.policy.Steady) (htick : s.scene.clock.OnTick) {k : Nat}
    (hgrants : s.GrantsBefore k) :
    s.scene.clock.nanos + k * Span.milliNanos ≤ (s.begins k).nanos := by
  induction k with
  | zero =>
    rw [Nat.zero_mul]
    exact Nat.le_refl _
  | succ k ih =>
    have hbefore : s.GrantsBefore k := fun i hi => hgrants i (Nat.lt_succ_of_lt hi)
    have hbegins := ih hbefore
    have hround := onTick_begins hvalid hsteady htick hbefore
    obtain ⟨delay, hgrant⟩ := Option.ne_none_iff_exists'.1 (hgrants k (Nat.lt_succ_self k))
    calc s.scene.clock.nanos + (k + 1) * Span.milliNanos =
          s.scene.clock.nanos + k * Span.milliNanos + Span.milliNanos := by
          rw [Nat.add_mul, Nat.one_mul, Nat.add_assoc]
      _ ≤ (s.begins k).nanos + Span.milliNanos := Nat.add_le_add_right hbegins _
      _ ≤ (s.begins (k + 1)).nanos := begins_add_tick hvalid hsteady hround hgrant

/-- There are no more rounds than milliseconds in the budget, and one to give up
in. -/
theorem GrantsBefore.le_ticks {k : Nat} (hgrants : s.GrantsBefore k)
    (hvalid : s.runner.backoff.policy.Valid) (hsteady : s.runner.backoff.policy.Steady)
    (hbudget : s.runner.backoff.policy.budget = some budget) (hbelow : budget < .longest)
    (htick : s.scene.clock.OnTick) : k ≤ budget.ticks := by
  cases k with
  | zero => exact Nat.zero_le _
  | succ k =>
    have hbegins := clock_add_le_begins hvalid hsteady htick
      fun i hi => hgrants i (Nat.lt_succ_of_lt hi)
    obtain ⟨delay, hgrant⟩ := Option.ne_none_iff_exists'.1 (hgrants k (Nat.lt_succ_self k))
    obtain ⟨_, hfits⟩ := (grant_iff hbudget hbelow k delay).1 hgrant
    have hpos := grant_pos hvalid hsteady hgrant
    have hattempt := s.begins_le_returns k
    rw [Instant.le_iff] at hattempt
    unfold Span.ticks Span.milliNanos at *
    omega

end Rounds

/-! ## The end -/

/-- A series with a budget on a whole millisecond makes no more attempts than
there are milliseconds in the budget, rounded up, and one more.  It ends within
as many steps, whatever its operation does and however long that takes. -/
theorem ends_within_budget (s : Series Exponential σ) (budget : Span)
    (hvalid : s.runner.backoff.policy.Valid) (hsteady : s.runner.backoff.policy.Steady)
    (hbudget : s.runner.backoff.policy.budget = some budget) (hbelow : budget < .longest)
    (htick : s.scene.clock.OnTick) :
    (∀ n, (s.after n).trace.beginnings.length ≤ budget.ticks + 1) ∧
      ∃ run, run.trace.beginnings.length ≤ budget.ticks + 1 ∧
        ∀ fuel, budget.ticks + 1 ≤ fuel → s.run? fuel = some run := by
  have hbound (k : Nat) (hreach : s.Reaches k) : k < budget.ticks + 1 :=
    Nat.lt_succ_of_le
      (hreach.grantsBefore.le_ticks hvalid hsteady hbudget hbelow htick)
  obtain ⟨k, c, hreach, hexit, hruns⟩ := ends_of_bounded hbound
  refine ⟨length_beginnings_after_le hbound, s.conclude c, ?_, hruns⟩
  rw [hexit.length_beginnings hreach]
  exact hexit.made_le (hbound k hreach)

/-- Attempts that fail at once and for ever, with a nanosecond between them and
two milliseconds and a half in all. -/
def nanosecondsApart : Series Exponential Nat :=
  playing
    (.start
      { initial := .clamp 1, ceiling := .clamp 1, budget := some (.clamp 2500000)
        multiplier := .ofNat 1, jitter := .ofNat 0 }
      .start)
    .idle ⟨.lost, []⟩

/-- All of the four attempts are made. -/
theorem nanosecondsApart_ends :
    ∃ run, (∀ fuel, 4 ≤ fuel → nanosecondsApart.run? fuel = some run) ∧
      run.trace.beginnings.length = 4 := by
  obtain ⟨_, run, hatMost, hruns⟩ := ends_within_budget nanosecondsApart (.clamp 2500000)
    (by decide +kernel) (by decide +kernel) rfl (by decide) (by decide)
  have hlength : (nanosecondsApart.run? 4).map (·.trace.beginnings.length) = some 4 := by
    decide +kernel
  rw [hruns 4 (by decide)] at hlength
  exact ⟨run, hruns, Option.some.inj hlength⟩

end Series

end Recourse
