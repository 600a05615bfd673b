import Recourse.Proofs.Exponential
import Recourse.Proofs.Observation

/-!
# The time budget

A series with a budget never waits for a time that the budget does not cover.

* `grant_iff` is the test of the budget, without the sums that are held within
  a span.
* `begins_le_deadline` carries it along the rounds.  The timer ends a wait on a
  whole millisecond, so an attempt may begin later than the budget says, but
  not later than the budget rounded up.
* `Exit.clock_le` adds what an attempt that is under way by then may take.

Nothing is asked of the policy but its budget: the intervals may be anything,
and so may the draws.
-/

namespace Recourse

/-- The nanoseconds of a span, rounded up to whole milliseconds. -/
def Span.wholeMillis (s : Span) : Nat :=
  (s.nanos + (milliNanos - 1)) / milliNanos * milliNanos

namespace Series

/-! ## The clock of a series -/

section Clock

variable {β σ : Type} [Backoff β]

/-- How long the last of the first `n` attempts takes; no time if there is
none. -/
def lastDuration (s : Series β σ) : Nat → Nat
  | 0 => 0
  | k + 1 => (s.returns k).nanos - (s.begins k).nanos

theorem clock_le_begins (s : Series β σ) (k : Nat) : s.scene.clock ≤ s.begins k := by
  induction k with
  | zero => exact Nat.le_refl _
  | succ k ih => exact Nat.le_trans ih (s.begins_le_begins_succ k)

theorem clock_le_returns (s : Series β σ) (k : Nat) : s.scene.clock ≤ s.returns k :=
  Nat.le_trans (s.clock_le_begins k) (s.begins_le_returns k)

theorem FiresInWait.le_begins_succ {s : Series β σ} {k : Nat} {c : Instant}
    (hfires : s.FiresInWait k c) : c ≤ s.begins (k + 1) := by
  cases hfires with
  | byObserver _ => exact s.returns_le_begins_succ k
  | byTimer _ _ _ _ hto => exact hto

theorem returns_eq (s : Series β σ) (k : Nat) :
    (s.returns k).nanos = (s.begins k).nanos + s.lastDuration (k + 1) := by
  have hle := s.begins_le_returns k
  rw [Instant.le_iff] at hle
  rw [lastDuration]
  omega

/-- If no round up to the next one begins after the deadline, the series ends no
later than its last attempt takes beyond it. -/
theorem Exit.clock_le {s : Series β σ} {k : Nat} {c : Conclusion} (hexit : s.Exit k c)
    {deadline : Nat} (hbegins : (s.begins k).nanos ≤ deadline)
    (hnext : ∀ delay, s.grant k = some delay → (s.begins (k + 1)).nanos ≤ deadline) :
    c.clock.nanos ≤ deadline + s.lastDuration c.made := by
  have hreturns := s.returns_eq k
  cases hexit with
  | before hfired => exact Nat.le_trans hbegins (Nat.le_add_right _ _)
  | cut _ _ _ _ delay hgrant c hfires _ =>
    have hcut := hfires.le_begins_succ
    rw [Instant.le_iff] at hcut
    have hover := hnext delay hgrant
    show c.nanos ≤ deadline + s.lastDuration (k + 1)
    omega
  | _ =>
    show (s.returns k).nanos ≤ deadline + s.lastDuration (k + 1)
    omega

end Clock

/-! ## The test of the budget -/

variable {σ : Type} {s : Series Exponential σ} {budget : Span}

/-- A wait is granted if and only if the time since the series began, with the
wait added, stays within the budget. -/
theorem grant_iff (hbudget : s.runner.backoff.policy.budget = some budget)
    (hbelow : budget < .longest) (k : Nat) (delay : Span) :
    s.grant k = some delay ↔
      delay = s.delayAt k ∧
        (s.returns k).nanos - s.scene.clock.nanos + delay.nanos ≤ budget.nanos := by
  have hmost := budget.lt_most hbelow
  have hsince : ((s.returns k).since s.scene.clock).nanos =
      min ((s.returns k).nanos - s.scene.clock.nanos) Span.most := rfl
  rw [grant_eq]
  by_cases hfits :
      s.runner.backoff.policy.affords ((s.returns k).since s.scene.clock) (s.delayAt k) = true
  · rw [if_pos hfits, Option.some.injEq]
    rw [Policy.affords_iff hbudget hbelow, hsince] at hfits
    constructor
    · rintro rfl
      exact ⟨rfl, by omega⟩
    · rintro ⟨rfl, _⟩
      rfl
  · rw [if_neg hfits]
    rw [Policy.affords_iff hbudget hbelow, hsince] at hfits
    constructor
    · intro hnone
      cases hnone
    · rintro ⟨rfl, hle⟩
      omega

/-! ## Rounds within the budget -/

/-- The attempt after a wait that was granted begins within the budget, rounded
up to a whole millisecond. -/
theorem begins_succ_le_deadline (hbudget : s.runner.backoff.policy.budget = some budget)
    (hbelow : budget < .longest) (htick : s.scene.clock.OnTick) {k : Nat} {delay : Span}
    (hgrant : s.grant k = some delay) :
    (s.begins (k + 1)).nanos ≤ s.scene.clock.nanos + budget.wholeMillis := by
  have hfits := ((grant_iff hbudget hbelow k delay).1 hgrant).2
  have hlater : (s.returns k).after delay ≤ s.scene.clock.after budget := by
    have hclock := s.clock_le_returns k
    rw [Instant.le_iff] at hclock ⊢
    simp only [Instant.after]
    omega
  have hwake : s.begins (k + 1) ≤ ((s.returns k).after delay).roundUp := by
    rw [begins_succ hgrant]
    exact s.scene.runtime.wake_le_roundUp _ _
  have hround := Instant.roundUp_mono hlater
  have hdeadline : (s.scene.clock.after budget).roundUp.nanos =
      s.scene.clock.nanos + budget.wholeMillis := Instant.roundUp_add _ htick _
  rw [Instant.le_iff] at hwake hround
  omega

theorem begins_le_deadline (hbudget : s.runner.backoff.policy.budget = some budget)
    (hbelow : budget < .longest) (htick : s.scene.clock.OnTick) {k : Nat}
    (hreach : s.Reaches k) :
    (s.begins k).nanos ≤ s.scene.clock.nanos + budget.wholeMillis := by
  cases k with
  | zero => exact Nat.le_add_right _ _
  | succ k =>
    obtain ⟨delay, hgrant⟩ := (hreach k (Nat.lt_succ_self k)).granted
    exact begins_succ_le_deadline hbudget hbelow htick hgrant

theorem Exit.over_budget (hbudget : s.runner.backoff.policy.budget = some budget)
    (hbelow : budget < .longest) {k : Nat} {c : Conclusion} (hexit : s.Exit k c)
    (hending : c.ending = .exhausted) :
    c.made = k + 1 ∧ c.clock = s.returns k ∧ (∃ fault, s.outcome k = .error (.transient fault)) ∧
      budget.nanos <
        (s.returns k).nanos - s.scene.clock.nanos + (s.delayAt k).nanos := by
  cases hexit with
  | spent hopen fault hfail hquiet hgrant =>
    refine ⟨rfl, rfl, ⟨fault, hfail⟩, Nat.lt_of_not_le ?_⟩
    intro hfits
    have hgranted := (grant_iff hbudget hbelow k (s.delayAt k)).2 ⟨rfl, hfits⟩
    rw [hgrant] at hgranted
    cases hgranted
  | _ => cases hending

/-! ## The budget of a run -/

/-- A series on a whole millisecond with a budget below the longest span: a wait
is granted if and only if it fits into what is left, so no attempt begins after
the budget rounded up to whole milliseconds, the whole series takes no longer
than that and its last attempt, and it gives up only where the next wait does
not fit. -/
theorem stays_within_budget (s : Series Exponential σ) (budget : Span)
    (hbudget : s.runner.backoff.policy.budget = some budget) (hbelow : budget < .longest)
    (htick : s.scene.clock.OnTick) :
    (∀ k delay, s.grant k = some delay ↔
      delay = s.delayAt k ∧
        (s.returns k).nanos - s.scene.clock.nanos + delay.nanos ≤ budget.nanos) ∧
    (∀ k, s.Makes k → (s.begins k).nanos ≤ s.scene.clock.nanos + budget.wholeMillis) ∧
    ∀ fuel run, s.run? fuel = some run →
      run.answer.elapsed.nanos ≤
          budget.wholeMillis + s.lastDuration run.trace.beginnings.length ∧
        (run.answer.ending = .exhausted →
          ∃ k, run.trace.beginnings.length = k + 1 ∧ run.clock = s.returns k ∧
            (∃ fault, s.outcome k = .error (.transient fault)) ∧
            budget.nanos <
              (s.returns k).nanos - s.scene.clock.nanos + (s.delayAt k).nanos) := by
  refine ⟨grant_iff hbudget hbelow, ?_, ?_⟩
  · intro k hmakes
    exact begins_le_deadline hbudget hbelow htick hmakes.reaches
  · intro fuel run hrun
    obtain ⟨k, c, hreach, hexit, rfl⟩ := exit_of_run? hrun
    rw [hexit.length_beginnings hreach]
    constructor
    · have hclock := hexit.clock_le (begins_le_deadline hbudget hbelow htick hreach)
        (fun _ hgrant => begins_succ_le_deadline hbudget hbelow htick hgrant)
      have helapsed : (s.conclude c).answer.elapsed.nanos ≤
          c.clock.nanos - s.scene.clock.nanos := Instant.since_nanos_le _ _
      omega
    · intro hending
      exact ⟨k, hexit.over_budget hbudget hbelow hending⟩

/-- Attempts that fail at once, with half a millisecond between them and two
and a half in all. -/
def halfMillis : Series Exponential Nat :=
  playing
    (.start
      { initial := .clamp 500000, ceiling := .clamp 500000, budget := some (.clamp 2500000)
        multiplier := .ofNat 1, jitter := .ofNat 0 }
      .start)
    .idle ⟨.lost, []⟩

/-- The third wait uses up the budget to the last nanosecond, the attempt after
it begins on the millisecond after, and there the series gives up. -/
theorem halfMillis_stays_within_budget :
    halfMillis.grant 2 = some (.clamp 500000) ∧
      (halfMillis.begins 3).nanos ≤ (Span.clamp 2500000).wholeMillis ∧
      ∃ run, halfMillis.run? 4 = some run ∧ run.trace.beginnings.length = 4 ∧
        run.answer.elapsed.nanos ≤ (Span.clamp 2500000).wholeMillis + halfMillis.lastDuration 4 ∧
        ∃ k, run.trace.beginnings.length = k + 1 ∧
          2500000 < (halfMillis.returns k).nanos - 0 + (halfMillis.delayAt k).nanos := by
  have hwithin := stays_within_budget halfMillis (.clamp 2500000) rfl (by decide) (by decide)
  have hends : (halfMillis.run? 4).map
      (fun run => (run.answer.ending, run.trace.beginnings.length)) = some (.exhausted, 4) := by
    decide +kernel
  obtain ⟨run, hrun, hpair⟩ := Option.map_eq_some_iff.1 hends
  obtain ⟨hending, hlength⟩ := Prod.mk.inj hpair
  obtain ⟨helapsed, hexhausted⟩ := hwithin.2.2 4 run hrun
  obtain ⟨k, hmade, _, _, hover⟩ := hexhausted hending
  refine ⟨?_, ?_, run, hrun, hlength, ?_, k, hmade, hover⟩
  · exact (hwithin.1 2 (.clamp 500000)).2 ⟨by decide +kernel, by decide +kernel⟩
  · have hbegins := hwithin.2.1 3 ⟨4, by decide +kernel⟩
    rwa [show halfMillis.scene.clock.nanos = 0 from rfl, Nat.zero_add] at hbegins
  · rwa [hlength] at helapsed

end Series

end Recourse
