import Recourse.Proofs.Budget
import Recourse.Proofs.Provenance
import Recourse.Proofs.Stopping
import Recourse.Retry.Build

/-!
# Capped series

The runner counts the attempts that it begins, and a cap counts the failures
that it is asked about.  Both counts are held in 32 bits, and neither looks at
the other.

* `failures_backoffAt` and `isSpent_backoffAt` say that the cap has counted the
  rounds that were gone through, so that it is spent in the round of the last
  attempt it allows.
* `follows_uncapped` and `grant_capped` compare a capped series with the same
  series without its cap: they go together up to that round.
* `GrantsBefore.lt_cap` is what the other bounds come from: no wait leads to an
  attempt that the cap does not allow.

The last part is about runners with an exponential backoff, where the cap is
one of two limits that a series can run into, and `HeldTo` says which of them
is blamed.
-/

namespace Recourse

/-! ## One question -/

namespace Capped

variable {β : Type}

theorem isSpent_iff (b : Capped β) : b.isSpent = true ↔ b.cap.toNat ≤ b.failures.toNat := by
  rw [isSpent, decide_eq_true_eq, UInt32.le_iff_toNat_le]

variable [Backoff β]

/-- All that a question does.  The failure is counted first, and it is put to
the inner backoff unless it uses up the attempts. -/
theorem next_eq (b : Capped β) (now : Instant) (draw : Draw) :
    Backoff.next b now draw =
      if b.cap.toNat ≤ (count b.failures).toNat then
        (none, { b with failures := count b.failures })
      else
        ((Backoff.next b.inner now draw).1,
          { b with
            failures := count b.failures, inner := (Backoff.next b.inner now draw).2 }) := by
  have hspent : ({ b with failures := count b.failures } : Capped β).isSpent = true ↔
      b.cap.toNat ≤ (count b.failures).toNat := isSpent_iff _
  show next b now draw = _
  simp only [next, hspent]

theorem next_snd_cap (b : Capped β) (now : Instant) (draw : Draw) :
    (Backoff.next b now draw).2.cap = b.cap := by
  rw [next_eq]
  split <;> rfl

theorem next_snd_blame (b : Capped β) (now : Instant) (draw : Draw) :
    (Backoff.next b now draw).2.blame = b.blame := by
  rw [next_eq]
  split <;> rfl

theorem next_snd_failures (b : Capped β) (now : Instant) (draw : Draw) :
    (Backoff.next b now draw).2.failures = count b.failures := by
  rw [next_eq]
  split <;> rfl

end Capped

namespace Series

variable {β σ : Type}

/-! ## The two counts -/

/-- How many attempts the cap of a series allows. -/
def cap (s : Series (Capped β) σ) : Nat := s.runner.backoff.cap.toNat

theorem cap_pos (s : Series (Capped β) σ) : 0 < s.cap :=
  UInt32.lt_iff_toNat_lt.1 s.runner.backoff.cap_pos

theorem cap_lt_size (s : Series (Capped β) σ) : s.cap < UInt32.size :=
  s.runner.backoff.cap.toNat_lt_size

variable [Backoff β]

theorem cap_backoffAt (s : Series (Capped β) σ) (k : Nat) :
    (s.backoffAt k).cap = s.runner.backoff.cap := by
  induction k with
  | zero => rfl
  | succ k ih => rw [backoffAt_succ, answer, Capped.next_snd_cap, ih]

theorem blame_backoffAt (s : Series (Capped β) σ) (k : Nat) :
    (s.backoffAt k).blame = s.runner.backoff.blame := by
  induction k with
  | zero => rfl
  | succ k ih => rw [backoffAt_succ, answer, Capped.next_snd_blame, ih]

/-- The cap has counted one failure for each round that was gone through. -/
theorem failures_backoffAt (s : Series (Capped β) σ) (k : Nat) :
    (s.backoffAt k).failures.toNat = min k (UInt32.size - 1) := by
  induction k with
  | zero => rfl
  | succ k ih =>
    rw [backoffAt_succ, answer, Capped.next_snd_failures, Capped.count_toNat, ih]
    omega

theorem isSpent_backoffAt (s : Series (Capped β) σ) (k : Nat) :
    (s.backoffAt k).isSpent = true ↔ s.cap ≤ k := by
  have hsize := s.cap_lt_size
  rw [Capped.isSpent_iff, cap_backoffAt, failures_backoffAt]
  show s.cap ≤ min k (UInt32.size - 1) ↔ s.cap ≤ k
  omega

/-- The failure of a round uses up the attempts if the cap allows no attempt
after it. -/
theorem spent_returning (s : Series (Capped β) σ) (k : Nat) :
    (s.backoffAt k).cap.toNat ≤ (Capped.count (s.backoffAt k).failures).toNat ↔
      s.cap ≤ k + 1 := by
  have hsize := s.cap_lt_size
  rw [cap_backoffAt, Capped.count_toNat, failures_backoffAt]
  show s.cap ≤ min (min k (UInt32.size - 1) + 1) (UInt32.size - 1) ↔ s.cap ≤ k + 1
  omega

/-! ## With the cap and without it -/

/-- The same series without its cap. -/
def uncapped (s : Series (Capped β) σ) : Series β σ :=
  s.withRunner ⟨s.runner.backoff.inner, s.runner.observer⟩

omit [Backoff β] in
theorem uncapped_withRunner {s : Series β σ} {cap : UInt32} {capped : Runner (Capped β)}
    (hcapped : s.runner.capped cap = .ok capped) : (s.withRunner capped).uncapped = s := by
  rw [Runner.capped] at hcapped
  split at hcapped
  · cases hcapped
    rfl
  · cases hcapped

/-- A failure before the last attempt that the cap allows is put to the inner
backoff. -/
theorem asked_inner {s : Series (Capped β) σ} {k : Nat} (hk : k + 1 < s.cap) :
    s.grant k = (Backoff.next (s.backoffAt k).inner (s.returns k) (s.scene.draws k)).1 ∧
      (s.answer k).2.inner =
        (Backoff.next (s.backoffAt k).inner (s.returns k) (s.scene.draws k)).2 := by
  have hopen := mt (s.spent_returning k).1 (Nat.not_le_of_lt hk)
  rw [grant, answer, Capped.next_eq, if_neg hopen]
  exact ⟨rfl, rfl⟩

/-- As long as the cap allows the attempt of a round, the round begins when it
would begin without the cap, and the inner backoff has been asked the same
questions. -/
theorem follows_uncapped {s : Series (Capped β) σ} {k : Nat} (hk : k < s.cap) :
    s.begins k = s.uncapped.begins k ∧ (s.backoffAt k).inner = s.uncapped.backoffAt k := by
  induction k with
  | zero => exact ⟨rfl, rfl⟩
  | succ k ih =>
    obtain ⟨hbegins, hinner⟩ := ih (by omega)
    have hreturns : s.returns k = s.uncapped.returns k :=
      congrArg ((s.made k).ends s.scene.runtime) hbegins
    obtain ⟨hgrant, hnext⟩ := asked_inner hk
    rw [hinner, hreturns] at hgrant hnext
    constructor
    · show s.scene.runtime.wake (s.returns k) ((s.grant k).getD .zero) = _
      rw [hreturns, hgrant]
      rfl
    · rw [backoffAt_succ, hnext]
      rfl

/-- The waits are those of the series without the cap, and there is none after
the last attempt that the cap allows. -/
theorem grant_capped (s : Series (Capped β) σ) (k : Nat) :
    s.grant k = if k + 1 < s.cap then s.uncapped.grant k else none := by
  by_cases hlt : k + 1 < s.cap
  · obtain ⟨hbegins, hinner⟩ := follows_uncapped (Nat.lt_of_succ_lt hlt)
    have hreturns : s.returns k = s.uncapped.returns k := congrArg ((s.made k).ends s.scene.runtime) hbegins
    rw [if_pos hlt, (asked_inner hlt).1, hinner, hreturns]
    rfl
  · have hspent := (s.spent_returning k).2 (Nat.le_of_not_lt hlt)
    rw [if_neg hlt, grant, answer, Capped.next_eq, if_pos hspent]

theorem grant_eq_none_of_cap_le {s : Series (Capped β) σ} {k : Nat} (hk : s.cap ≤ k + 1) :
    s.grant k = none := by
  rw [grant_capped, if_neg (Nat.not_lt_of_le hk)]

/-! ## Rounds under the cap -/

/-- The backoff grants a wait in every round before round `k`. -/
def GrantsBefore (s : Series β σ) (k : Nat) : Prop := ∀ i < k, s.grant i ≠ none

theorem Reaches.grantsBefore {s : Series β σ} {k : Nat} (hreach : s.Reaches k) :
    s.GrantsBefore k := by
  intro i hi
  obtain ⟨delay, hgrant⟩ := (hreach i hi).granted
  rw [hgrant]
  exact Option.some_ne_none delay

theorem Exit.grantsBefore {s : Series β σ} {k : Nat} {c : Conclusion} (hreach : s.Reaches k)
    (hexit : s.Exit k c) : s.GrantsBefore c.rounds := by
  cases hexit with
  | cut _ _ _ _ delay hgrant _ _ _ =>
    intro i hi
    rcases Nat.lt_succ_iff_lt_or_eq.1 hi with hlt | rfl
    · exact hreach.grantsBefore i hlt
    · rw [hgrant]
      exact Option.some_ne_none delay
  | _ => exact hreach.grantsBefore

/-- No wait leads to a round whose attempt the cap does not allow. -/
theorem GrantsBefore.lt_cap {s : Series (Capped β) σ} {k : Nat} (hgrants : s.GrantsBefore k) :
    k < s.cap := by
  cases k with
  | zero => exact s.cap_pos
  | succ k =>
    refine Nat.lt_of_not_le fun hle => ?_
    exact hgrants k (Nat.lt_succ_self k) (grant_eq_none_of_cap_le hle)

theorem Reaches.lt_cap {s : Series (Capped β) σ} {k : Nat} (hreach : s.Reaches k) :
    k < s.cap := hreach.grantsBefore.lt_cap

theorem Exit.made_le_cap {s : Series (Capped β) σ} {k : Nat} {c : Conclusion}
    (hreach : s.Reaches k) (hexit : s.Exit k c) : c.made ≤ s.cap := hexit.made_le hreach.lt_cap

theorem Exit.rounds_lt_cap {s : Series (Capped β) σ} {k : Nat} {c : Conclusion}
    (hreach : s.Reaches k) (hexit : s.Exit k c) : c.rounds < s.cap :=
  (hexit.grantsBefore hreach).lt_cap

/-- After any number of steps the trace shows no more attempts than the cap
allows and fewer notifications, and the runner has counted the attempts. -/
theorem after_within_cap (s : Series (Capped β) σ) (m : Nat) :
    (s.after m).trace.beginnings.length ≤ s.cap ∧
      (s.after m).trace.notifications.length < s.cap ∧
      (s.after m).attempts.toNat = (s.after m).trace.beginnings.length := by
  have hsize := s.cap_lt_size
  rcases s.after_cases m with ⟨hreach, hafter⟩ | ⟨k, c, _, hreach, hexit, hafter⟩
  · have hlt := hreach.lt_cap
    have htold : (Step.goOn (s.head m)).trace.notifications.length ≤ m := by
      rw [Step.trace, head, List.reverse_reverse, notifications_events]
      exact s.length_flatMap_told_le m
    rw [hafter, length_beginnings_head hreach]
    refine ⟨Nat.le_of_lt hlt, by omega, ?_⟩
    show (UInt32.ofNat m).toNat = m
    exact UInt32.toNat_ofNat_of_lt' (by omega)
  · have hmade := hexit.made_le_cap hreach
    have hrounds := hexit.rounds_lt_cap hreach
    have htold : (s.conclude c).trace.notifications.length ≤ c.rounds := by
      rw [hexit.notifications]
      exact s.length_flatMap_told_le c.rounds
    rw [hafter, Step.trace, hexit.length_beginnings hreach]
    refine ⟨hmade, by omega, ?_⟩
    show (UInt32.ofNat c.made).toNat = c.made
    exact UInt32.toNat_ofNat_of_lt' (by omega)

/-- A capped series ends within as many steps as the cap allows attempts. -/
theorem ends_within_cap (s : Series (Capped β) σ) :
    ∃ k c, s.Reaches k ∧ s.Exit k c ∧ ∀ fuel, s.cap ≤ fuel → s.run? fuel = some (s.conclude c) :=
  ends_of_bounded fun _ hreach => hreach.lt_cap

/-! ## Which limit is blamed -/

theorem exhausted_backoffAt (s : Series (Capped β) σ) (k : Nat) :
    Backoff.exhausted (s.backoffAt k) =
      if s.cap ≤ k then s.runner.backoff.blame else Backoff.exhausted (s.backoffAt k).inner := by
  show (if (s.backoffAt k).isSpent = true then (s.backoffAt k).blame else _) = _
  by_cases hspent : s.cap ≤ k
  · rw [if_pos ((s.isSpent_backoffAt k).2 hspent), if_pos hspent, blame_backoffAt]
  · rw [if_neg (mt (s.isSpent_backoffAt k).1 hspent), if_neg hspent]

/-! ## Two limits -/

section Exponential

variable {s : Series (Capped Exponential) σ}

/-- What a runner promises that may make `cap` attempts. -/
structure HeldTo (s : Series (Capped Exponential) σ) (cap : UInt32) : Prop where
  attempts : ∀ m, (s.after m).trace.beginnings.length ≤ cap.toNat
  notifications : ∀ m, (s.after m).trace.notifications.length ≤ cap.toNat - 1
  /-- The runner's own count never wraps around. -/
  counted : ∀ m, (s.after m).attempts.toNat = (s.after m).trace.beginnings.length
  ends : ∃ run, ∀ fuel, cap.toNat ≤ fuel → s.run? fuel = some run
  /-- The cap is blamed exactly if all attempts have been made, whatever is left
  of the time budget then. -/
  blamed : ∀ fuel run, s.run? fuel = some run → run.answer.ending = .exhausted →
    ∃ e, run.answer.result = .error e ∧
      (e.code = Builtin.retryAttemptsSpent.code ↔ run.answer.attempts = cap) ∧
      (e.code = Builtin.retryTimeSpent.code ↔ run.answer.attempts < cap)
  /-- Nothing but the cap stops a series that always fails. -/
  used : (∀ k < cap.toNat, s.failsTransiently k = true) → s.Uncancelled →
    s.runner.backoff.inner.policy.budget = none →
    ∃ run, s.StopsIn (cap.toNat - 1) .exhausted run ∧ run.answer.attempts = cap

theorem reason_eq (hblame : s.runner.backoff.blame = Builtin.retryAttemptsSpent) (n : Nat) :
    Backoff.exhausted (s.backoffAt n) =
      if s.cap ≤ n then Builtin.retryAttemptsSpent else Builtin.retryTimeSpent := by
  rw [exhausted_backoffAt, hblame]
  rfl

theorem blamed_of_exit (hblame : s.runner.backoff.blame = Builtin.retryAttemptsSpent) {k : Nat}
    {c : Conclusion} (hreach : s.Reaches k) (hexit : s.Exit k c)
    (hending : c.ending = .exhausted) :
    ∃ e, c.result = .error e ∧
      (e.code = Builtin.retryAttemptsSpent.code ↔ c.made = s.cap) ∧
      (e.code = Builtin.retryTimeSpent.code ↔ c.made < s.cap) := by
  have hmade := hexit.made_le_cap hreach
  have hverdict := hexit.verdict
  rw [hending] at hverdict
  obtain ⟨last, _, hresult⟩ := hverdict.exhausted_result
  have hcode : ((Backoff.exhausted (s.backoffAt c.made)).wrap last.toFault).code =
      if s.cap ≤ c.made then Builtin.retryAttemptsSpent.code else Builtin.retryTimeSpent.code := by
    show (Backoff.exhausted (s.backoffAt c.made)).code = _
    rw [reason_eq hblame, apply_ite CodedError.code]
  have hdiffer : Builtin.retryAttemptsSpent.code ≠ Builtin.retryTimeSpent.code := by decide
  refine ⟨_, hresult, ?_⟩
  rw [hcode]
  by_cases hall : s.cap ≤ c.made
  · rw [if_pos hall]
    exact ⟨⟨fun _ => by omega, fun _ => rfl⟩, ⟨fun h => absurd h hdiffer, fun h => by omega⟩⟩
  · rw [if_neg hall]
    exact ⟨⟨fun h => absurd h.symm hdiffer, fun h => by omega⟩,
      ⟨fun _ => by omega, fun _ => rfl⟩⟩

/-- Without a budget a series that always fails goes on to its last attempt. -/
theorem endsFirst_of_unlimited (hbudget : s.runner.backoff.inner.policy.budget = none)
    (hfails : ∀ k < s.cap, s.failsTransiently k = true) :
    s.EndsFirst (s.cap - 1) .exhausted := by
  have hpos := s.cap_pos
  constructor
  · obtain ⟨fault, hfail⟩ := failsTransiently_iff.1 (hfails (s.cap - 1) (by omega))
    rw [ending?, hfail, grant_eq_none_of_cap_le (by omega)]
  · intro i hi
    have hgrant : s.grant i = some (s.uncapped.delayAt i) := by
      rw [grant_capped, if_pos (by omega), grant_of_unlimited hbudget]
    exact ending?_eq_none.2 ⟨failsTransiently_iff.1 (hfails i (by omega)), _, hgrant⟩

theorem heldTo_of_blame (hblame : s.runner.backoff.blame = Builtin.retryAttemptsSpent) :
    s.HeldTo s.runner.backoff.cap := by
  have hpos := s.cap_pos
  have hsize := s.cap_lt_size
  constructor
  case attempts =>
    intro m
    exact (s.after_within_cap m).1
  case notifications =>
    intro m
    exact Nat.le_sub_one_of_lt (s.after_within_cap m).2.1
  case counted =>
    intro m
    exact (s.after_within_cap m).2.2
  case ends =>
    obtain ⟨k, c, _, _, hruns⟩ := s.ends_within_cap
    exact ⟨_, hruns⟩
  case blamed =>
    intro fuel run hrun hending
    obtain ⟨k, c, hreach, hexit, rfl⟩ := exit_of_run? hrun
    obtain ⟨e, hresult, hcap, htime⟩ := blamed_of_exit hblame hreach hexit hending
    have hmade : (s.conclude c).answer.attempts.toNat = c.made :=
      UInt32.toNat_ofNat_of_lt' (Nat.lt_of_le_of_lt (hexit.made_le_cap hreach) hsize)
    refine ⟨e, hresult, ?_, ?_⟩
    · rw [hcap, ← UInt32.toNat_inj, hmade]
      rfl
    · rw [htime, UInt32.lt_iff_toNat_lt, hmade]
      rfl
  case used =>
    intro hfails hcalm hbudget
    obtain ⟨run, hstops⟩ := (endsFirst_of_unlimited hbudget hfails).stopsIn
      (hcalm.quietThrough _) (by omega)
    refine ⟨run, hstops, UInt32.toNat_inj.1 ?_⟩
    have hattempts := hstops.attempts
    show run.answer.attempts.toNat = s.cap
    omega

/-- The blame in a run that is known to give up after `n` attempts. -/
theorem HeldTo.blamed_after {cap n : UInt32} (hheld : s.HeldTo cap) {fuel : Nat}
    (hends : (s.run? fuel).map (fun run => (run.answer.ending, run.answer.attempts)) =
      some (.exhausted, n)) :
    ∃ run e, s.run? fuel = some run ∧ run.answer.result = .error e ∧
      (e.code = Builtin.retryAttemptsSpent.code ↔ n = cap) ∧
      (e.code = Builtin.retryTimeSpent.code ↔ n < cap) := by
  obtain ⟨run, hrun, hpair⟩ := Option.map_eq_some_iff.1 hends
  obtain ⟨hending, rfl⟩ := Prod.mk.inj hpair
  obtain ⟨e, hresult, hcap, htime⟩ := hheld.blamed fuel run hrun hending
  exact ⟨run, e, hrun, hresult, hcap, htime⟩

end Exponential

/-- A runner that may make `cap` attempts makes no more, whatever its backoff,
its operation and its token.  If it gives up, it blames the cap exactly if it
has made all of them, and the time budget if it has not. -/
theorem capped_heldTo (s : Series Exponential σ) (cap : UInt32) (hpos : 0 < cap) :
    ∃ capped, s.runner.capped cap = .ok capped ∧ (s.withRunner capped).HeldTo cap := by
  refine ⟨_, dif_pos hpos, ?_⟩
  exact heldTo_of_blame (s := s.withRunner ⟨.start s.runner.backoff cap hpos, s.runner.observer⟩) rfl

/-- With four attempts both limits are reached at the same failure and the cap
is blamed, and with five the budget comes first.  A series without a budget
makes all of its attempts. -/
theorem halfMillis_heldTo :
    (∃ capped run e, halfMillis.runner.capped 4 = .ok capped ∧
      (halfMillis.withRunner capped).run? 4 = some run ∧ run.answer.result = .error e ∧
      e.code = Builtin.retryAttemptsSpent.code) ∧
    (∃ capped run e, halfMillis.runner.capped 5 = .ok capped ∧
      (halfMillis.withRunner capped).run? 5 = some run ∧ run.answer.result = .error e ∧
      e.code = Builtin.retryTimeSpent.code) ∧
    ∃ capped run, retryingForever.runner.capped 3 = .ok capped ∧
      (retryingForever.withRunner capped).StopsIn 2 .exhausted run := by
  refine ⟨?_, ?_, ?_⟩
  · obtain ⟨capped, hcapped, hheld⟩ := capped_heldTo halfMillis 4 (by decide)
    have hends : ((halfMillis.withRunner capped).run? 4).map
        (fun run => (run.answer.ending, run.answer.attempts)) = some (.exhausted, 4) := by
      cases hcapped
      decide +kernel
    obtain ⟨run, e, hrun, hresult, hcap, _⟩ := hheld.blamed_after hends
    exact ⟨capped, run, e, hcapped, hrun, hresult, hcap.2 rfl⟩
  · obtain ⟨capped, hcapped, hheld⟩ := capped_heldTo halfMillis 5 (by decide)
    have hends : ((halfMillis.withRunner capped).run? 5).map
        (fun run => (run.answer.ending, run.answer.attempts)) = some (.exhausted, 4) := by
      cases hcapped
      decide +kernel
    obtain ⟨run, e, hrun, hresult, _, htime⟩ := hheld.blamed_after hends
    exact ⟨capped, run, e, hcapped, hrun, hresult, htime.2 (by decide)⟩
  · obtain ⟨capped, hcapped, hheld⟩ := capped_heldTo retryingForever 3 (by decide)
    have hfails : ∀ k, retryingForever.failsTransiently k = true := by
      intro k
      rw [failsTransiently_iff, outcome, retryingForever, made_playing]
      cases k <;> exact ⟨_, rfl⟩
    have hcalm : retryingForever.Uncancelled := uncancelled_playing _ (by decide)
    cases hcapped
    obtain ⟨run, hstops, _⟩ := hheld.used (fun k _ => hfails k)
      ⟨hcalm.idle, hcalm.attempts, hcalm.observer⟩ rfl
    exact ⟨_, run, rfl, hstops⟩

end Series

end Recourse
