import Recourse.Backoff.Scripted
import Recourse.Proofs.Observation

/-!
# Cancellation

What a series does about its token, for every moment at which the token can be
fired.

The runner looks at the token at the head of a round, after a failed attempt
and in the wait.  Each of the three checks has a lemma here, in the order in
which a series comes to them: `ends_of_firedBefore`, `ends_of_firedDuring` and
`ends_of_firesInWait`.  The last one is in two cases.  A token fired before the
wait is over cuts it short, and one fired on the very tick on which the wait
ends is found at the head of the next round.
-/

namespace Recourse

namespace Series

variable {β σ : Type} [Backoff β]

/-- With enough fuel the series ends with this run. -/
def Ends (s : Series β σ) (run : Run σ (Outcome Unit)) : Prop :=
  ∃ n, ∀ fuel, n ≤ fuel → s.run? fuel = some run

theorem Exit.ends {s : Series β σ} {k : Nat} {c : Conclusion} (hreach : s.Reaches k)
    (hexit : s.Exit k c) : s.Ends (s.conclude c) := by
  refine ⟨k + 1, fun fuel hfuel => ?_⟩
  exact (run?_of_exit hreach hexit fuel).trans (if_pos hfuel)

/-- A token that is found fired at the head of a round ends the series before
the attempt. -/
theorem ends_of_firedBefore {s : Series β σ} {k : Nat} (hreach : s.Reaches k)
    (hfired : s.FiredBefore k) :
    ∃ run, s.Ends run ∧ run.answer.ending = .cancelled ∧ run.clock = s.begins k ∧
      run.answer.elapsed = (s.begins k).since s.scene.clock ∧
      run.answer.attempts = .ofNat k ∧ run.trace.beginnings.length = k := by
  have hexit := Exit.before ((s.firedBefore_iff k).2 hfired)
  exact ⟨_, hexit.ends hreach, rfl, rfl, rfl, rfl, hexit.length_beginnings hreach⟩

/-- The observer is told nothing after the last wait. -/
theorem notifications_during {s : Series β σ} {k : Nat} (hreach : s.Reaches k)
    (began failed : Event) (hbegan : began.notification? = none)
    (hfailed : failed.notification? = none) :
    Trace.notifications (s.events k ++ [began, failed]) = (s.after k).trace.notifications := by
  rw [after_of_reaches hreach, Step.trace, head, List.reverse_reverse,
    Trace.notifications_append]
  simp [Trace.notifications, hbegan, hfailed]

/-- A token that is fired while an attempt runs counts only if the attempt
fails and could be made again. -/
theorem ends_of_firedDuring {s : Series β σ} {k : Nat} (hmakes : s.Makes k)
    (hfired : s.FiredDuring k) :
    ∃ run, s.Ends run ∧ run.clock = s.returns k ∧ run.answer.attempts = .ofNat (k + 1) ∧
      run.trace.beginnings.length = k + 1 ∧
      match s.outcome k with
      | .ok () => run.answer.ending = .succeeded ∧ run.answer.result = .ok ()
      | .error (.permanent fault) =>
        run.answer.ending = .permanentlyFailed ∧ run.answer.result = .error fault.toCoded
      | .error (.transient _) =>
        run.answer.ending = .cancelled ∧ run.asked = k ∧
          run.trace.notifications = (s.after k).trace.notifications := by
  have hreach := hmakes.reaches
  have hopen := hmakes.opened
  cases houtcome : s.outcome k with
  | ok =>
    have hexit := Exit.succeeded hopen houtcome
    exact ⟨_, hexit.ends hreach, rfl, rfl, hexit.length_beginnings hreach, rfl, rfl⟩
  | error failure =>
    cases failure with
    | permanent fault =>
      have hexit := Exit.failed hopen fault houtcome
      exact ⟨_, hexit.ends hreach, rfl, rfl, hexit.length_beginnings hreach, rfl, rfl⟩
    | transient fault =>
      have hexit := Exit.during hopen fault houtcome ((s.firedReturning_iff k).2 (Or.inr hfired))
      exact ⟨_, hexit.ends hreach, rfl, rfl, hexit.length_beginnings hreach, rfl, rfl,
        notifications_during hreach _ _ rfl rfl⟩

/-- A token that is fired in a wait ends the series at that moment. -/
theorem ends_of_firesInWait {s : Series β σ} {k : Nat} {delay : Span} {c : Instant}
    (hwaits : s.Waits k delay) (hfires : s.FiresInWait k c) :
    ∃ run, s.Ends run ∧ run.answer.ending = .cancelled ∧ run.clock = c ∧
      run.answer.elapsed = c.since s.scene.clock ∧
      run.answer.attempts = .ofNat (k + 1) ∧ run.trace.beginnings.length = k + 1 := by
  obtain ⟨hmakes, ⟨fault, hfail⟩, hquiet, hgrant⟩ := (s.waits_iff k delay).1 hwaits
  have hreach := hmakes.reaches
  by_cases hcut : s.observerCancels = true ∨ c < s.begins (k + 1)
  · have hexit := Exit.cut hmakes.opened fault hfail hquiet delay hgrant c hfires hcut
    exact ⟨_, hexit.ends hreach, rfl, rfl, rfl, rfl, hexit.length_beginnings hreach⟩
  · -- The timer is due as the wait ends, so the wait is not cut short and the
    -- next round begins with a token that has been fired.
    cases hfires with
    | byObserver hcancels => exact absurd (Or.inl hcancels) hcut
    | byTimer due hdue hobserver hfrom hto =>
      have hlate : ¬c < s.begins (k + 1) := fun hlt => hcut (Or.inr hlt)
      have hc : c = s.begins (k + 1) := by
        rw [Instant.le_iff] at hto
        rw [Instant.lt_iff] at hlate
        exact Instant.ext_nanos (by omega)
      have hretried : s.Retried k := by
        refine ⟨hmakes.opened, ⟨fault, hfail⟩, hquiet, ⟨delay, hgrant⟩, hobserver, ?_⟩
        intro due hsome
        rw [← Option.some.inj (hdue.symm.trans hsome)]
        exact hlate
      rw [hc] at hdue ⊢
      exact ends_of_firedBefore (hreach.succ hretried) (.onTick hdue (Nat.succ_pos k))

/-! ## Every moment -/

/-- The token can be fired at any moment.  Once it has been, no attempt begins.
If it is fired in a wait, the tick on which the wait ends included, the series
is cancelled at that moment.  If it is fired while an attempt runs, a success
or a permanent failure stands, and after a transient failure the series is
cancelled: the observer is not told of the failure, and the backoff is not
asked, whatever it would have answered. -/
theorem cancelled_at_every_moment (s : Series β σ) :
    (s.FiredBefore 0 → ∃ run, s.Ends run ∧ run.answer.ending = .cancelled ∧
      run.clock = s.scene.clock ∧ run.answer.attempts = 0) ∧
    (∀ k, s.Makes k → ¬s.FiredBefore k) ∧
    (∀ k delay c, s.Waits k delay → s.FiresInWait k c →
      ∃ run, s.Ends run ∧ run.answer.ending = .cancelled ∧ run.clock = c ∧
        run.answer.elapsed = c.since s.scene.clock ∧
        run.answer.attempts = .ofNat (k + 1) ∧ run.trace.beginnings.length = k + 1) ∧
    ∀ k, s.Makes k → s.FiredDuring k →
      ∃ run, s.Ends run ∧ run.clock = s.returns k ∧ run.answer.attempts = .ofNat (k + 1) ∧
        run.trace.beginnings.length = k + 1 ∧
        match s.outcome k with
        | .ok () => run.answer.ending = .succeeded ∧ run.answer.result = .ok ()
        | .error (.permanent fault) =>
          run.answer.ending = .permanentlyFailed ∧ run.answer.result = .error fault.toCoded
        | .error (.transient _) =>
          run.answer.ending = .cancelled ∧ run.asked = k ∧
            run.trace.notifications = (s.after k).trace.notifications := by
  refine ⟨?_, ?_, ?_, ?_⟩
  · intro hfired
    obtain ⟨run, hends, hending, hclock, _, hattempts, _⟩ :=
      ends_of_firedBefore (.zero s) hfired
    exact ⟨run, hends, hending, hclock, hattempts⟩
  · intro k hmakes
    exact hmakes.not_firedBefore
  · intro k delay c hwaits hfires
    exact ends_of_firesInWait hwaits hfires
  · intro k hmakes hfired
    exact ends_of_firedDuring hmakes hfired

/-- One attempt that fails at once, a wait of eight milliseconds if `waits`
allows it, and a token. -/
def failingOnce (waits : List Span) (token : Token) (cancels : Bool) : Series Scripted Nat :=
  playing (.start waits) token ⟨{ Attempt.lost with cancels }, []⟩

/-- A token fired before the series, one whose timer is due on the tick on
which the only wait ends, and one that the attempt fires where the backoff has
no wait to grant. -/
theorem cancelled_in_three_moments :
    (∃ run, (failingOnce [] ⟨true, none⟩ false).Ends run ∧ run.answer.ending = .cancelled ∧
      run.clock = .start ∧ run.answer.attempts = 0) ∧
    (∃ run, (failingOnce [.ofMillis 8] ⟨false, some ⟨8000000⟩⟩ false).Ends run ∧
      run.answer.ending = .cancelled ∧ run.clock = ⟨8000000⟩ ∧
      run.answer.elapsed = .ofMillis 8 ∧ run.answer.attempts = 1 ∧
      run.trace.beginnings.length = 1) ∧
    ¬(failingOnce [.ofMillis 8] ⟨false, some ⟨8000000⟩⟩ false).FiredBefore 0 ∧
    ∃ run, (failingOnce [] .idle true).Ends run ∧ run.clock = .start ∧
      run.answer.attempts = 1 ∧ run.trace.beginnings.length = 1 ∧
      run.answer.ending = .cancelled ∧ run.asked = 0 ∧ run.trace.notifications = [] := by
  have htie := cancelled_at_every_moment
    (failingOnce [.ofMillis 8] ⟨false, some ⟨8000000⟩⟩ false)
  refine ⟨?_, ?_, ?_, ?_⟩
  · exact (cancelled_at_every_moment (failingOnce [] ⟨true, none⟩ false)).1 (.atStart rfl)
  · exact htie.2.2.1 0 (.ofMillis 8) ⟨8000000⟩ ⟨1, by decide⟩
      (.byTimer _ rfl rfl (by decide) (by decide))
  · exact htie.2.1 0 ⟨1, by decide⟩
  · exact (cancelled_at_every_moment (failingOnce [] .idle true)).2.2.2 0 ⟨1, by decide⟩
      (.byAttempt rfl)

end Series

end Recourse
