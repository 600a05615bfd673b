import Recourse.Backoff.Scripted
import Recourse.Proofs.Chain
import Recourse.Proofs.Observation

/-!
# Where the error of a series comes from

The result of a series, its ending and its last error tell one story.
`Series.Accounted` lists what a reader of an outcome may rely on, and
`accounted_of_run?` says that every run can be relied on.

The last error is the latest failed attempt as it is reported.  An error that
ends a series wraps it, or is the last error itself, so nothing that an attempt
has failed with is lost (`chain_suffix_cancellation`, `isPermanent_cancellation`
and the lemmas on wrapped chains).
-/

namespace Recourse

namespace Series

variable {β σ : Type}

/-! ## The latest failure -/

theorem lastFailure?_eq_none {s : Series β σ} {n : Nat} :
    s.lastFailure? n = none ↔ ∀ i < n, s.outcome i = .ok () := by
  induction n with
  | zero => exact ⟨fun _ i hi => absurd hi (Nat.not_lt_zero i), fun _ => rfl⟩
  | succ n ih =>
    rw [lastFailure?]
    cases houtcome : s.outcome n with
    | error failure =>
      refine ⟨fun h => (by cases h), fun h => ?_⟩
      cases houtcome.symm.trans (h n (Nat.lt_succ_self n))
    | ok =>
      simp only [ih]
      constructor
      · intro h i hi
        rcases Nat.lt_succ_iff_lt_or_eq.1 hi with hlt | rfl
        · exact h i hlt
        · exact houtcome
      · intro h i hi
        exact h i (Nat.lt_succ_of_lt hi)

/-- The latest failure is one after which all attempts succeed. -/
theorem lastFailure?_eq_some {s : Series β σ} {n i : Nat} {failure : Failure} (hi : i < n)
    (hfail : s.outcome i = .error failure) (hlater : ∀ j < n, i < j → s.outcome j = .ok ()) :
    s.lastFailure? n = some failure := by
  induction n with
  | zero => exact absurd hi (Nat.not_lt_zero i)
  | succ n ih =>
    rw [lastFailure?]
    rcases Nat.lt_succ_iff_lt_or_eq.1 hi with hlt | rfl
    · rw [hlater n (Nat.lt_succ_self n) hlt]
      exact ih hlt fun j hj => hlater j (Nat.lt_succ_of_lt hj)
    · rw [hfail]

theorem lastError?_eq_some {s : Series β σ} {n i : Nat} {failure : Failure} (hi : i < n)
    (hfail : s.outcome i = .error failure) (hlater : ∀ j < n, i < j → s.outcome j = .ok ()) :
    s.lastError? n = some failure.report := by
  rw [lastError?, lastFailure?_eq_some hi hfail hlater, Option.map_some]

/-! ## Cancellations -/

theorem chain_suffix_cancellation {lastError : Option CodedError} {last : CodedError}
    (h : lastError = some last) : last.chain <:+ (cancellation lastError).chain := by
  rw [h]
  exact CodedError.chain_suffix_wrap _ _

theorem isPermanent_cancellation (lastError : Option CodedError) :
    (cancellation lastError).isPermanent = true := by
  cases lastError with
  | none => decide
  | some last =>
    rw [cancellation, CodedError.isPermanent_wrap]
    decide

variable [Backoff β]

/-! ## The verdict of an exit -/

/-- How the ending, the result and the last error of a series go together after
`n` attempts.  The six exits assemble them in four ways. -/
inductive Verdict (s : Series β σ) (n : Nat) : Ending → Except CodedError Unit → Prop where
  | succeeded : Verdict s n .succeeded (.ok ())
  | permanentlyFailed (last : CodedError) (hlast : s.lastError? n = some last) :
      Verdict s n .permanentlyFailed (.error last)
  | exhausted (last : CodedError) (hlast : s.lastError? n = some last) :
      Verdict s n .exhausted
        (.error ((Backoff.exhausted (s.backoffAt n)).wrap last.toFault))
  | cancelled : Verdict s n .cancelled (.error (cancellation (s.lastError? n)))

theorem Exit.verdict {s : Series β σ} {k : Nat} {c : Conclusion} (hexit : s.Exit k c) :
    s.Verdict c.made c.ending c.result := by
  cases hexit with
  | before hfired => exact .cancelled
  | succeeded hopen hok => exact .succeeded
  | failed hopen fault hfail => exact .permanentlyFailed _ (lastError?_succ_of_error hfail)
  | during hopen fault hfail hfired =>
    have hlast : s.lastError? (k + 1) = some fault.toCoded := lastError?_succ_of_error hfail
    rw [← hlast]
    exact .cancelled
  | spent hopen fault hfail hquiet hgrant => exact .exhausted _ (lastError?_succ_of_error hfail)
  | cut hopen fault hfail hquiet delay hgrant c hfires hcut =>
    have hlast : s.lastError? (k + 1) = some fault.toCoded := lastError?_succ_of_error hfail
    rw [← hlast]
    exact .cancelled

theorem Verdict.succeeded_iff {s : Series β σ} {n : Nat} {ending : Ending}
    {result : Except CodedError Unit} (h : s.Verdict n ending result) :
    ending = .succeeded ↔ result = .ok () := by
  cases h with
  | succeeded => exact ⟨fun _ => rfl, fun _ => rfl⟩
  | _ => exact ⟨fun h => (by cases h), fun h => (by cases h)⟩

theorem Verdict.permanentlyFailed_result {s : Series β σ} {n : Nat}
    {result : Except CodedError Unit} (h : s.Verdict n .permanentlyFailed result) :
    ∃ last, s.lastError? n = some last ∧ result = .error last := by
  cases h with
  | permanentlyFailed last hlast => exact ⟨last, hlast, rfl⟩

theorem Verdict.exhausted_result {s : Series β σ} {n : Nat}
    {result : Except CodedError Unit} (h : s.Verdict n .exhausted result) :
    ∃ last, s.lastError? n = some last ∧
      result = .error ((Backoff.exhausted (s.backoffAt n)).wrap last.toFault) := by
  cases h with
  | exhausted last hlast => exact ⟨last, hlast, rfl⟩

theorem Verdict.cancelled_result {s : Series β σ} {n : Nat}
    {result : Except CodedError Unit} (h : s.Verdict n .cancelled result) :
    result = .error (cancellation (s.lastError? n)) := by
  cases h with
  | cancelled => rfl

/-- The chain of the last error stands at the end of the chain of the error
that is returned. -/
theorem Verdict.chain_suffix {s : Series β σ} {n : Nat} {ending : Ending} {e last : CodedError}
    (h : s.Verdict n ending (.error e)) (hlast : s.lastError? n = some last) :
    last.chain <:+ e.chain := by
  cases h with
  | permanentlyFailed _ hfinal =>
    obtain rfl := Option.some.inj (hlast.symm.trans hfinal)
    exact List.suffix_refl _
  | exhausted _ hfinal =>
    obtain rfl := Option.some.inj (hlast.symm.trans hfinal)
    exact CodedError.chain_suffix_wrap _ _
  | cancelled => exact chain_suffix_cancellation hlast

/-- A series that is given up is final if the backoff says so with an error of
the standard ones, and a cancelled series always is. -/
theorem Verdict.isPermanent {s : Series β σ} {n : Nat} {ending : Ending} {e : CodedError}
    (h : s.Verdict n ending (.error e))
    (hending : ending = .cancelled ∨ ending = .exhausted ∧
      (Backoff.exhausted (s.backoffAt n) = Builtin.retryTimeSpent ∨
        Backoff.exhausted (s.backoffAt n) = Builtin.retryAttemptsSpent)) :
    e.isPermanent = true := by
  cases h with
  | permanentlyFailed => simp at hending
  | exhausted last _ =>
    rw [CodedError.isPermanent_wrap]
    rcases hending with hcancelled | ⟨_, htime | hattempts⟩
    · cases hcancelled
    · rw [htime]
      decide
    · rw [hattempts]
      decide
  | cancelled => exact isPermanent_cancellation _

/-! ## The account of a run -/

/-- What the outcome of a series says about its error.  The attempts that were
made are those that show on the trace. -/
structure Accounted (s : Series β σ) (run : Run σ (Outcome Unit)) : Prop where
  /-- There is no last error if and only if no attempt failed. -/
  clean : run.answer.lastError = none ↔
    ∀ i < run.trace.beginnings.length, s.outcome i = .ok ()
  /-- The last error reports the latest attempt that failed. -/
  latest : ∀ i failure, i < run.trace.beginnings.length → s.outcome i = .error failure →
    (∀ j < run.trace.beginnings.length, i < j → s.outcome j = .ok ()) →
    run.answer.lastError = some failure.report
  succeeded : run.answer.ending = .succeeded ↔ run.answer.result = .ok ()
  permanentlyFailed : run.answer.ending = .permanentlyFailed →
    ∃ last, run.answer.lastError = some last ∧ run.answer.result = .error last
  exhausted : run.answer.ending = .exhausted →
    ∃ last, run.answer.lastError = some last ∧
      run.answer.result =
        .error ((Backoff.exhausted (s.backoffAt run.trace.beginnings.length)).wrap last.toFault)
  cancelled : run.answer.ending = .cancelled →
    run.answer.result =
      .error (match run.answer.lastError with
        | some last => Builtin.retryCanceled.wrap last.toFault
        | none => Builtin.retryCanceled)
  /-- Whatever the error that is returned, the last error and the fault that it
  reports are found in it, layer by layer and code by code. -/
  kept : ∀ e i failure, run.answer.result = .error e →
    i < run.trace.beginnings.length → s.outcome i = .error failure →
    (∀ j < run.trace.beginnings.length, i < j → s.outcome j = .ok ()) →
    failure.report.chain <:+ e.chain ∧ failure.report.codes <:+ e.codes ∧
      failure.fault.chain <:+ e.chain ∧ failure.fault.codes <:+ e.codes
  /-- The codes of an exhausted series: the reason, then those of the last
  error. -/
  codes : ∀ e last, run.answer.ending = .exhausted → run.answer.result = .error e →
    run.answer.lastError = some last →
    e.codes =
      (Backoff.exhausted (s.backoffAt run.trace.beginnings.length)).code :: last.codes
  /-- The verdict on an error that ends a series is final, unless the backoff
  has an error of its own that is not. -/
  final : ∀ e, run.answer.result = .error e →
    run.answer.ending = .cancelled ∨ run.answer.ending = .exhausted ∧
      (Backoff.exhausted (s.backoffAt run.trace.beginnings.length) = Builtin.retryTimeSpent ∨
        Backoff.exhausted (s.backoffAt run.trace.beginnings.length) =
          Builtin.retryAttemptsSpent) →
    e.isPermanent = true

/-- Every run gives a true account of its error. -/
theorem accounted_of_run? (s : Series β σ) {fuel : Nat} {run : Run σ (Outcome Unit)}
    (hrun : s.run? fuel = some run) : s.Accounted run := by
  obtain ⟨k, c, hreach, hexit, rfl⟩ := exit_of_run? hrun
  have hmade : (s.conclude c).trace.beginnings.length = c.made := hexit.length_beginnings hreach
  have hverdict : s.Verdict c.made (s.conclude c).answer.ending (s.conclude c).answer.result :=
    hexit.verdict
  constructor
  case clean =>
    rw [hmade, ← lastFailure?_eq_none]
    exact Option.map_eq_none_iff
  case latest =>
    intro i failure hi hfail hlater
    rw [hmade] at hi hlater
    exact lastError?_eq_some hi hfail hlater
  case succeeded => exact hverdict.succeeded_iff
  case permanentlyFailed =>
    intro hending
    rw [hending] at hverdict
    exact hverdict.permanentlyFailed_result
  case exhausted =>
    intro hending
    rw [hending] at hverdict
    rw [hmade]
    exact hverdict.exhausted_result
  case cancelled =>
    intro hending
    rw [hending] at hverdict
    exact hverdict.cancelled_result
  case kept =>
    intro e i failure hresult hi hfail hlater
    rw [hmade] at hi hlater
    rw [hresult] at hverdict
    have hreported : failure.report.chain <:+ e.chain :=
      hverdict.chain_suffix (lastError?_eq_some hi hfail hlater)
    have hfault : failure.fault.chain <:+ e.chain :=
      (Fault.chain_suffix_toCoded failure.fault).trans hreported
    exact ⟨hreported, Fault.codes_suffix hreported, hfault, Fault.codes_suffix hfault⟩
  case codes =>
    intro e last hending hresult hlast
    rw [hending, hresult] at hverdict
    obtain ⟨wrapped, hfinal, hwrap⟩ := hverdict.exhausted_result
    have hsame : wrapped = last := Option.some.inj (hfinal.symm.trans hlast)
    rw [hmade, Except.error.inj hwrap, hsame]
    exact CodedError.codes_wrap _ _
  case final =>
    intro e hresult hending
    rw [hmade] at hending
    rw [hresult] at hverdict
    exact hverdict.isPermanent hending

/-- Two attempts with one wait between them: a lost connection, then an error
without a code. -/
def failingTwice : Series Scripted Nat :=
  playing (.start [.ofMillis 1]) .idle
    ⟨.lost,
      [⟨[.timer (.ofMillis 2), .other (.clamp 350)], false,
        .error (.transient (.foreign "refused" true))⟩]⟩

/-- The second failure is the one that is returned under the reason. -/
theorem accounted_failingTwice :
    ∃ run e, failingTwice.run? 2 = some run ∧ run.answer.ending = .exhausted ∧
      run.answer.result = .error e ∧
      e.codes = [Builtin.retryTimeSpent.code, Builtin.retryOperationFailed.code] ∧
      failingTwice.Accounted run := by
  have hrun : failingTwice.run? 2 = some _ := rfl
  exact ⟨_, _, hrun, rfl, rfl, rfl, accounted_of_run? failingTwice hrun⟩

end Series

end Recourse
