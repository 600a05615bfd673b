import Recourse.Proofs.Firing

/-!
# What a step can do

`Series.head` is the state of the runner at the beginning of a round, written
out from the timeline.  `Series.Exit` lists the six ways in which a series can
end in a round, each with all that it leaves behind, and `Series.Retried` says
that it goes on.

* `step_head` is the one place where the runner is opened: from `head k` a step
  takes an exit of round `k` or leads to `head (k + 1)`.
* `Reaches` says that a series comes to a round.  `run?_of_exit` and
  `exit_of_run?` turn runs into exits of rounds that are reached, and back.
-/

namespace Recourse

/-- 32 bits hold a number modulo `2 ^ 32`. -/
theorem UInt32.toString_ofNat_mod (n : Nat) :
    toString (UInt32.ofNat n) = toString (n % UInt32.size) := rfl

theorem Progress.notify_attempts {β σ : Type} (p : Progress β σ) (observer : Option Observer)
    (started : Instant) (error : CodedError) (delay : Span) :
    (p.notify observer started error delay).attempts = p.attempts := by
  cases observer with
  | none => rfl
  | some observer =>
    simp only [Progress.notify]
    split <;> rfl

namespace Series

variable {β σ : Type} [Backoff β]

/-! ## Events of a round -/

/-- What the observer is told after the failure of round `k`. -/
def notices (s : Series β σ) (k : Nat) (error : CodedError) (delay : Span) :
    List Notification :=
  s.runner.observer.toList.map fun observer =>
    ⟨observer.tag, error, delay, (s.returns k).since s.scene.clock⟩

/-- The events of a round that ends in a wait. -/
def roundEvents (s : Series β σ) (k : Nat) : List Event :=
  match s.outcome k, s.grant k with
  | .error failure, some delay =>
    .began (.ofNat (k + 1)) (s.begins k) ::
      ((s.notices k failure.report delay).map .notified ++
        [.retrying (.ofNat (k + 1)) delay failure.report.code])
  | _, _ => []

/-- The events of the rounds before round `k`. -/
def events (s : Series β σ) (k : Nat) : List Event := (List.range k).flatMap s.roundEvents

theorem events_succ (s : Series β σ) (k : Nat) :
    s.events (k + 1) = s.events k ++ s.roundEvents k := by
  simp [events, List.range_succ]

/-! ## The state of the runner -/

/-- The state of the runner when round `k` begins. -/
def head (s : Series β σ) (k : Nat) : Progress β σ where
  backoff := s.backoffAt k
  clock := s.begins k
  token := ⟨s.firedBefore k, s.scene.token.due⟩
  state := s.operation.stateAfter s.state k
  attempts := .ofNat k
  lastError := s.lastError? k
  asked := k
  history := (s.events k).reverse

/-- The state of the runner when the attempt of round `k` has returned. -/
def returned (s : Series β σ) (k : Nat) : Progress β σ :=
  { s.head k with
    clock := s.returns k
    token := ⟨s.firedReturning k, s.scene.token.due⟩
    state := s.operation.stateAfter s.state (k + 1)
    attempts := .ofNat (k + 1)
    history := .began (.ofNat (k + 1)) (s.begins k) :: (s.events k).reverse }

/-- The state of the runner when the wait of round `k` begins. -/
def waiting (s : Series β σ) (k : Nat) (error : CodedError) (delay : Span) : Progress β σ :=
  { s.returned k with
    backoff := s.backoffAt (k + 1)
    token := ⟨s.firedReturning k || s.observerCancels, s.scene.token.due⟩
    asked := k + 1
    lastError := some error
    history :=
      .retrying (.ofNat (k + 1)) delay error.code ::
        ((s.notices k error delay).map .notified).reverse ++ (s.returned k).history }

theorem begin_eq_head (s : Series β σ) : s.runner.begin s.scene s.state = s.head 0 := rfl

theorem attempt_head (s : Series β σ) (k : Nat) :
    (s.head k).attempt s.scene.runtime s.operation = (s.outcome k, s.returned k) := by
  have htoken : ∀ token : Token, token = ⟨s.firedBefore k, s.scene.token.due⟩ →
      (if (s.made k).cancels then
          Token.fire { token with fired := s.scene.runtime.finds token (s.returns k) }
        else { token with fired := s.scene.runtime.finds token (s.returns k) }) =
      ⟨s.firedReturning k, s.scene.token.due⟩ := by
    rintro _ rfl
    cases hcancels : (s.made k).cancels <;>
      simp [firedReturning, hcancels, Token.fire, Runtime.finds_eq]
  simp only [Progress.attempt, Prod.mk.injEq]
  refine ⟨rfl, ?_⟩
  simp only [returned, Progress.record, head, UInt32.ofNat_add, ← htoken _ rfl]
  rfl

theorem notify_returned (s : Series β σ) (k : Nat) (error : CodedError) (delay : Span) :
    (Progress.notify
        { s.returned k with
          backoff := s.backoffAt (k + 1), asked := k + 1, lastError := some error }
        s.runner.observer s.scene.clock error delay).record
      (.retrying (.ofNat (k + 1)) delay error.code) = s.waiting k error delay := by
  cases hobserver : s.runner.observer with
  | none => simp [Progress.notify, Progress.record, waiting, notices, observerCancels, hobserver,
      returned]
  | some observer =>
    cases hcancels : observer.cancels <;>
      simp [Progress.notify, Progress.record, waiting, notices, observerCancels, hobserver,
        hcancels, returned, Token.fire]

/-! ## Exits -/

end Series

/-- How a series ends, apart from what its attempts have left behind. -/
structure Conclusion where
  made : Nat
  /-- How many rounds have come to their wait. -/
  rounds : Nat
  asked : Nat
  clock : Instant
  fired : Bool
  ending : Ending
  result : Except CodedError Unit
  /-- The events after the last wait has begun. -/
  tail : List Event

namespace Series

variable {β σ : Type} [Backoff β]

/-- The run that a series leaves behind when it ends. -/
def conclude (s : Series β σ) (c : Conclusion) : Run σ (Outcome Unit) where
  answer :=
    { result := c.result
      ending := c.ending
      attempts := .ofNat c.made
      elapsed := c.clock.since s.scene.clock
      lastError := s.lastError? c.made }
  clock := c.clock
  token := ⟨c.fired, s.scene.token.due⟩
  state := s.operation.stateAfter s.state c.made
  asked := c.asked
  trace := s.events c.rounds ++ c.tail

/-- The error that reports a cancellation, over the last error if there is
one. -/
def cancellation (lastError : Option CodedError) : CodedError :=
  match lastError with
  | some error => Builtin.retryCanceled.wrap error.toFault
  | none => Builtin.retryCanceled

omit [Backoff β] in
theorem cancellation_eq (p : Progress β σ) : p.cancellation = cancellation p.lastError := by
  unfold Progress.cancellation cancellation
  cases p.lastError <;> rfl

/-- The ways in which a series that has come to round `k` ends there: the token
is found fired before the attempt, the attempt succeeds, it fails for good, it
fails and the token is found fired then, the backoff gives up, or the token
cuts the wait short. -/
inductive Exit (s : Series β σ) (k : Nat) : Conclusion → Prop where
  | before (hfired : s.firedBefore k = true) :
      Exit s k
        { made := k, rounds := k, asked := k, clock := s.begins k, fired := true
          ending := .cancelled
          result := .error (cancellation (s.lastError? k))
          tail := [.cancelledBefore (.ofNat k)] }
  | succeeded (hopen : s.firedBefore k = false) (hok : s.outcome k = .ok ()) :
      Exit s k
        { made := k + 1, rounds := k, asked := k, clock := s.returns k
          fired := s.firedReturning k
          ending := .succeeded
          result := .ok ()
          tail :=
            .began (.ofNat (k + 1)) (s.begins k) ::
              if 1 < UInt32.ofNat (k + 1) then [.recovered (.ofNat (k + 1))] else [] }
  | failed (hopen : s.firedBefore k = false) (fault : Fault)
      (hfail : s.outcome k = .error (.permanent fault)) :
      Exit s k
        { made := k + 1, rounds := k, asked := k, clock := s.returns k
          fired := s.firedReturning k
          ending := .permanentlyFailed
          result := .error fault.toCoded
          tail :=
            [.began (.ofNat (k + 1)) (s.begins k),
              .failedForGood (.ofNat (k + 1)) fault.toCoded.code] }
  | during (hopen : s.firedBefore k = false) (fault : Fault)
      (hfail : s.outcome k = .error (.transient fault))
      (hfired : s.firedReturning k = true) :
      Exit s k
        { made := k + 1, rounds := k, asked := k, clock := s.returns k, fired := true
          ending := .cancelled
          result := .error (cancellation (some fault.toCoded))
          tail :=
            [.began (.ofNat (k + 1)) (s.begins k),
              .cancelledDuring (.ofNat (k + 1)) fault.toCoded.code] }
  | spent (hopen : s.firedBefore k = false) (fault : Fault)
      (hfail : s.outcome k = .error (.transient fault))
      (hquiet : s.firedReturning k = false) (hgrant : s.grant k = none) :
      Exit s k
        { made := k + 1, rounds := k, asked := k + 1, clock := s.returns k, fired := false
          ending := .exhausted
          result := .error ((Backoff.exhausted (s.backoffAt (k + 1))).wrap fault.toCoded.toFault)
          tail :=
            [.began (.ofNat (k + 1)) (s.begins k),
              .gaveUp (.ofNat (k + 1)) fault.toCoded.code
                (Backoff.exhausted (s.backoffAt (k + 1))).code] }
  | cut (hopen : s.firedBefore k = false) (fault : Fault)
      (hfail : s.outcome k = .error (.transient fault))
      (hquiet : s.firedReturning k = false) (delay : Span) (hgrant : s.grant k = some delay)
      (c : Instant) (hfires : s.FiresInWait k c)
      (hcut : s.observerCancels = true ∨ c < s.begins (k + 1)) :
      Exit s k
        { made := k + 1, rounds := k + 1, asked := k + 1, clock := c, fired := true
          ending := .cancelled
          result := .error (cancellation (some fault.toCoded))
          tail := [.cancelledWaiting (.ofNat (k + 1))] }

/-- The series goes on after round `k`. -/
structure Retried (s : Series β σ) (k : Nat) : Prop where
  opened : s.firedBefore k = false
  failed : ∃ fault, s.outcome k = .error (.transient fault)
  quiet : s.firedReturning k = false
  granted : ∃ delay, s.grant k = some delay
  observed : s.observerCancels = false
  /-- The timer of the token is not due before the wait ends. -/
  waited : ∀ due, s.scene.token.due = some due → ¬due < s.begins (k + 1)

/-! ## Steps

A step makes the attempt, settles its outcome and, after a transient failure
with the token not fired, asks the backoff and waits.  There is a lemma for
each part, and for each way in which it can go.
-/

theorem roundEvents_of_granted {s : Series β σ} {k : Nat} {fault : Fault} {delay : Span}
    (hfail : s.outcome k = .error (.transient fault)) (hgrant : s.grant k = some delay) :
    s.roundEvents k =
      .began (.ofNat (k + 1)) (s.begins k) ::
        ((s.notices k fault.toCoded delay).map .notified ++
          [.retrying (.ofNat (k + 1)) delay fault.toCoded.code]) := by
  rw [roundEvents, hfail, hgrant]
  rfl

theorem settle_ok {s : Series β σ} {k : Nat} (hopen : s.firedBefore k = false)
    (hok : s.outcome k = .ok ()) :
    ∃ c, s.Exit k c ∧
      (s.returned k).settle s.runner.observer s.scene (.ok ()) =
        .stop (s.conclude c) := by
  refine ⟨_, .succeeded hopen hok, ?_⟩
  have hattempts : (s.returned k).attempts = .ofNat (k + 1) := rfl
  simp only [Progress.settle, Progress.finish, conclude, lastError?_succ_of_ok hok, hattempts]
  by_cases hlater : 1 < UInt32.ofNat (k + 1)
  · simp only [if_pos hlater]
    simp [Progress.record, returned, head]
  · simp only [if_neg hlater]
    simp [returned, head]

theorem settle_permanent {s : Series β σ} {k : Nat} (hopen : s.firedBefore k = false)
    {fault : Fault} (hfail : s.outcome k = .error (.permanent fault)) :
    ∃ c, s.Exit k c ∧
      (s.returned k).settle s.runner.observer s.scene (.error (.permanent fault)) =
        .stop (s.conclude c) := by
  refine ⟨_, .failed hopen fault hfail, ?_⟩
  simp [Progress.settle, Progress.finish, Progress.record, conclude, returned, head,
    lastError?_succ_of_error hfail, Failure.report, Failure.fault]

theorem settle_fired {s : Series β σ} {k : Nat} (hopen : s.firedBefore k = false)
    {fault : Fault} (hfail : s.outcome k = .error (.transient fault))
    (hfired : s.firedReturning k = true) :
    ∃ c, s.Exit k c ∧
      (s.returned k).settle s.runner.observer s.scene (.error (.transient fault)) =
        .stop (s.conclude c) := by
  refine ⟨_, .during hopen fault hfail hfired, ?_⟩
  have htoken : (s.returned k).token.fired = true := hfired
  simp only [Progress.settle, htoken, if_true]
  simp [Progress.cancel, Progress.finish, Progress.record, cancellation_eq, conclude, returned,
    head, lastError?_succ_of_error hfail, Failure.report, Failure.fault, hfired]

theorem settle_quiet {s : Series β σ} {k : Nat} (fault : Fault)
    (hquiet : s.firedReturning k = false) :
    (s.returned k).settle s.runner.observer s.scene (.error (.transient fault)) =
      (s.returned k).retry s.runner.observer s.scene fault.toCoded := by
  have htoken : (s.returned k).token.fired = false := hquiet
  simp only [Progress.settle, htoken, Bool.false_eq_true, if_false]

theorem retry_spent {s : Series β σ} {k : Nat} (hopen : s.firedBefore k = false)
    {fault : Fault} (hfail : s.outcome k = .error (.transient fault))
    (hquiet : s.firedReturning k = false) (hgrant : s.grant k = none) :
    ∃ c, s.Exit k c ∧
      (s.returned k).retry s.runner.observer s.scene fault.toCoded =
        .stop (s.conclude c) := by
  refine ⟨_, .spent hopen fault hfail hquiet hgrant, ?_⟩
  have hanswer : Backoff.next (s.returned k).backoff (s.returned k).clock
      (s.scene.draws (s.returned k).asked) =
      (none, s.backoffAt (k + 1)) := Prod.ext hgrant rfl
  simp only [Progress.retry, hanswer]
  simp [Progress.finish, Progress.record, conclude, returned, head,
    lastError?_succ_of_error hfail, Failure.report, Failure.fault, hquiet]

theorem retry_granted {s : Series β σ} {k : Nat} {delay : Span} (error : CodedError)
    (hgrant : s.grant k = some delay) :
    (s.returned k).retry s.runner.observer s.scene error =
      (s.waiting k error delay).wait s.scene delay := by
  have hanswer : Backoff.next (s.returned k).backoff (s.returned k).clock
      (s.scene.draws (s.returned k).asked) =
      (some delay, s.backoffAt (k + 1)) := Prod.ext hgrant rfl
  simp only [Progress.retry, hanswer, Progress.notify_attempts]
  exact congrArg (fun p => Progress.wait p s.scene delay) (s.notify_returned k error delay)

theorem returns_le_due {s : Series β σ} {k : Nat} (hquiet : s.firedReturning k = false)
    {due : Instant} (hdue : s.scene.token.due = some due) : s.returns k ≤ due := by
  rw [firedReturning, Bool.or_eq_false_iff, hdue, Option.any_some] at hquiet
  exact Nat.le_of_not_lt (of_decide_eq_false hquiet.2)

theorem waiting_history {s : Series β σ} {k : Nat} {fault : Fault} {delay : Span}
    (hfail : s.outcome k = .error (.transient fault)) (hgrant : s.grant k = some delay) :
    (s.waiting k fault.toCoded delay).history = (s.events (k + 1)).reverse := by
  simp [waiting, returned, events_succ, roundEvents_of_granted hfail hgrant]

theorem wait_cut {s : Series β σ} {k : Nat} (hopen : s.firedBefore k = false)
    {fault : Fault} (hfail : s.outcome k = .error (.transient fault))
    (hquiet : s.firedReturning k = false) {delay : Span} (hgrant : s.grant k = some delay)
    {c : Instant}
    (hcut : s.scene.runtime.choose (s.waiting k fault.toCoded delay).token (s.returns k)
      (s.begins (k + 1)) = some c) :
    ∃ e, s.Exit k e ∧
      (s.waiting k fault.toCoded delay).wait s.scene delay = .stop (s.conclude e) := by
  have hfires : s.FiresInWait k c ∧ (s.observerCancels = true ∨ c < s.begins (k + 1)) := by
    have htoken : (s.waiting k fault.toCoded delay).token =
        ⟨s.observerCancels, s.scene.token.due⟩ := by simp [waiting, hquiet]
    rw [htoken, Runtime.choose_eq_some] at hcut
    rcases hcut with ⟨hobserver, rfl⟩ | ⟨hobserver, due, hdue, hlt, rfl⟩
    · exact ⟨.byObserver hobserver, Or.inl hobserver⟩
    · have hfrom := returns_le_due hquiet hdue
      rw [Instant.max_eq_left hfrom]
      exact ⟨.byTimer due hdue hobserver hfrom (Nat.le_of_lt hlt), Or.inr hlt⟩
  refine ⟨_, .cut hopen fault hfail hquiet delay hgrant c hfires.1 hfires.2, ?_⟩
  have hwake : s.scene.runtime.wake (s.returns k) delay = s.begins (k + 1) :=
    (begins_succ hgrant).symm
  have hbegun : (s.waiting k fault.toCoded delay).clock = s.returns k := rfl
  simp only [Progress.wait, hbegun, hwake, hcut]
  simp only [Progress.cancel, Progress.record, Progress.finish, cancellation_eq,
    waiting_history hfail hgrant]
  simp [conclude, waiting, returned, Token.fire, lastError?_succ_of_error hfail, Failure.report,
    Failure.fault]

theorem wait_over {s : Series β σ} {k : Nat} (hopen : s.firedBefore k = false)
    {fault : Fault} (hfail : s.outcome k = .error (.transient fault))
    (hquiet : s.firedReturning k = false) {delay : Span} (hgrant : s.grant k = some delay)
    (hwhole : s.scene.runtime.choose (s.waiting k fault.toCoded delay).token (s.returns k)
      (s.begins (k + 1)) = none) :
    s.Retried k ∧
      (s.waiting k fault.toCoded delay).wait s.scene delay = .goOn (s.head (k + 1)) := by
  have hwake : s.scene.runtime.wake (s.returns k) delay = s.begins (k + 1) :=
    (begins_succ hgrant).symm
  have hbegun : (s.waiting k fault.toCoded delay).clock = s.returns k := rfl
  have htoken : (s.waiting k fault.toCoded delay).token =
      ⟨s.observerCancels, s.scene.token.due⟩ := by simp [waiting, hquiet]
  have hstill := hwhole
  rw [htoken, Runtime.choose_eq_none] at hstill
  obtain ⟨hobserver, hdue⟩ := hstill
  refine ⟨⟨hopen, ⟨fault, hfail⟩, hquiet, ⟨delay, hgrant⟩, hobserver, hdue⟩, ?_⟩
  simp only [Progress.wait, hbegun, hwake, hwhole]
  have hcancels := cancels_of_quiet hquiet
  congr 1
  have hnext : s.scene.runtime.findsAfterYield (s.waiting k fault.toCoded delay).token
      (s.begins (k + 1)) = s.firedBefore (k + 1) := by
    rw [htoken]
    simp [Runtime.findsAfterYield_eq, firedBefore, hopen, hcancels]
  rw [hnext]
  simp only [head, ← waiting_history hfail hgrant, lastError?_succ_of_error hfail]
  rfl

/-- From the head of a round a step ends the series there, or leads to the head
of the next round. -/
theorem step_head (s : Series β σ) (k : Nat) :
    (∃ c, s.Exit k c ∧
        s.runner.step s.scene s.operation (s.head k) = .stop (s.conclude c)) ∨
      s.Retried k ∧
        s.runner.step s.scene s.operation (s.head k) = .goOn (s.head (k + 1)) := by
  cases hbefore : s.firedBefore k with
  | true =>
    refine Or.inl ⟨_, .before hbefore, ?_⟩
    have htoken : (s.head k).token.fired = true := hbefore
    simp only [Runner.step, htoken, if_true]
    simp [Progress.cancel, Progress.finish, Progress.record, cancellation_eq, conclude, head,
      hbefore]
  | false =>
    have htoken : (s.head k).token.fired = false := hbefore
    simp only [Runner.step, htoken, Bool.false_eq_true, if_false, attempt_head]
    cases houtcome : s.outcome k with
    | ok => exact Or.inl (settle_ok hbefore houtcome)
    | error failure =>
      cases failure with
      | permanent fault => exact Or.inl (settle_permanent hbefore houtcome)
      | transient fault =>
        cases hreturning : s.firedReturning k with
        | true => exact Or.inl (settle_fired hbefore houtcome hreturning)
        | false =>
          rw [settle_quiet fault hreturning]
          cases hgrant : s.grant k with
          | none => exact Or.inl (retry_spent hbefore houtcome hreturning hgrant)
          | some delay =>
            rw [retry_granted _ hgrant]
            cases hcut : s.scene.runtime.choose (s.waiting k fault.toCoded delay).token
              (s.returns k) (s.begins (k + 1)) with
            | some c => exact Or.inl (wait_cut hbefore houtcome hreturning hgrant hcut)
            | none => exact Or.inr (wait_over hbefore houtcome hreturning hgrant hcut)

/-! ## Runs -/

theorem Exit.not_retried {s : Series β σ} {k : Nat} {c : Conclusion} (hexit : s.Exit k c) :
    ¬s.Retried k := by
  rintro ⟨hopen, ⟨fault, hfail⟩, hquiet, ⟨delay, hgrant⟩, hobserver, hdue⟩
  cases hexit with
  | before hfired => exact Bool.false_ne_true (hopen.symm.trans hfired)
  | succeeded _ hok => cases hok.symm.trans hfail
  | failed _ _ hfor => cases hfor.symm.trans hfail
  | during _ _ _ hfired => exact Bool.false_ne_true (hquiet.symm.trans hfired)
  | spent _ _ _ _ hnone => cases hnone.symm.trans hgrant
  | cut _ _ _ _ _ _ _ hfires hcut =>
    rcases hcut with hobserved | hlt
    · exact Bool.false_ne_true (hobserver.symm.trans hobserved)
    · cases hfires with
      | byObserver hobserved => exact Bool.false_ne_true (hobserver.symm.trans hobserved)
      | byTimer due hsome _ _ _ => exact hdue _ hsome hlt

theorem FiresInWait.unique {s : Series β σ} {k : Nat} {c c' : Instant}
    (h : s.FiresInWait k c) (h' : s.FiresInWait k c') : c = c' := by
  cases h with
  | byObserver hcancels =>
    cases h' with
    | byObserver _ => rfl
    | byTimer _ _ hobserver _ _ => exact absurd (hobserver.symm.trans hcancels) Bool.false_ne_true
  | byTimer due hdue hobserver _ _ =>
    cases h' with
    | byObserver hcancels => exact absurd (hobserver.symm.trans hcancels) Bool.false_ne_true
    | byTimer due' hdue' _ _ _ => exact Option.some.inj (hdue.symm.trans hdue')

theorem Exit.unique {s : Series β σ} {k : Nat} {c c' : Conclusion} (h : s.Exit k c)
    (h' : s.Exit k c') : c = c' := by
  cases h with
  | cut hopen fault hfail hquiet delay hgrant c hfires hcut =>
    cases h' with
    | cut _ fault' hfail' _ _ _ c' hfires' _ =>
      have hsame : c = c' := hfires.unique hfires'
      have hfault : fault = fault' := by simpa using hfail.symm.trans hfail'
      rw [hsame, hfault]
    | _ => simp_all
  | _ => cases h' <;> simp_all

/-- The series comes to round `k`: it goes on after every round before. -/
def Reaches (s : Series β σ) (k : Nat) : Prop := ∀ i < k, s.Retried i

theorem Reaches.zero (s : Series β σ) : s.Reaches 0 := fun _ hi => absurd hi (Nat.not_lt_zero _)

theorem Reaches.succ {s : Series β σ} {k : Nat} (hreach : s.Reaches k) (hretried : s.Retried k) :
    s.Reaches (k + 1) := by
  intro i hi
  rcases Nat.lt_succ_iff_lt_or_eq.1 hi with hlt | rfl
  · exact hreach i hlt
  · exact hretried

theorem Reaches.of_le {s : Series β σ} {j k : Nat} (hreach : s.Reaches k) (hle : j ≤ k) :
    s.Reaches j := fun i hi => hreach i (Nat.lt_of_lt_of_le hi hle)

theorem after_succ {s : Series β σ} {n : Nat} {p : Progress β σ} (hgo : s.after n = .goOn p) :
    s.after (n + 1) = s.runner.step s.scene s.operation p := by
  rw [after, hgo]

/-- A series that comes to a round is at the head of it then. -/
theorem after_of_reaches {s : Series β σ} {k : Nat} (hreach : s.Reaches k) :
    s.after k = .goOn (s.head k) := by
  induction k with
  | zero => rw [after, begin_eq_head]
  | succ k ih =>
    rw [after_succ (ih (hreach.of_le (Nat.le_succ k)))]
    rcases s.step_head k with ⟨c, hexit, _⟩ | ⟨_, hstep⟩
    · exact absurd (hreach k (Nat.lt_succ_self k)) hexit.not_retried
    · exact hstep

theorem after_of_stop {s : Series β σ} {n : Nat} {run : Run σ (Outcome Unit)}
    (hstop : s.after n = .stop run) (m : Nat) : s.after (n + m) = .stop run := by
  induction m with
  | zero => exact hstop
  | succ m ih => rw [← Nat.add_assoc, after, ih]

/-- After any number of steps a series is at the head of a round, or has ended
in a round that it came to. -/
theorem after_cases (s : Series β σ) (n : Nat) :
    s.Reaches n ∧ s.after n = .goOn (s.head n) ∨
      ∃ k c, k < n ∧ s.Reaches k ∧ s.Exit k c ∧ s.after n = .stop (s.conclude c) := by
  induction n with
  | zero => exact Or.inl ⟨.zero s, after_of_reaches (.zero s)⟩
  | succ n ih =>
    rcases ih with ⟨hreach, hafter⟩ | ⟨k, c, hk, hreach, hexit, hafter⟩
    · rw [after_succ hafter]
      rcases s.step_head n with ⟨c, hexit, hstep⟩ | ⟨hretried, hstep⟩
      · exact Or.inr ⟨n, c, Nat.lt_succ_self n, hreach, hexit, hstep⟩
      · exact Or.inl ⟨hreach.succ hretried, hstep⟩
    · exact Or.inr ⟨k, c, Nat.lt_succ_of_lt hk, hreach, hexit, by rw [after, hafter]⟩

/-- A run within some fuel is what so many steps lead to, if it is an end. -/
theorem drive_begin (s : Series β σ) (n fuel : Nat) :
    s.runner.drive s.scene s.operation (n + fuel) (s.runner.begin s.scene s.state) =
      match s.after n with
      | .stop run => some run
      | .goOn p => s.runner.drive s.scene s.operation fuel p := by
  induction n generalizing fuel with
  | zero => rw [Nat.zero_add, after]
  | succ n ih =>
    rw [Nat.add_assoc, Nat.add_comm 1 fuel, ih, after]
    cases s.after n <;> rfl

theorem run?_of_stop {s : Series β σ} {n : Nat} {run : Run σ (Outcome Unit)}
    (hstop : s.after n = .stop run) : s.run? n = some run := by
  have hdrive := s.drive_begin n 0
  rw [hstop] at hdrive
  exact hdrive

theorem run?_of_goOn {s : Series β σ} {n : Nat} {p : Progress β σ}
    (hgo : s.after n = .goOn p) : s.run? n = none := by
  have hdrive := s.drive_begin n 0
  rw [hgo] at hdrive
  exact hdrive

theorem run?_eq_some_iff {s : Series β σ} {n : Nat} {run : Run σ (Outcome Unit)} :
    s.run? n = some run ↔ s.after n = .stop run := by
  refine ⟨fun hrun => ?_, run?_of_stop⟩
  cases hafter : s.after n with
  | goOn p =>
    rw [run?_of_goOn hafter] at hrun
    cases hrun
  | stop ended =>
    rw [run?_of_stop hafter] at hrun
    rw [Option.some.inj hrun]

theorem run?_of_exit {s : Series β σ} {k : Nat} {c : Conclusion} (hreach : s.Reaches k)
    (hexit : s.Exit k c) (fuel : Nat) :
    s.run? fuel = if k < fuel then some (s.conclude c) else none := by
  rcases s.step_head k with ⟨c', hexit', hstep⟩ | ⟨hretried, _⟩
  · rw [hexit'.unique hexit] at hstep
    split
    · rename_i hlt
      have hstop : s.after (k + 1) = .stop (s.conclude c) := by
        rw [after_succ (after_of_reaches hreach), hstep]
      have hfuel : fuel = k + 1 + (fuel - (k + 1)) := by omega
      rw [hfuel]
      exact run?_of_stop (after_of_stop hstop _)
    · rename_i hge
      exact run?_of_goOn (after_of_reaches (hreach.of_le (Nat.le_of_not_lt hge)))
  · exact absurd hretried hexit.not_retried

/-- A series that does not come to round `n` ends within `n` steps. -/
theorem ends_of_bounded {s : Series β σ} {n : Nat} (hbound : ∀ k, s.Reaches k → k < n) :
    ∃ k c, s.Reaches k ∧ s.Exit k c ∧ ∀ fuel, n ≤ fuel → s.run? fuel = some (s.conclude c) := by
  rcases s.after_cases n with ⟨hreach, _⟩ | ⟨k, c, hk, hreach, hexit, _⟩
  · exact absurd (hbound n hreach) (Nat.lt_irrefl n)
  · refine ⟨k, c, hreach, hexit, fun fuel hfuel => ?_⟩
    rw [run?_of_exit hreach hexit, if_pos (Nat.lt_of_lt_of_le hk hfuel)]

theorem exit_of_run? {s : Series β σ} {fuel : Nat} {run : Run σ (Outcome Unit)}
    (hrun : s.run? fuel = some run) :
    ∃ k c, s.Reaches k ∧ s.Exit k c ∧ run = s.conclude c := by
  rcases s.after_cases fuel with ⟨_, hafter⟩ | ⟨k, c, _, hreach, hexit, hafter⟩
  · rw [run?_of_goOn hafter] at hrun
    cases hrun
  · rw [run?_of_stop hafter] at hrun
    exact ⟨k, c, hreach, hexit, (Option.some.inj hrun).symm⟩

end Series

end Recourse
