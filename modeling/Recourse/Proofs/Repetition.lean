import Recourse.Proofs.Observation

/-!
# Series that repeat each other

Two series with the same attempts take the same course, even if the second
begins later, as long as their backoffs answer alike.  What the operations keep
in their states is of no account.

* `later` moves an instant, and everything with an instant in it, by a number
  of nanoseconds.  The timer turns in whole milliseconds, so waits move along
  with their beginnings if the number is one of whole milliseconds.
* `Bisimulation` relates backoffs that answer alike for ever, one of them on a
  clock that is ahead of the other's.
* `Series.Restages` is what has to be the same from outside, and
  `Series.Repeats` is that together with what the backoffs answer in each
  round.  `Repeats.of_bisimulation` is the induction over the rounds.
* `Repeats.exit` is the one place where the exits are gone through, and
  `Repeats.run?_cases` compares the two runs.

The last part is the case of no delay: `Runner.run?_mapState` says that a
change of the operation's state which respects its steps respects its runs.
-/

namespace Recourse

/-! ## Moving in time -/

namespace Instant

@[simp] theorem later_lt_later {a b : Instant} {lag : Nat} :
    a.later lag < b.later lag ↔ a < b := Nat.add_lt_add_iff_right

@[simp] theorem later_le_later {a b : Instant} {lag : Nat} :
    a.later lag ≤ b.later lag ↔ a ≤ b := Nat.add_le_add_iff_right

theorem since_later (t earlier : Instant) (lag : Nat) :
    (t.later lag).since (earlier.later lag) = t.since earlier := by
  simp only [since, later, Nat.add_sub_add_right]

end Instant

theorem Wait.ends_later (w : Wait) (runtime : Runtime) {lag : Nat}
    (hlag : (Instant.mk lag).OnTick) (t : Instant) :
    w.ends runtime (t.later lag) = (w.ends runtime t).later lag := by
  cases w with
  | timer length => exact runtime.wake_later hlag t length
  | other length => exact t.after_later lag length

theorem Attempt.ends_later {α : Type} (a : Attempt α) (runtime : Runtime) {lag : Nat}
    (hlag : (Instant.mk lag).OnTick) (t : Instant) :
    a.ends runtime (t.later lag) = (a.ends runtime t).later lag := by
  unfold ends
  generalize a.waits = waits
  induction waits generalizing t with
  | nil => rfl
  | cons wait waits ih =>
    rw [List.foldl_cons, List.foldl_cons, wait.ends_later runtime hlag, ih]

/-- The token with its timer set later. -/
def Token.later (t : Token) (lag : Nat) : Token := { t with due := t.due.map (·.later lag) }

theorem Token.later_zero (t : Token) : t.later 0 = t := by
  obtain ⟨fired, _ | due⟩ := t <;> rfl

def Event.later (lag : Nat) : Event → Event
  | .began number instant => .began number (instant.later lag)
  | event => event

theorem Event.later_zero (event : Event) : event.later 0 = event := by
  cases event <;> rfl

theorem Event.logEntry?_later (lag : Nat) (event : Event) :
    Event.logEntry? (event.later lag) = event.logEntry? := by
  cases event <;> rfl

theorem Event.notification?_later (lag : Nat) (event : Event) :
    (event.later lag).notification? = event.notification? := by
  cases event <;> rfl

theorem Event.beginning?_later (lag : Nat) (event : Event) :
    (event.later lag).beginning? = event.beginning?.map (·.later lag) := by
  cases event <;> rfl

namespace Trace

def later (t : Trace) (lag : Nat) : Trace := List.map (Event.later lag) t

theorem later_zero (t : Trace) : t.later 0 = t := by
  rw [later, funext Event.later_zero, List.map_id']

theorem log_later (t : Trace) (lag : Nat) : (t.later lag).log = t.log := by
  rw [log, later, List.filterMap_map]
  exact congrArg (List.filterMap · t) (funext (Event.logEntry?_later lag))

theorem notifications_later (t : Trace) (lag : Nat) :
    (t.later lag).notifications = t.notifications := by
  rw [notifications, later, List.filterMap_map]
  exact congrArg (List.filterMap · t) (funext (Event.notification?_later lag))

theorem beginnings_later (t : Trace) (lag : Nat) :
    (t.later lag).beginnings = t.beginnings.map (·.later lag) := by
  rw [beginnings, later, List.filterMap_map, beginnings, List.map_filterMap]
  exact congrArg (List.filterMap · t) (funext (Event.beginning?_later lag))

end Trace

def Conclusion.later (lag : Nat) (c : Conclusion) : Conclusion :=
  { c with clock := c.clock.later lag, tail := c.tail.map (Event.later lag) }

/-! ## Backoffs that answer alike -/

/-- Related backoffs answer alike and stay related, the first on a clock that is
`lag` nanoseconds ahead of the second's.  Their draws need only be related as
well, so that they may be left out of account where they have no effect. -/
structure Bisimulation {β γ : Type} [Backoff β] [Backoff γ] (lag : Nat)
    (drawn : Draw → Draw → Prop) (related : γ → β → Prop) : Prop where
  answers : ∀ {b c}, related b c → ∀ now {draw draw'}, drawn draw draw' →
    (Backoff.next b (now.later lag) draw).1 = (Backoff.next c now draw').1
  next : ∀ {b c}, related b c → ∀ now {draw draw'}, drawn draw draw' →
    related (Backoff.next b (now.later lag) draw).2 (Backoff.next c now draw').2
  reset : ∀ {b c}, related b c → ∀ now,
    related (Backoff.reset b (now.later lag)) (Backoff.reset c now)
  exhausted : ∀ {b c}, related b c → Backoff.exhausted b = Backoff.exhausted c

/-- A backoff answers like itself. -/
theorem Bisimulation.eq (β : Type) [Backoff β] :
    Bisimulation 0 (· = ·) (fun b c : β => b = c) := by
  constructor
  case answers =>
    rintro b _ rfl now draw _ rfl
    rfl
  case next =>
    rintro b _ rfl now draw _ rfl
    rfl
  case reset =>
    rintro b _ rfl now
    rfl
  case exhausted =>
    rintro b _ rfl
    rfl

namespace Series

variable {β γ σ τ : Type}

/-- The first series makes the attempts of the second, with the same observer,
on a clock that is `lag` nanoseconds ahead. -/
structure Restages (lag : Nat) (r : Series γ τ) (s : Series β σ) : Prop where
  whole : (Instant.mk lag).OnTick
  runtime : r.scene.runtime = s.scene.runtime
  clock : r.scene.clock = s.scene.clock.later lag
  token : r.scene.token = s.scene.token.later lag
  observer : r.runner.observer = s.runner.observer
  made : ∀ k, r.made k = s.made k

variable [Backoff β] [Backoff γ]

/-- Its rounds begin, return and are granted waits as those of the second, only
later. -/
structure Repeats (lag : Nat) (r : Series γ τ) (s : Series β σ) : Prop
    extends r.Restages lag s where
  begins : ∀ k, r.begins k = (s.begins k).later lag
  grant : ∀ k, r.grant k = s.grant k
  reason : ∀ k, Backoff.exhausted (r.backoffAt k) = Backoff.exhausted (s.backoffAt k)

variable {lag : Nat} {r : Series γ τ} {s : Series β σ}

theorem Restages.returns (h : r.Restages lag s) {k : Nat}
    (hbegins : r.begins k = (s.begins k).later lag) :
    r.returns k = (s.returns k).later lag := by
  rw [Series.returns, hbegins, h.made, Attempt.ends_later _ _ h.whole, h.runtime]
  rfl

/-- Backoffs that answer alike at first answer alike in every round. -/
theorem Repeats.of_bisimulation {drawn : Draw → Draw → Prop} {related : γ → β → Prop}
    (hsim : Bisimulation lag drawn related) (h : r.Restages lag s)
    (hdraws : ∀ k, drawn (r.scene.draws k) (s.scene.draws k))
    (hstart : related (r.backoffAt 0) (s.backoffAt 0)) : r.Repeats lag s := by
  have hrounds : ∀ k, r.begins k = (s.begins k).later lag ∧
      related (r.backoffAt k) (s.backoffAt k) := by
    intro k
    induction k with
    | zero => exact ⟨h.clock, hstart⟩
    | succ k ih =>
      obtain ⟨hbegins, hrelated⟩ := ih
      have hreturns := h.returns hbegins
      constructor
      · show r.scene.runtime.wake (r.returns k) ((r.grant k).getD .zero) = _
        rw [Series.grant, answer, hreturns, hsim.answers hrelated _ (hdraws k), h.runtime,
          s.scene.runtime.wake_later h.whole]
        rfl
      · rw [backoffAt_succ, answer, hreturns, backoffAt_succ, answer]
        exact hsim.next hrelated _ (hdraws k)
  refine { h with begins := fun k => (hrounds k).1, grant := ?_, reason := ?_ }
  · intro k
    rw [Series.grant, answer, h.returns (hrounds k).1]
    exact hsim.answers (hrounds k).2 _ (hdraws k)
  · intro k
    exact hsim.exhausted (hrounds k).2

namespace Repeats

/-! ## Round by round -/

theorem returns_eq (h : r.Repeats lag s) (k : Nat) : r.returns k = (s.returns k).later lag :=
  h.toRestages.returns (h.begins k)

theorem outcome (h : r.Repeats lag s) (k : Nat) : r.outcome k = s.outcome k := by
  rw [Series.outcome, Series.outcome, h.made]

theorem lastError? (h : r.Repeats lag s) (n : Nat) : r.lastError? n = s.lastError? n :=
  lastError?_congr h.outcome n

theorem observerCancels (h : r.Repeats lag s) : r.observerCancels = s.observerCancels := by
  rw [Series.observerCancels, Series.observerCancels, h.observer]

theorem due_lt (h : r.Repeats lag s) (t : Instant) :
    r.scene.token.due.any (· < t.later lag) = s.scene.token.due.any (· < t) := by
  rw [h.token, Token.later, Option.any_map]
  simp only [Instant.later_lt_later]

theorem due_le (h : r.Repeats lag s) (t : Instant) :
    r.scene.token.due.any (· ≤ t.later lag) = s.scene.token.due.any (· ≤ t) := by
  rw [h.token, Token.later, Option.any_map]
  simp only [Instant.later_le_later]

theorem firedBefore (h : r.Repeats lag s) (k : Nat) : r.firedBefore k = s.firedBefore k := by
  induction k with
  | zero =>
    have hfired : r.scene.token.fired = s.scene.token.fired := by rw [h.token, Token.later]
    rw [Series.firedBefore, Series.firedBefore, Runtime.finds_eq, Runtime.finds_eq, hfired, h.clock]
    exact congrArg (s.scene.token.fired || ·) (h.due_lt _)
  | succ k ih =>
    rw [Series.firedBefore, Series.firedBefore, ih, h.made, h.observerCancels, h.begins, h.due_le]

theorem firedReturning (h : r.Repeats lag s) (k : Nat) :
    r.firedReturning k = s.firedReturning k := by
  rw [Series.firedReturning, Series.firedReturning, h.firedBefore, h.made, h.returns_eq, h.due_lt]

theorem due_eq (h : r.Repeats lag s) {due : Instant} (hdue : s.scene.token.due = some due) :
    r.scene.token.due = some (due.later lag) := by
  rw [h.token, Token.later, hdue, Option.map_some]

theorem firesInWait (h : r.Repeats lag s) {k : Nat} {c : Instant} (hfires : s.FiresInWait k c) :
    r.FiresInWait k (c.later lag) := by
  cases hfires with
  | byObserver hcancels =>
    rw [← h.returns_eq]
    exact .byObserver (h.observerCancels.trans hcancels)
  | byTimer due hdue hobserver hfrom hto =>
    refine .byTimer _ (h.due_eq hdue) (h.observerCancels.trans hobserver) ?_ ?_
    · rwa [h.returns_eq, Instant.later_le_later]
    · rwa [h.begins, Instant.later_le_later]

theorem notices (h : r.Repeats lag s) (k : Nat) (error : CodedError) (delay : Span) :
    r.notices k error delay = s.notices k error delay := by
  rw [Series.notices, Series.notices, h.observer, h.returns_eq, h.clock, Instant.since_later]

theorem roundEvents (h : r.Repeats lag s) (k : Nat) :
    r.roundEvents k = (s.roundEvents k).map (Event.later lag) := by
  rw [Series.roundEvents, Series.roundEvents, h.outcome, h.grant, h.begins]
  cases s.outcome k with
  | ok => rfl
  | error failure =>
    cases s.grant k with
    | none => rfl
    | some delay =>
      have hnotices : ((s.notices k failure.report delay).map .notified).map (Event.later lag) =
          (s.notices k failure.report delay).map .notified := List.map_map ..
      simp only [h.notices, List.map_cons, List.map_append, hnotices]
      rfl

theorem events (h : r.Repeats lag s) (k : Nat) :
    r.events k = (s.events k).map (Event.later lag) := by
  rw [Series.events, Series.events, List.map_flatMap, funext h.roundEvents]

/-! ## Exits -/

theorem retried (h : r.Repeats lag s) {k : Nat} (hretried : s.Retried k) : r.Retried k := by
  obtain ⟨hopen, ⟨fault, hfail⟩, hquiet, ⟨delay, hgrant⟩, hobserver, hwaited⟩ := hretried
  refine ⟨(h.firedBefore k).trans hopen, ⟨fault, (h.outcome k).trans hfail⟩,
    (h.firedReturning k).trans hquiet, ⟨delay, (h.grant k).trans hgrant⟩,
    h.observerCancels.trans hobserver, ?_⟩
  intro due hdue
  rw [h.token, Token.later, Option.map_eq_some_iff] at hdue
  obtain ⟨original, horiginal, rfl⟩ := hdue
  rw [h.begins, Instant.later_lt_later]
  exact hwaited original horiginal

theorem reaches (h : r.Repeats lag s) {k : Nat} (hreach : s.Reaches k) : r.Reaches k :=
  fun i hi => h.retried (hreach i hi)

/-- Whatever ends the second series ends the first, so much later. -/
theorem exit (h : r.Repeats lag s) {k : Nat} {c : Conclusion} (hexit : s.Exit k c) :
    r.Exit k (c.later lag) := by
  cases hexit with
  | before hfired =>
    have hexit := Exit.before ((h.firedBefore k).trans hfired)
    rw [h.begins, h.lastError?] at hexit
    exact hexit
  | succeeded hopen hok =>
    have hexit := Exit.succeeded ((h.firedBefore k).trans hopen) ((h.outcome k).trans hok)
    have htail : (if 1 < UInt32.ofNat (k + 1) then [Event.recovered (.ofNat (k + 1))]
        else []).map (Event.later lag) =
        if 1 < UInt32.ofNat (k + 1) then [.recovered (.ofNat (k + 1))] else [] := by
      split <;> rfl
    rw [h.begins, h.returns_eq, h.firedReturning, ← htail] at hexit
    exact hexit
  | failed hopen fault hfail =>
    have hexit := Exit.failed ((h.firedBefore k).trans hopen) fault ((h.outcome k).trans hfail)
    rw [h.begins, h.returns_eq, h.firedReturning] at hexit
    exact hexit
  | during hopen fault hfail hfired =>
    have hexit := Exit.during ((h.firedBefore k).trans hopen) fault ((h.outcome k).trans hfail)
      ((h.firedReturning k).trans hfired)
    rw [h.begins, h.returns_eq] at hexit
    exact hexit
  | spent hopen fault hfail hquiet hgrant =>
    have hexit := Exit.spent ((h.firedBefore k).trans hopen) fault ((h.outcome k).trans hfail)
      ((h.firedReturning k).trans hquiet) ((h.grant k).trans hgrant)
    rw [h.begins, h.returns_eq, h.reason] at hexit
    exact hexit
  | cut hopen fault hfail hquiet delay hgrant c hfires hcut =>
    have hlater : r.observerCancels = true ∨ c.later lag < r.begins (k + 1) := by
      rwa [h.observerCancels, h.begins, Instant.later_lt_later]
    exact Exit.cut ((h.firedBefore k).trans hopen) fault ((h.outcome k).trans hfail)
      ((h.firedReturning k).trans hquiet) delay ((h.grant k).trans hgrant) _
      (h.firesInWait hfires) hlater

/-! ## Runs -/

theorem conclude (h : r.Repeats lag s) (c : Conclusion) :
    r.conclude (c.later lag) =
      { answer := (s.conclude c).answer
        clock := (s.conclude c).clock.later lag
        token := (s.conclude c).token.later lag
        state := r.operation.stateAfter r.state c.made
        asked := (s.conclude c).asked
        trace := (s.conclude c).trace.later lag } := by
  have helapsed : (c.clock.later lag).since r.scene.clock = c.clock.since s.scene.clock := by
    rw [h.clock, Instant.since_later]
  have htrace : r.events c.rounds ++ c.tail.map (Event.later lag) =
      (s.events c.rounds ++ c.tail).map (Event.later lag) := by
    rw [h.events, List.map_append]
  have hdue : r.scene.token.due = s.scene.token.due.map (·.later lag) := by
    rw [h.token, Token.later]
  simp only [Series.conclude, Conclusion.later, helapsed, h.lastError?, htrace, hdue]
  rfl

/-- Within any fuel neither series ends, or both do, in the same round and in
the same way. -/
theorem run?_cases (h : r.Repeats lag s) (fuel : Nat) :
    r.run? fuel = none ∧ s.run? fuel = none ∨
      ∃ k c, s.Reaches k ∧ s.Exit k c ∧ s.run? fuel = some (s.conclude c) ∧
        r.run? fuel = some (r.conclude (c.later lag)) := by
  rcases s.after_cases fuel with ⟨hreach, hafter⟩ | ⟨k, c, hk, hreach, hexit, hafter⟩
  · exact Or.inl ⟨run?_of_goOn (after_of_reaches (h.reaches hreach)), run?_of_goOn hafter⟩
  · refine Or.inr ⟨k, c, hreach, hexit, run?_of_stop hafter, ?_⟩
    rw [run?_of_exit (h.reaches hreach) (h.exit hexit), if_pos hk]

end Repeats

/-! ## The state of the operation -/

/-- On the same clock the same runner makes the same of the same attempts. -/
theorem repeats_of_made {β σ τ : Type} [Backoff β] (runner : Runner β) (scene : Scene)
    {operation : Operation σ Unit} {state : σ} {operation' : Operation τ Unit} {state' : τ}
    (hmade : ∀ k, operation'.attemptAt state' k = operation.attemptAt state k) :
    Repeats 0 (Series.mk runner scene operation' state') ⟨runner, scene, operation, state⟩ := by
  refine .of_bisimulation (.eq β) ⟨rfl, rfl, rfl, ?_, rfl, hmade⟩ (fun _ => rfl) rfl
  exact scene.token.later_zero.symm

end Series

theorem Operation.stateAfter_map {σ τ α β : Type} {operation : Operation σ α}
    {operation' : Operation τ β} (f : σ → τ)
    (hstep : ∀ state, (operation' (f state)).2 = f (operation state).2) (state : σ) (k : Nat) :
    operation'.stateAfter (f state) k = f (operation.stateAfter state k) := by
  induction k with
  | zero => rfl
  | succ k ih => rw [stateAfter, ih, hstep, stateAfter]

/-- The same run with another state of the operation. -/
def Run.mapState {σ τ ρ : Type} (f : σ → τ) (run : Run σ ρ) : Run τ ρ :=
  { run with state := f run.state }

/-- An operation whose steps go along with those of another has its runs. -/
theorem Runner.run?_mapState {β σ τ : Type} [Backoff β] (r : Runner β) (fuel : Nat)
    (scene : Scene) {operation : Operation σ Unit} {operation' : Operation τ Unit} (f : σ → τ)
    (hstep : ∀ state, operation' (f state) = ((operation state).1, f (operation state).2))
    (state : σ) :
    r.run? fuel scene operation' (f state) =
      (r.run? fuel scene operation state).map (·.mapState f) := by
  have hstate : ∀ k, operation'.stateAfter (f state) k = f (operation.stateAfter state k) :=
    Operation.stateAfter_map f (fun state => by rw [hstep]) state
  have hmade : ∀ k, operation'.attemptAt (f state) k = operation.attemptAt state k := by
    intro k
    rw [Operation.attemptAt, hstate, hstep, Operation.attemptAt]
  have hrepeats := Series.repeats_of_made r scene hmade
  rcases hrepeats.run?_cases fuel with ⟨hnone', hnone⟩ | ⟨k, c, _, _, hrun, hrun'⟩
  · exact hnone'.trans (congrArg (Option.map _) hnone).symm
  · refine hrun'.trans (Eq.trans ?_ (congrArg (Option.map _) hrun).symm)
    rw [hrepeats.conclude, Option.map_some, Trace.later_zero, Token.later_zero]
    simp only [hstate]
    rfl

end Recourse
