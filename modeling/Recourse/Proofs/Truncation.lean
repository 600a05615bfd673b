import Recourse.Proofs.Cancellation
import Recourse.Proofs.Capped

/-!
# Limits only cut a series short

A time budget, a cap on the attempts and a token that is fired can end a series
early.  Up to there it is the series that it would have been without them.  This
compares two runs, the limited one and the free one.

* `Series.Follows` is the simulation.  One series follows another if the two
  agree on every round for as long as the backoff of the first grants waits.
  The second has a token that is left alone.
* `follows_free` and `Follows.capped` show that a limited series follows the
  free one: the first for the budget and the token, the second for the cap.
* `Follows.reaches` is the induction.  What one can observe of the two runs is
  compared by `Follows.truncates`, exit by exit.

Jitter is left out, because a limited series draws from its own source.
-/

namespace Recourse

/-! ## Prefixes -/

theorem map_range_prefix {α : Type} {f g : Nat → α} {m n : Nat} (hle : m ≤ n)
    (hsame : ∀ i < m, f i = g i) : (List.range m).map f <+: (List.range n).map g := by
  have hfront : (List.range m).map f = (List.range m).map g := by
    apply List.map_congr_left
    intro i hi
    exact hsame i (List.mem_range.1 hi)
  have htake : List.range m = (List.range n).take m := by
    rw [List.take_range, Nat.min_eq_left hle]
  rw [hfront, htake]
  exact (List.take_prefix m _).map g

theorem flatMap_range_prefix {α : Type} {f g : Nat → List α} {m n : Nat} (hle : m ≤ n)
    (hsame : ∀ i < m, f i = g i) : (List.range m).flatMap f <+: (List.range n).flatMap g := by
  obtain ⟨later, hlater⟩ := map_range_prefix hle hsame
  rw [List.flatMap_def, List.flatMap_def, ← hlater, List.flatten_append]
  exact List.prefix_append _ _

/-! ## Without limits -/

/-- No wait is spread: the jitter is zero or less. -/
def Policy.Steady (p : Policy) : Prop := p.jitter.atMost (.ofNat 0) = true

instance (p : Policy) : Decidable p.Steady := inferInstanceAs (Decidable (_ = _))

/-- The budget has no part in how intervals grow. -/
theorem Policy.grow_withoutBudget (p : Policy) (current : Span) :
    p.grow current = { p with budget := none : Policy }.grow current := rfl

theorem Exponential.wait_of_steady {b : Exponential} (hsteady : b.policy.Steady) (draw : Draw) :
    b.wait draw = b.current := if_pos hsteady

namespace Operation

variable {σ : Type}

/-- The same attempts, except that none of them fires the token. -/
def calm (operation : Operation σ Unit) : Operation σ Unit := fun state =>
  let (attempt, state) := operation state
  ({ attempt with cancels := false }, state)

theorem stateAfter_calm (operation : Operation σ Unit) (state : σ) (k : Nat) :
    operation.calm.stateAfter state k = operation.stateAfter state k := by
  induction k with
  | zero => rfl
  | succ k ih =>
    rw [stateAfter, ih]
    rfl

theorem attemptAt_calm (operation : Operation σ Unit) (state : σ) (k : Nat) :
    operation.calm.attemptAt state k =
      { operation.attemptAt state k with cancels := false } := by
  rw [attemptAt, stateAfter_calm]
  rfl

end Operation

namespace Series

section Free

variable {σ : Type}

/-- The series without a budget and without a cancellation, with draws of its
own. -/
def free (s : Series Exponential σ) (draws : Nat → Draw) : Series Exponential σ where
  runner :=
    { backoff := { s.runner.backoff with policy.budget := none }
      observer := s.runner.observer.map fun observer => { observer with cancels := false } }
  scene := { s.scene with token := .idle, draws }
  operation := s.operation.calm
  state := s.state

theorem made_free (s : Series Exponential σ) (draws : Nat → Draw) (k : Nat) :
    (s.free draws).made k = { s.made k with cancels := false } :=
  s.operation.attemptAt_calm s.state k

theorem outcome_free (s : Series Exponential σ) (draws : Nat → Draw) (k : Nat) :
    (s.free draws).outcome k = s.outcome k := by
  rw [outcome, made_free, outcome]

theorem uncancelled_free (s : Series Exponential σ) (draws : Nat → Draw) :
    (s.free draws).Uncancelled := by
  refine ⟨rfl, ?_, ?_⟩
  · intro i
    rw [made_free]
  · rw [observerCancels, free]
    cases s.runner.observer <;> rfl

theorem returns_free {s : Series Exponential σ} {draws : Nat → Draw} {k : Nat}
    (hbegins : s.begins k = (s.free draws).begins k) :
    s.returns k = (s.free draws).returns k := by
  rw [returns, returns, made_free, hbegins]
  rfl

end Free

/-! ## One series after another -/

section Comparison

variable {β γ σ : Type} [Backoff β] [Backoff γ]

/-- As long as the first series is granted waits, they are the waits of the
second, so its rounds begin and return when those of the second do.  The token
of the second is left alone. -/
structure Follows (r : Series γ σ) (s : Series β σ) : Prop where
  clock : r.scene.clock = s.scene.clock
  outcome : ∀ k, r.outcome k = s.outcome k
  tag : r.runner.observer.map (·.tag) = s.runner.observer.map (·.tag)
  begins : ∀ k, r.GrantsBefore k → r.begins k = s.begins k
  returns : ∀ k, r.GrantsBefore k → r.returns k = s.returns k
  grant : ∀ k delay, r.GrantsBefore k → r.grant k = some delay → s.grant k = some delay
  calm : s.Uncancelled

variable {r : Series γ σ} {s : Series β σ}

theorem Follows.lastError? (h : r.Follows s) (n : Nat) : r.lastError? n = s.lastError? n :=
  lastError?_congr h.outcome n

theorem Follows.retried (h : r.Follows s) {k : Nat} (hgrants : r.GrantsBefore k)
    {fault : Fault} {delay : Span} (hfail : r.outcome k = .error (.transient fault))
    (hgrant : r.grant k = some delay) : s.Retried k := by
  apply retried_of_quiet
  · exact ending?_eq_none.2
      ⟨⟨fault, (h.outcome k).symm.trans hfail⟩, delay, h.grant k delay hgrants hgrant⟩
  · exact h.calm.not_firedBefore (k + 1)

/-- The second series comes to every round that the first comes to. -/
theorem Follows.reaches (h : r.Follows s) {k : Nat} (hreach : r.Reaches k) : s.Reaches k := by
  intro i hi
  obtain ⟨fault, hfail⟩ := (hreach i hi).failed
  obtain ⟨delay, hgrant⟩ := (hreach i hi).granted
  exact h.retried (hreach.of_le (Nat.le_of_lt hi)).grantsBefore hfail hgrant

/-- It also goes through a round in whose wait the first is cut short. -/
theorem Follows.reaches_rounds (h : r.Follows s) {k : Nat} {c : Conclusion}
    (hreach : r.Reaches k) (hexit : r.Exit k c) : s.Reaches c.rounds := by
  cases hexit with
  | cut _ fault hfail _ delay hgrant _ _ _ =>
    exact (h.reaches hreach).succ (h.retried hreach.grantsBefore hfail hgrant)
  | _ => exact h.reaches hreach

theorem Follows.told (h : r.Follows s) {k : Nat} (hgrants : r.GrantsBefore (k + 1)) :
    r.told k = s.told k := by
  have hbefore : r.GrantsBefore k := fun i hi => hgrants i (Nat.lt_succ_of_lt hi)
  obtain ⟨delay, hgrant⟩ := Option.ne_none_iff_exists'.1 (hgrants k (Nat.lt_succ_self k))
  have hnotices : ∀ error, r.notices k error delay = s.notices k error delay := by
    intro error
    have htags : r.runner.observer.toList.map (·.tag) = s.runner.observer.toList.map (·.tag) := by
      rw [← Option.toList_map, ← Option.toList_map, h.tag]
    have hmaps := congrArg
      (List.map fun tag => Notification.mk tag error delay ((s.returns k).since s.scene.clock))
      htags
    rw [List.map_map, List.map_map] at hmaps
    rw [notices, notices, h.returns k hbefore, h.clock]
    exact hmaps
  rw [Series.told, Series.told, h.outcome, hgrant, h.grant k delay hbefore hgrant]
  cases s.outcome k with
  | ok => rfl
  | error failure => exact hnotices failure.report

/-! ## Two runs -/

theorem Ends.run?_eq {run : Run σ (Outcome Unit)} (hends : s.Ends run) {fuel : Nat}
    (hfuel : (s.run? fuel).isSome = true) : s.run? fuel = some run := by
  obtain ⟨n, hends⟩ := hends
  obtain ⟨run', hrun⟩ := Option.isSome_iff_exists.1 hfuel
  have hmore : s.run? (fuel + n) = some run' := s.runner.drive_add s.scene s.operation hrun n
  rw [hrun, ← hmore, hends _ (Nat.le_add_left n fuel)]

theorem Reaches.le_of_exit {j k : Nat} {c : Conclusion} (hreach : s.Reaches j)
    (hexit : s.Exit k c) : j ≤ k :=
  Nat.le_of_not_lt fun hlt => hexit.not_retried (hreach k hlt)

/-- A series whose token is left alone ends if some attempt does not fail
transiently, and it ends in the round of an attempt. -/
theorem exit_of_settled (hcalm : s.Uncancelled) {m : Nat}
    (hsettled : s.failsTransiently m = false) :
    ∃ k c, s.Reaches k ∧ s.Exit k c ∧ c.made = k + 1 ∧ c.rounds = k := by
  rcases s.after_cases (m + 1) with ⟨hreach, _⟩ | ⟨k, c, _, hreach, hexit, _⟩
  · have hfail := failsTransiently_iff.2 (hreach m (Nat.lt_succ_self m)).failed
    exact absurd (hfail.symm.trans hsettled) (by decide)
  · cases hending : s.ending? k with
    | none => exact absurd (retried_of_quiet hending (hcalm.not_firedBefore _)) hexit.not_retried
    | some ending =>
      obtain ⟨c, hexit, _, hmade, hrounds, _⟩ := exit_of_ending hending (hcalm.quietThrough k)
      exact ⟨k, c, hreach, hexit, hmade, hrounds⟩

end Comparison

end Series

/-- One run is the beginning of another, as far as one can see from outside, and
has the same answer if an attempt decided it. -/
structure Truncates {σ : Type} (run full : Run σ (Outcome Unit)) : Prop where
  beginnings : run.trace.beginnings <+: full.trace.beginnings
  notifications : run.trace.notifications <+: full.trace.notifications
  settled : run.answer.ending = .succeeded ∨ run.answer.ending = .permanentlyFailed →
    run.answer = full.answer

namespace Series

section Comparison

variable {β γ σ : Type} [Backoff β] [Backoff γ] {r : Series γ σ} {s : Series β σ}

/-- The answer of an exit that an attempt decides is the answer of the second
series too. -/
theorem Follows.answer_eq (h : r.Follows s) {j k : Nat} {d c : Conclusion}
    (hreach : r.Reaches j) (hexit : r.Exit j d) (hfull : s.Reaches k) (hends : s.Exit k c)
    (hending : d.ending = .succeeded ∨ d.ending = .permanentlyFailed) :
    (r.conclude d).answer = (s.conclude c).answer := by
  have hopen : s.firedBefore j = false := firedBefore_of_quiet (h.calm.not_firedBefore j)
  have hreturns := h.returns j hreach.grantsBefore
  -- An exit of the second series in the same round is the exit that it takes.
  have hsame : ∀ e, s.Exit j e → e = c := by
    intro e hexit
    have hround : j = k :=
      Nat.le_antisymm ((h.reaches hreach).le_of_exit hends) (hfull.le_of_exit hexit)
    subst hround
    exact hexit.unique hends
  cases hexit with
  | succeeded _ hok =>
    rw [← hsame _ (.succeeded hopen ((h.outcome j).symm.trans hok))]
    simp only [conclude, hreturns, h.clock, h.lastError?]
  | failed _ fault hfail =>
    rw [← hsame _ (.failed hopen fault ((h.outcome j).symm.trans hfail))]
    simp only [conclude, hreturns, h.clock, h.lastError?]
  | _ => rcases hending with hending | hending <;> cases hending

theorem Follows.truncates (h : r.Follows s) {j k : Nat} {d c : Conclusion}
    (hreach : r.Reaches j) (hexit : r.Exit j d) (hfull : s.Reaches k) (hends : s.Exit k c)
    (hmade : c.made = k + 1) (hrounds : c.rounds = k) :
    Truncates (r.conclude d) (s.conclude c) := by
  have hle : j ≤ k := (h.reaches hreach).le_of_exit hends
  constructor
  case beginnings =>
    rw [hexit.beginnings hreach, hends.beginnings hfull, hmade]
    have hlast : d.made ≤ j + 1 := by
      rcases hexit.made_eq with ⟨heq, _⟩ | ⟨heq, _⟩ <;> omega
    apply map_range_prefix (by omega)
    intro i hi
    exact h.begins i (hreach.of_le (by omega)).grantsBefore
  case notifications =>
    rw [hexit.notifications, hends.notifications]
    have hthrough := h.reaches_rounds hreach hexit
    apply flatMap_range_prefix
    · rw [hrounds]
      exact hthrough.le_of_exit hends
    · intro i hi
      apply h.told
      intro l hl
      exact hexit.grantsBefore hreach l (by omega)
  case settled => exact h.answer_eq hreach hexit hfull hends

/-- A series that follows another ends if the other does, and its run is the
beginning of the run of the other. -/
theorem Follows.ends (h : r.Follows s) {k : Nat} {c : Conclusion} (hfull : s.Reaches k)
    (hends : s.Exit k c) (hmade : c.made = k + 1) (hrounds : c.rounds = k) :
    ∃ run, r.Ends run ∧ Truncates run (s.conclude c) := by
  rcases r.after_cases (k + 1) with ⟨hreach, _⟩ | ⟨j, d, _, hreach, hexit, _⟩
  · exact absurd ((h.reaches hreach).le_of_exit hends) (Nat.not_succ_le_self k)
  · exact ⟨_, hexit.ends hreach, h.truncates hreach hexit hfull hends hmade hrounds⟩

end Comparison

/-! ## Budget, token and cap -/

section Limits

variable {σ : Type}

theorem delayAt_of_steady {s : Series Exponential σ} (hsteady : s.runner.backoff.policy.Steady)
    (k : Nat) : s.delayAt k = (s.backoffAt k).current := by
  apply Exponential.wait_of_steady
  rw [policy_backoffAt]
  exact hsteady

theorem eq_delayAt_of_grant {s : Series Exponential σ} {k : Nat} {delay : Span}
    (hgrant : s.grant k = some delay) : delay = s.delayAt k := by
  rw [grant_eq] at hgrant
  split at hgrant
  · exact (Option.some.inj hgrant).symm
  · cases hgrant

/-- As long as the budget affords the waits, the rounds of a series begin when
they would begin without any limit, and they have come to the same interval. -/
theorem paces_free {s : Series Exponential σ} (hsteady : s.runner.backoff.policy.Steady)
    (draws : Nat → Draw) {k : Nat} (hgrants : s.GrantsBefore k) :
    s.begins k = (s.free draws).begins k ∧
      (s.backoffAt k).current = ((s.free draws).backoffAt k).current := by
  have hfree : (s.free draws).runner.backoff.policy.Steady := hsteady
  induction k with
  | zero => exact ⟨rfl, rfl⟩
  | succ k ih =>
    obtain ⟨hbegins, hcurrent⟩ := ih fun i hi => hgrants i (Nat.lt_succ_of_lt hi)
    obtain ⟨delay, hgrant⟩ := Option.ne_none_iff_exists'.1 (hgrants k (Nat.lt_succ_self k))
    constructor
    · have hdelay : delay = (s.free draws).delayAt k := by
        rw [eq_delayAt_of_grant hgrant, delayAt_of_steady hsteady, delayAt_of_steady hfree,
          hcurrent]
      rw [begins_succ hgrant, begins_succ (grant_of_unlimited rfl k), returns_free hbegins,
        hdelay]
      rfl
    · rw [current_backoffAt_succ, current_backoffAt_succ, hcurrent]
      exact Policy.grow_withoutBudget _ _

/-- A budget only refuses waits. -/
theorem grant_free {s : Series Exponential σ} (hsteady : s.runner.backoff.policy.Steady)
    (draws : Nat → Draw) {k : Nat} {delay : Span} (hgrants : s.GrantsBefore k)
    (hgrant : s.grant k = some delay) : (s.free draws).grant k = some delay := by
  have hfree : (s.free draws).runner.backoff.policy.Steady := hsteady
  rw [grant_of_unlimited rfl, eq_delayAt_of_grant hgrant, delayAt_of_steady hsteady,
    delayAt_of_steady hfree, (paces_free hsteady draws hgrants).2]

theorem follows_free {s : Series Exponential σ} (hsteady : s.runner.backoff.policy.Steady)
    (draws : Nat → Draw) : s.Follows (s.free draws) := by
  constructor
  case clock => rfl
  case outcome =>
    intro k
    exact (s.outcome_free draws k).symm
  case tag =>
    rw [free, Option.map_map]
    rfl
  case begins =>
    intro k hgrants
    exact (paces_free hsteady draws hgrants).1
  case returns =>
    intro k hgrants
    exact returns_free (paces_free hsteady draws hgrants).1
  case grant =>
    intro k delay hgrants hgrant
    exact grant_free hsteady draws hgrants hgrant
  case calm => exact s.uncancelled_free draws

/-- A cap only refuses waits, so whatever a series follows without its cap it
follows with the cap. -/
theorem Follows.capped {β γ : Type} [Backoff β] [Backoff γ] {r : Series (Capped γ) σ}
    {s : Series β σ} (h : r.uncapped.Follows s) : r.Follows s := by
  have hopen : ∀ {k}, r.GrantsBefore k → r.uncapped.GrantsBefore k := by
    intro k hgrants i hi
    have hgrant := hgrants i hi
    rw [grant_capped] at hgrant
    split at hgrant
    · exact hgrant
    · exact absurd rfl hgrant
  constructor
  case clock => exact h.clock
  case outcome => exact h.outcome
  case tag => exact h.tag
  case begins =>
    intro k hgrants
    rw [(follows_uncapped (hgrants.lt_cap)).1, h.begins k (hopen hgrants)]
  case returns =>
    intro k hgrants
    rw [← h.returns k (hopen hgrants)]
    exact congrArg ((r.made k).ends r.scene.runtime) (follows_uncapped (hgrants.lt_cap)).1
  case grant =>
    intro k delay hgrants hgrant
    rw [grant_capped] at hgrant
    split at hgrant
    · exact h.grant k delay (hopen hgrants) hgrant
    · cases hgrant
  case calm => exact h.calm

end Limits

/-! ## Every combination of limits -/

/-- A series whose waits are not spread, with an attempt in it that does not
fail transiently.  Without limits it ends.  Under any budget and any token, and
under any cap besides, it ends too, and its run is the beginning of the run
without limits. -/
theorem limits_only_truncate {σ : Type} (s : Series Exponential σ) (draws : Nat → Draw)
    (hsteady : s.runner.backoff.policy.Steady) (hsettled : ∃ m, s.failsTransiently m = false) :
    ∃ full, (s.free draws).Ends full ∧
      (∃ run, s.Ends run ∧ Truncates run full) ∧
      ∀ cap capped, s.runner.capped cap = .ok capped →
        ∃ run, (s.withRunner capped).Ends run ∧ Truncates run full := by
  obtain ⟨m, hm⟩ := hsettled
  have hfree : (s.free draws).failsTransiently m = false := by
    rw [← hm, failsTransiently, failsTransiently, outcome_free]
  obtain ⟨k, c, hreach, hexit, hmade, hrounds⟩ :=
    exit_of_settled (s.uncancelled_free draws) hfree
  have hfollows := follows_free hsteady draws
  refine ⟨_, hexit.ends hreach, hfollows.ends hreach hexit hmade hrounds, ?_⟩
  intro cap capped hcapped
  have hinner : (s.withRunner capped).uncapped.Follows (s.free draws) := by
    rw [uncapped_withRunner hcapped]
    exact hfollows
  exact hinner.capped.ends hreach hexit hmade hrounds

/-- Three lost connections and then a success, with waits of one, two and four
milliseconds between them, of which the budget affords the first two.  The
timer of the token is due as the second wait ends. -/
def doubling : Series Exponential Nat :=
  playing
    (.start
      { initial := .ofMillis 1, ceiling := .ofMillis 8, budget := some (.ofMillis 4)
        multiplier := .ofNat 2, jitter := .ofNat 0 }
      .start)
    ⟨false, some ⟨3000000⟩⟩ ⟨.lost, [.lost, .lost, ⟨[], false, .ok ()⟩]⟩

/-- The runner of that series with a cap of one. -/
def doublingOnce : Runner (Capped Exponential) :=
  ⟨.start doubling.runner.backoff 1 (by decide), none⟩

/-- Without limits there are four attempts; two of them are left with the token,
and one with the cap. -/
theorem doubling_truncated :
    ∃ full, (doubling.free fun _ => .least).run? 4 = some full ∧
      full.trace.beginnings.length = 4 ∧
      (∃ run, doubling.run? 3 = some run ∧ run.trace.beginnings.length = 2 ∧
        Truncates run full) ∧
      ∃ run, (doubling.withRunner doublingOnce).run? 1 = some run ∧
        run.trace.beginnings.length = 1 ∧ Truncates run full := by
  obtain ⟨full, hfull, ⟨run, hrun, htruncates⟩, hcaps⟩ :=
    limits_only_truncate doubling (fun _ => .least) (by decide +kernel) ⟨3, by decide +kernel⟩
  obtain ⟨once, honce, hcapped⟩ := hcaps 1 doublingOnce rfl
  have hfour : (doubling.free fun _ => .least).run? 4 = some full :=
    hfull.run?_eq (by decide +kernel)
  have htwo : doubling.run? 3 = some run := hrun.run?_eq (by decide +kernel)
  have hone : (doubling.withRunner doublingOnce).run? 1 = some once :=
    honce.run?_eq (by decide +kernel)
  refine ⟨full, hfour, ?_, ⟨run, htwo, ?_, htruncates⟩, once, hone, ?_, hcapped⟩
  · have hlength : ((doubling.free fun _ => .least).run? 4).map (·.trace.beginnings.length) =
        some 4 := by decide +kernel
    rw [hfour] at hlength
    exact Option.some.inj hlength
  · have hlength : (doubling.run? 3).map (·.trace.beginnings.length) = some 2 := by
      decide +kernel
    rw [htwo] at hlength
    exact Option.some.inj hlength
  · have hlength : ((doubling.withRunner doublingOnce).run? 1).map
        (·.trace.beginnings.length) = some 1 := by decide +kernel
    rw [hone] at hlength
    exact Option.some.inj hlength

end Series

end Recourse
