import Recourse.Proofs.Repetition
import Recourse.Proofs.Truncation

/-!
# Backoffs that are used again

A series resets its backoff before it begins, so that nothing of an earlier use
is left.  This takes two facts about backoffs, each proved for exponential
backoffs and then for a cap around any backoff that has it, and so for any
number of caps.

* `Renewable`: neither a question nor a reset matters to a later reset.
  `reset_handled` and `Worn.reset_eq` carry this through everything that can be
  done to a backoff, by itself or in a series.
* `Bisimulation`: backoffs that were built so much later answer alike on a clock
  that is ahead by as much.  `Bisimulation.replies` is the induction over the
  questions that are asked.

`Built` lists the backoffs that are meant, and a `Renewal` is what both facts
come to for one of them.
-/

namespace Recourse

/-! ## Handling a backoff -/

/-- Something that is done with a backoff in the course of time. -/
inductive Handling where
  /-- So many nanoseconds pass. -/
  | pass (nanos : Nat)
  /-- It is asked for a wait. -/
  | ask
  /-- It is asked for its error. -/
  | blame
  | reset

namespace Backoff

variable {β : Type} [Backoff β]

/-- What becomes of a backoff that is held from `now` on.  Each question for a
wait takes the next draw. -/
def handled : List Handling → β → Instant → (Nat → Draw) → β
  | [], b, _, _ => b
  | .pass nanos :: later, b, now, draws => handled later b (now.later nanos) draws
  | .ask :: later, b, now, draws =>
    handled later (Backoff.next b now (draws 0)).2 now (draws ∘ Nat.succ)
  | .blame :: later, b, now, draws => handled later b now draws
  | .reset :: later, b, now, draws => handled later (Backoff.reset b now) now draws

/-- What it answers: a wait or none to the one question, an error to the
other. -/
def replies : List Handling → β → Instant → (Nat → Draw) → List (CodedError ⊕ Option Span)
  | [], _, _, _ => []
  | .pass nanos :: later, b, now, draws => replies later b (now.later nanos) draws
  | .ask :: later, b, now, draws =>
    .inr (Backoff.next b now (draws 0)).1 ::
      replies later (Backoff.next b now (draws 0)).2 now (draws ∘ Nat.succ)
  | .blame :: later, b, now, draws =>
    .inl (Backoff.exhausted b) :: replies later b now draws
  | .reset :: later, b, now, draws => replies later (Backoff.reset b now) now draws

end Backoff

/-! ## What a reset undoes -/

/-- A reset undoes every question and every reset before it. -/
structure Renewable (β : Type) [Backoff β] : Prop where
  reset_next : ∀ (b : β) now draw later,
    Backoff.reset (Backoff.next b now draw).2 later = Backoff.reset b later
  reset_reset : ∀ (b : β) now later,
    Backoff.reset (Backoff.reset b now) later = Backoff.reset b later

theorem Exponential.renewable : Renewable Exponential := by
  constructor
  case reset_next =>
    intro b now draw later
    rw [next_snd]
    show Exponential.start b.policy later = Exponential.start b.policy later
    rfl
  case reset_reset =>
    intro b now later
    rfl

theorem Renewable.capped {β : Type} [Backoff β] (h : Renewable β) : Renewable (Capped β) := by
  constructor
  case reset_next =>
    intro b now draw later
    rw [Capped.next_eq]
    split
    · rfl
    · show ({ b with failures := 0, inner := Backoff.reset _ later } : Capped β) = _
      rw [h.reset_next]
      rfl
  case reset_reset =>
    intro b now later
    show ({ b with
      failures := 0, inner := Backoff.reset (Backoff.reset b.inner now) later } : Capped β) = _
    rw [h.reset_reset]
    rfl

/-- What earlier series have made of a backoff, each starting from what the one
before has left. -/
inductive Worn {β : Type} [Backoff β] (b : β) : β → Prop where
  | unused : Worn b b
  | series {σ : Type} (s : Series β σ) (hworn : Worn b s.runner.backoff) (k : Nat) :
      Worn b (s.backoffAt k)

section Reset

variable {β : Type} [Backoff β]

theorem reset_handled (h : Renewable β) (history : List Handling) (b : β) (now : Instant)
    (draws : Nat → Draw) (later : Instant) :
    Backoff.reset (Backoff.handled history b now draws) later = Backoff.reset b later := by
  induction history generalizing b now draws with
  | nil => rfl
  | cons handling history ih =>
    cases handling with
    | pass nanos => exact ih b (now.later nanos) draws
    | ask => exact (ih _ now (draws ∘ Nat.succ)).trans (h.reset_next b now (draws 0) later)
    | blame => exact ih b now draws
    | reset => exact (ih _ now draws).trans (h.reset_reset b now later)

theorem reset_backoffAt (h : Renewable β) {σ : Type} (s : Series β σ) (k : Nat)
    (later : Instant) :
    Backoff.reset (s.backoffAt k) later = Backoff.reset s.runner.backoff later := by
  induction k with
  | zero => exact h.reset_reset _ _ _
  | succ k ih =>
    rw [Series.backoffAt_succ, Series.answer, h.reset_next]
    exact ih

theorem Worn.reset_eq (h : Renewable β) {b used : β} (hworn : Worn b used) (later : Instant) :
    Backoff.reset used later = Backoff.reset b later := by
  induction hworn with
  | unused => rfl
  | series s _ k ih => exact (reset_backoffAt h s k later).trans ih

end Reset

/-! ## Backoffs built later -/

/-- Related backoffs give the same replies for ever. -/
theorem Bisimulation.replies {β : Type} [Backoff β] {lag : Nat}
    {drawn : Draw → Draw → Prop} {related : β → β → Prop}
    (h : Bisimulation lag drawn related) (handlings : List Handling) {b c : β}
    (hrelated : related b c) (now : Instant) {draws draws' : Nat → Draw}
    (hdrawn : ∀ n, drawn (draws n) (draws' n)) :
    Backoff.replies handlings b (now.later lag) draws =
      Backoff.replies handlings c now draws' := by
  induction handlings generalizing b c now draws draws' with
  | nil => rfl
  | cons handling handlings ih =>
    cases handling with
    | pass nanos =>
      have hclock : (now.later lag).later nanos = (now.later nanos).later lag :=
        Instant.ext_nanos (Nat.add_right_comm _ _ _)
      simp only [Backoff.replies, hclock]
      exact ih hrelated _ hdrawn
    | ask =>
      simp only [Backoff.replies, h.answers hrelated now (hdrawn 0)]
      exact congrArg (List.cons _) (ih (h.next hrelated now (hdrawn 0)) now fun n => hdrawn (n + 1))
    | blame =>
      simp only [Backoff.replies, h.exhausted hrelated]
      exact congrArg (List.cons _) (ih hrelated now hdrawn)
    | reset => exact ih (h.reset hrelated now) now hdrawn

/-- Without jitter the time since the series began is all that counts, and
draws do not. -/
theorem Exponential.bisimulation (policy : Policy) (hsteady : policy.Steady) (lag : Nat) :
    Bisimulation lag (fun _ _ => True) fun b c : Exponential =>
      b.policy = policy ∧ c.policy = policy ∧ b.current = c.current ∧
        b.started = c.started.later lag := by
  constructor
  case answers =>
    rintro b c ⟨hb, hc, hcurrent, hstarted⟩ now draw draw' _
    rw [next_fst, next_fst, wait_of_steady (hb ▸ hsteady), wait_of_steady (hc ▸ hsteady), hb, hc,
      hcurrent, hstarted, Instant.since_later]
  case next =>
    rintro b c ⟨hb, hc, hcurrent, hstarted⟩ now draw draw' _
    rw [next_snd, next_snd]
    refine ⟨hb, hc, ?_, hstarted⟩
    simp only [hb, hc, hcurrent]
  case reset =>
    rintro b c ⟨hb, hc, _, _⟩ now
    refine ⟨hb, hc, ?_, rfl⟩
    show b.policy.initial = c.policy.initial
    rw [hb, hc]
  case exhausted =>
    intro b c _
    rfl

/-- A cap counts alike in front of backoffs that answer alike. -/
theorem Bisimulation.capped {β : Type} [Backoff β] {lag : Nat}
    {drawn : Draw → Draw → Prop} {related : β → β → Prop}
    (h : Bisimulation lag drawn related) :
    Bisimulation lag drawn fun b c : Capped β =>
      ∃ inner, related inner c.inner ∧ b = { c with inner } := by
  constructor
  case answers =>
    rintro _ c ⟨inner, hinner, rfl⟩ now draw draw' hdrawn
    rw [Capped.next_eq, Capped.next_eq]
    by_cases hspent : c.cap.toNat ≤ (Capped.count c.failures).toNat
    · rw [if_pos hspent, if_pos hspent]
    · rw [if_neg hspent, if_neg hspent]
      exact h.answers hinner now hdrawn
  case next =>
    rintro _ c ⟨inner, hinner, rfl⟩ now draw draw' hdrawn
    rw [Capped.next_eq, Capped.next_eq]
    by_cases hspent : c.cap.toNat ≤ (Capped.count c.failures).toNat
    · rw [if_pos hspent, if_pos hspent]
      exact ⟨inner, hinner, rfl⟩
    · rw [if_neg hspent, if_neg hspent]
      exact ⟨_, h.next hinner now hdrawn, rfl⟩
  case reset =>
    rintro _ c ⟨inner, hinner, rfl⟩ now
    exact ⟨_, h.reset hinner now, rfl⟩
  case exhausted =>
    rintro _ c ⟨inner, hinner, rfl⟩
    show (if c.isSpent then c.blame else Backoff.exhausted inner) = _
    rw [h.exhausted hinner]
    rfl

/-! ## Backoffs that are built -/

/-- The backoffs that an exponential backoff without jitter and any number of
caps around it make up, as functions of the instant at which they are built. -/
inductive Built : (β : Type) → [Backoff β] → (Instant → β) → Prop where
  | exponential (policy : Policy) (hsteady : policy.Steady) :
      Built Exponential (.start policy)
  | capped {β : Type} [Backoff β] {build : Instant → β} (hinner : Built β build) (cap : UInt32)
      (cap_pos : 0 < cap) (blame : CodedError) :
      Built (Capped β) fun now => (Capped.start (build now) cap cap_pos).withBlame blame

namespace Built

variable {β : Type} [Backoff β] {build : Instant → β}

theorem renewable (h : Built β build) : Renewable β := by
  induction h with
  | exponential => exact Exponential.renewable
  | capped _ _ _ _ ih => exact ih.capped

/-- A backoff that is reset is the one that would be built then. -/
theorem reset_build (h : Built β build) (now later : Instant) :
    Backoff.reset (build now) later = build later := by
  induction h with
  | exponential => rfl
  | @capped _ _ build _ cap cap_pos blame ih =>
    show (Capped.start (Backoff.reset (build now) later) cap cap_pos).withBlame blame = _
    rw [ih]

/-- Backoffs that are built at different times answer alike, each in its own
time. -/
theorem bisimulation (h : Built β build) (lag : Nat) :
    ∃ related, Bisimulation lag (fun _ _ => True) related ∧
      ∀ now, related (build (now.later lag)) (build now) := by
  induction h with
  | exponential policy hsteady =>
    exact ⟨_, Exponential.bisimulation policy hsteady lag, fun _ => ⟨rfl, rfl, rfl, rfl⟩⟩
  | capped _ _ _ _ ih =>
    obtain ⟨related, hsim, hbuilt⟩ := ih
    exact ⟨_, hsim.capped, fun now => ⟨_, hbuilt now, rfl⟩⟩

end Built

/-! ## Runs that begin later -/

/-- One run is the other, only later. -/
structure Postponed {σ : Type} (lag : Nat) (late first : Run σ (Outcome Unit)) : Prop where
  /-- The same result, ending, number of attempts, time taken and last error. -/
  answer : late.answer = first.answer
  notifications : late.trace.notifications = first.trace.notifications
  log : late.trace.log = first.trace.log
  beginnings : late.trace.beginnings = first.trace.beginnings.map (·.later lag)
  clock : late.clock = first.clock.later lag
  token : late.token = first.token.later lag
  state : late.state = first.state

theorem Series.Repeats.postponed {β γ σ : Type} [Backoff β] [Backoff γ] {lag : Nat}
    {r : Series γ σ} {s : Series β σ} (h : r.Repeats lag s) (hoperation : r.operation = s.operation)
    (hstate : r.state = s.state) (fuel : Nat) :
    r.run? fuel = none ∧ s.run? fuel = none ∨
      ∃ late first, r.run? fuel = some late ∧ s.run? fuel = some first ∧
        Postponed lag late first := by
  rcases h.run?_cases fuel with hnone | ⟨k, c, _, _, hfirst, hlate⟩
  · exact Or.inl hnone
  · refine Or.inr ⟨_, _, hlate, hfirst, ?_⟩
    rw [h.conclude]
    constructor
    case notifications => exact Trace.notifications_later _ lag
    case log => exact Trace.log_later _ lag
    case beginnings => exact Trace.beginnings_later _ lag
    case state =>
      rw [hoperation, hstate]
      rfl
    all_goals rfl

/-- What is left of the past of a backoff once it is reset: nothing. -/
structure Renewal {β : Type} [Backoff β] (build : Instant → β) (b : β) : Prop where
  /-- Reset at any instant, it answers whatever it is asked from then on as the
  backoff that is built at that instant does, whatever either of them draws. -/
  replies : ∀ now future draws draws',
    Backoff.replies future (Backoff.reset b now) now draws =
      Backoff.replies future (build now) now draws'
  /-- A series that begins on a whole millisecond with this backoff, or with what
  earlier series have made of it, runs as it does at the start of the clock with
  a new one. -/
  runs : ∀ [Runtime] {σ : Type} (used : β), Worn b used →
    ∀ (observer : Option Observer) (t : Instant), t.OnTick →
    ∀ (token : Token) (draws draws' : Nat → Draw) (operation : Operation σ Unit) (state : σ)
      (fuel : Nat),
    (Runner.mk used observer).run? fuel ⟨t, token.later t.nanos, draws⟩ operation state = none ∧
      (Runner.mk (build .start) observer).run? fuel ⟨.start, token, draws'⟩ operation state =
        none ∨
    ∃ late first,
      (Runner.mk used observer).run? fuel ⟨t, token.later t.nanos, draws⟩ operation state =
        some late ∧
      (Runner.mk (build .start) observer).run? fuel ⟨.start, token, draws'⟩ operation state =
        some first ∧
      Postponed t.nanos late first

/-- Whatever has been done to a backoff, once it is reset it is as good as
new. -/
theorem Built.renewed {β : Type} [Backoff β] {build : Instant → β} (hbuilt : Built β build)
    (made : Instant) (history : List Handling) (draws : Nat → Draw) :
    Renewal build (Backoff.handled history (build made) made draws) := by
  have hreset : ∀ now, Backoff.reset (Backoff.handled history (build made) made draws) now =
      build now := by
    intro now
    rw [reset_handled hbuilt.renewable, hbuilt.reset_build]
  constructor
  case replies =>
    intro now future draws draws'
    obtain ⟨related, hsim, hrelated⟩ := hbuilt.bisimulation 0
    rw [hreset]
    exact hsim.replies future (hrelated now) now fun _ => trivial
  case runs =>
    intro runtime σ used hworn observer t htick token draws draws' operation state fuel
    obtain ⟨related, hsim, hrelated⟩ := hbuilt.bisimulation t.nanos
    have hclock : t = Instant.start.later t.nanos :=
      Instant.ext_nanos (Nat.zero_add t.nanos).symm
    have hstart : related (Backoff.reset used t) (Backoff.reset (build .start) .start) := by
      rw [hworn.reset_eq hbuilt.renewable, hreset, hbuilt.reset_build]
      have hbuilt := hrelated .start
      rwa [← hclock] at hbuilt
    let late : Series β σ := ⟨⟨used, observer⟩, ⟨t, token.later t.nanos, draws⟩, operation, state⟩
    let first : Series β σ :=
      ⟨⟨build .start, observer⟩, ⟨.start, token, draws'⟩, operation, state⟩
    have hrestages : late.Restages t.nanos first := ⟨htick, rfl, hclock, rfl, rfl, fun _ => rfl⟩
    have hrepeats := Series.Repeats.of_bisimulation hsim hrestages (fun _ => trivial) hstart
    exact hrepeats.postponed rfl rfl fuel

/-- Waits of one, two and four milliseconds within seven, under a cap of four
attempts and one of three with an error of its own. -/
def twiceCapped (now : Instant) : Capped (Capped Exponential) :=
  (Capped.start
    ((Capped.start
      (Exponential.start
        { initial := .ofMillis 1, ceiling := .ofMillis 8, budget := some (.ofMillis 7)
          multiplier := .ofNat 2, jitter := .ofNat 0 }
        now) 4 (by decide)).withBlame Builtin.retryAttemptsSpent) 3 (by decide)).withBlame
    Builtin.timeout

/-- Questions beyond the caps and the budget, with a reset among them. -/
def hardUse : List Handling :=
  [.ask, .pass 5000000, .ask, .blame, .reset, .ask, .ask, .pass 9000000, .ask, .ask, .blame]

/-- After that use a series at seven milliseconds still makes three attempts, and
blames the cap with its own error. -/
theorem twiceCapped_renewed :
    Built (Capped (Capped Exponential)) twiceCapped ∧
      ∃ late first,
        (Runner.mk (Backoff.handled hardUse (twiceCapped .start) .start fun _ => .least)
            none).run? 3
          ⟨⟨7000000⟩, ⟨false, some ⟨20000000⟩⟩, fun _ => .least⟩
          (Script.mk Attempt.lost []).operation 0 = some late ∧
        (Runner.mk (twiceCapped .start) none).run? 3
          ⟨.start, ⟨false, some ⟨13000000⟩⟩, fun _ => .least⟩
          (Script.mk Attempt.lost []).operation 0 = some first ∧
        first.trace.beginnings.length = 3 ∧ late.answer = first.answer ∧
        Postponed 7000000 late first := by
  have hbuilt : Built (Capped (Capped Exponential)) twiceCapped :=
    .capped (.capped (.exponential _ (by decide +kernel)) 4 (by decide) _) 3 (by decide) _
  refine ⟨hbuilt, ?_⟩
  have hrenewal := hbuilt.renewed .start hardUse fun _ => .least
  have hlength : ((Runner.mk (twiceCapped .start) none).run? 3
      ⟨.start, ⟨false, some ⟨13000000⟩⟩, fun _ => .least⟩
      (Script.mk Attempt.lost []).operation 0).map (·.trace.beginnings.length) = some 3 := by
    decide +kernel
  rcases hrenewal.runs _ .unused none ⟨7000000⟩ (by decide) ⟨false, some ⟨13000000⟩⟩
    (fun _ => .least) (fun _ => .least) (Script.mk Attempt.lost []).operation 0 3 with
    ⟨_, hnone⟩ | ⟨late, first, hlate, hfirst, hpostponed⟩
  · rw [hnone] at hlength
    cases hlength
  · rw [hfirst] at hlength
    exact ⟨late, first, hlate, hfirst, Option.some.inj hlength, hpostponed.answer, hpostponed⟩

end Recourse
