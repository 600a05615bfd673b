import Recourse.Proofs.Budget
import Recourse.Proofs.Delays
import Recourse.Proofs.Stopping

/-!
# The count of attempts

A series counts its attempts in 32 bits.  It shows the count in its outcome, in
the spans of its attempts and in the entries of its log.

* `Trace.Numbered` says that each event has the number of the attempts begun by
  then, as 32 bits hold it.  `Numbered.attempt` adds one attempt with what
  follows it, `numbered_events` is the induction over the rounds, and
  `Exit.numbered` is the last round.
* `Step.Shows` is what a reader of the outcome and of the log finds.
  `attempts_shown` says that this is the number of attempts modulo `2 ^ 32`, and
  so the number itself for exactly as long as it is below.
* `ticking` is a series that makes one attempt more than its budget has
  milliseconds.  `2 ^ 32 - 1` of them are enough for the count to be back at
  zero.
-/

namespace Recourse

/-! ## Counts that are shown -/

/-- The count that an event shows. -/
def Event.count? : Event → Option UInt32
  | .began count _ => some count
  | .recovered count => some count
  | .failedForGood count _ => some count
  | .notified _ => none
  | .retrying count _ _ => some count
  | .gaveUp count _ _ => some count
  | .cancelledBefore count => some count
  | .cancelledDuring count _ => some count
  | .cancelledWaiting count => some count

/-- The text of the count in an entry. -/
def LogEntry.count? (entry : LogEntry) : Option String :=
  (entry.fields.find? fun field => field.1 = "attempt" || field.1 = "attempts").map (·.2)

/-- An entry shows the count of its event. -/
theorem LogEntry.count?_of_logEntry? {event : Event} {entry : LogEntry}
    (h : event.logEntry? = some entry) :
    ∃ count, event.count? = some count ∧ entry.count? = some (toString count) := by
  cases event with
  | notified => cases h
  | _ =>
    cases h
    exact ⟨_, rfl, rfl⟩

namespace Trace

/-- Each event has the number of the attempts begun by then. -/
def Numbered (t : Trace) : Prop :=
  ∀ before event count, before ++ [event] <+: t → event.count? = some count →
    count = .ofNat (beginnings (before ++ [event])).length

theorem Numbered.nil : Numbered [] := by
  intro before event _ hfront
  simp at hfront

theorem Numbered.concat {t : Trace} (h : t.Numbered) {event : Event}
    (hlast : ∀ count, event.count? = some count →
      count = .ofNat (beginnings (t ++ [event])).length) :
    Numbered (t ++ [event]) := by
  intro before next count hfront hcount
  rcases List.prefix_concat_iff.1 hfront with hall | hfront
  · rw [hall]
    obtain ⟨_, hsame⟩ := List.append_inj' hall rfl
    exact hlast count ((List.cons.inj hsame).1 ▸ hcount)
  · exact h before next count hfront hcount

/-- No event in `u` begins an attempt, and all of them have the same number. -/
theorem Numbered.append {t u : Trace} {made : Nat} (h : t.Numbered)
    (hmade : t.beginnings.length = made)
    (hquiet : ∀ event ∈ u, event.beginning? = none ∧
      ∀ count, event.count? = some count → count = .ofNat made) : Numbered (t ++ u) := by
  induction u generalizing t with
  | nil => rwa [List.append_nil]
  | cons event u ih =>
    obtain ⟨hnone, hcount⟩ := hquiet event List.mem_cons_self
    have hsame : (beginnings (t ++ [event])).length = made := by
      rw [beginnings_append, List.length_append, hmade]
      simp [beginnings, hnone]
    have hnumbered : Numbered (t ++ [event]) := by
      refine h.concat fun count hshown => ?_
      rw [hsame]
      exact hcount count hshown
    rw [List.append_cons]
    exact ih hnumbered hsame fun later hlater => hquiet later (List.mem_cons_of_mem event hlater)

/-- The next attempt begins, and none after it. -/
theorem Numbered.attempt {t u : Trace} {made : Nat} (h : t.Numbered)
    (hmade : t.beginnings.length = made) (begun : Instant)
    (hquiet : ∀ event ∈ u, event.beginning? = none ∧
      ∀ count, event.count? = some count → count = .ofNat (made + 1)) :
    Numbered (t ++ .began (.ofNat (made + 1)) begun :: u) := by
  have hnext : (beginnings (t ++ [.began (.ofNat (made + 1)) begun])).length = made + 1 := by
    rw [beginnings_append, List.length_append, hmade]
    rfl
  rw [List.append_cons]
  refine Numbered.append (h.concat fun count hcount => ?_) hnext hquiet
  rw [hnext]
  exact (Option.some.inj hcount).symm

end Trace

/-! ## What a series has shown -/

section Shown

variable {β σ : Type}

/-- The state of the operation after what it has been made to do. -/
def Step.state : Step β σ → σ
  | .goOn p => p.state
  | .stop run => run.state

/-- The outcome and the log of a series show its attempts, and `shown` is what
becomes of their number. -/
structure Step.Shows (now : Step β σ) (shown : Nat → Nat) : Prop where
  attempts : now.attempts.toNat = shown now.trace.beginnings.length
  /-- An entry shows the attempts that had begun when it was written. -/
  entries : ∀ before event entry, before ++ [event] <+: now.trace →
    event.logEntry? = some entry →
      entry.count? = some (toString (shown (Trace.beginnings (before ++ [event])).length))

theorem Step.shows_mod {now : Step β σ}
    (hattempts : now.attempts = .ofNat now.trace.beginnings.length)
    (hnumbered : now.trace.Numbered) : now.Shows (· % UInt32.size) := by
  constructor
  case attempts =>
    rw [hattempts]
    rfl
  case entries =>
    intro before event entry hfront hentry
    obtain ⟨count, hcount, hshown⟩ := LogEntry.count?_of_logEntry? hentry
    rw [hshown, hnumbered before event count hfront hcount, UInt32.toString_ofNat_mod]

/-- What is shown is right for as long as 32 bits can hold the number. -/
theorem Step.Shows.id_iff {now : Step β σ} (h : now.Shows (· % UInt32.size)) :
    now.Shows id ↔ now.trace.beginnings.length < UInt32.size := by
  constructor
  · intro hright
    rw [← id_eq now.trace.beginnings.length, ← hright.attempts]
    exact now.attempts.toNat_lt
  · intro hfew
    constructor
    case attempts => rw [h.attempts, Nat.mod_eq_of_lt hfew, id_eq]
    case entries =>
      intro before event entry hfront hentry
      have hle : (Trace.beginnings (before ++ [event])).length ≤ now.trace.beginnings.length :=
        (hfront.filterMap Event.beginning?).length_le
      rw [h.entries before event entry hfront hentry,
        Nat.mod_eq_of_lt (Nat.lt_of_le_of_lt hle hfew), id_eq]

end Shown

namespace Series

variable {β σ : Type} [Backoff β]

theorem numbered_succ {s : Series β σ} {k : Nat} (hreach : s.Reaches k)
    (hnumbered : Trace.Numbered (s.events k)) {fault : Fault} {delay : Span}
    (hfail : s.outcome k = .error (.transient fault)) (hgrant : s.grant k = some delay) :
    Trace.Numbered (s.events (k + 1)) := by
  have hmade := length_beginnings_events hreach
  rw [events_succ, roundEvents_of_granted hfail hgrant]
  refine hnumbered.attempt hmade _ fun event hevent => ?_
  rcases List.mem_append.1 hevent with hnotice | hretrying
  · obtain ⟨_, _, rfl⟩ := List.mem_map.1 hnotice
    exact ⟨rfl, fun _ hcount => (by cases hcount)⟩
  · obtain rfl := List.mem_singleton.1 hretrying
    exact ⟨rfl, fun _ hcount => (Option.some.inj hcount).symm⟩

theorem numbered_events {s : Series β σ} {k : Nat} (hreach : s.Reaches k) :
    Trace.Numbered (s.events k) := by
  induction k with
  | zero => exact .nil
  | succ k ih =>
    obtain ⟨fault, hfail⟩ := (hreach k (Nat.lt_succ_self k)).failed
    obtain ⟨delay, hgrant⟩ := (hreach k (Nat.lt_succ_self k)).granted
    have hbefore := hreach.of_le (Nat.le_succ k)
    exact numbered_succ hbefore (ih hbefore) hfail hgrant

theorem Exit.numbered {s : Series β σ} {k : Nat} {c : Conclusion} (hreach : s.Reaches k)
    (hexit : s.Exit k c) : (s.conclude c).trace.Numbered := by
  have hnumbered := numbered_events hreach
  have hmade := length_beginnings_events hreach
  have hclosing {made : Nat} {event : Event} (hnone : event.beginning? = none)
      (hcount : event.count? = some (.ofNat made)) : ∀ later ∈ [event],
        later.beginning? = none ∧ ∀ count, later.count? = some count → count = .ofNat made := by
    intro later hlater
    obtain rfl := List.mem_singleton.1 hlater
    exact ⟨hnone, fun count h => Option.some.inj (h.symm.trans hcount)⟩
  cases hexit with
  | before => exact hnumbered.append hmade (hclosing rfl rfl)
  | succeeded =>
    refine hnumbered.attempt hmade _ ?_
    split
    · exact hclosing rfl rfl
    · exact fun _ hevent => absurd hevent List.not_mem_nil
  | failed => exact hnumbered.attempt hmade _ (hclosing rfl rfl)
  | during => exact hnumbered.attempt hmade _ (hclosing rfl rfl)
  | spent => exact hnumbered.attempt hmade _ (hclosing rfl rfl)
  | cut _ fault hfail _ delay hgrant =>
    have hround := numbered_succ hreach hnumbered hfail hgrant
    refine hround.append ?_ (hclosing rfl rfl)
    rw [events_succ, Trace.beginnings_append, List.length_append, hmade,
      beginnings_roundEvents hfail hgrant]
    rfl

theorem shows_after (s : Series β σ) (steps : Nat) :
    (s.after steps).Shows (· % UInt32.size) := by
  rcases s.after_cases steps with ⟨hreach, hafter⟩ | ⟨k, c, _, hreach, hexit, hafter⟩
  · rw [hafter]
    refine Step.shows_mod ?_ ?_
    · rw [length_beginnings_head hreach]
      rfl
    · rw [Step.trace, head, List.reverse_reverse]
      exact numbered_events hreach
  · rw [hafter]
    refine Step.shows_mod ?_ (hexit.numbered hreach)
    rw [Step.trace, hexit.length_beginnings hreach]
    rfl

/-- The operation is invoked once for each attempt that begins. -/
theorem state_after (s : Series β σ) (steps : Nat) :
    (s.after steps).state =
      s.operation.stateAfter s.state (s.after steps).trace.beginnings.length := by
  rcases s.after_cases steps with ⟨hreach, hafter⟩ | ⟨k, c, _, hreach, hexit, hafter⟩
  · rw [hafter, length_beginnings_head hreach]
    rfl
  · rw [hafter, Step.trace, hexit.length_beginnings hreach]
    rfl

/-- After any number of steps of a series, whether it has ended by then or not, its
operation has been invoked as often as attempts have begun, and what is shown of
them is that number modulo `2 ^ 32`.  It is right if and only if there are fewer. -/
theorem attempts_shown (s : Series β σ) (steps : Nat) :
    let now := s.after steps
    let made := now.trace.beginnings.length
    now.state = s.operation.stateAfter s.state made ∧
      now.Shows (· % UInt32.size) ∧
      (now.Shows id ↔ made < UInt32.size) ∧
      ∀ run, s.run? steps = some run ↔ now = .stop run := by
  have hshows := s.shows_after steps
  exact ⟨s.state_after steps, hshows, hshows.id_iff, fun _ => run?_eq_some_iff⟩

/-! ## As many attempts as there are milliseconds -/

/-- Waits of a nanosecond. -/
def nanosecondWaits (budget : Option Span) : Policy where
  initial := .clamp 1
  ceiling := .clamp 1
  budget := budget
  multiplier := .ofNat 1
  jitter := .ofNat 0

/-- Attempts that fail at once and for ever, with a nanosecond between them and so
many milliseconds in all. -/
def ticking (millis : Nat) : Series Exponential Nat :=
  playing (.start (nanosecondWaits (some (.clamp (millis * Span.milliNanos)))) .start) .idle
    ⟨.lost, []⟩

section Ticking

variable {millis : Nat}

theorem outcome_ticking (k : Nat) :
    (ticking millis).outcome k = .error (.transient Builtin.peerConnection.toFault) := by
  rw [outcome, ticking, made_playing]
  cases k <;> rfl

theorem returns_ticking (k : Nat) : (ticking millis).returns k = (ticking millis).begins k := by
  have hmade : (ticking millis).made k = .lost := by
    rw [ticking, made_playing]
    cases k <;> rfl
  rw [returns, hmade]
  rfl

theorem steady_nanosecondWaits (budget : Option Span) : (nanosecondWaits budget).Steady := by
  simp only [Policy.Steady, nanosecondWaits]
  decide +kernel

theorem interval_nanosecondWaits (budget : Option Span) (k : Nat) :
    (nanosecondWaits budget).interval k = .clamp 1 := by
  induction k with
  | zero => rfl
  | succ k ih =>
    rw [Policy.interval, ih, Policy.grow_withoutBudget]
    simp only [nanosecondWaits]
    decide +kernel

theorem delayAt_ticking (k : Nat) : (ticking millis).delayAt k = .clamp 1 := by
  have hsteady : (ticking millis).runner.backoff.policy.Steady := steady_nanosecondWaits _
  rw [delayAt_of_steady hsteady, current_backoffAt]
  exact interval_nanosecondWaits _ k

theorem grant_ticking (hmillis : millis * Span.milliNanos < Span.most) (k : Nat) (delay : Span) :
    (ticking millis).grant k = some delay ↔
      delay = .clamp 1 ∧ ((ticking millis).begins k).nanos < millis * Span.milliNanos := by
  have hnanos : (Span.clamp (millis * Span.milliNanos)).nanos = millis * Span.milliNanos :=
    Nat.min_eq_left (Nat.le_of_lt hmillis)
  have hbelow : Span.clamp (millis * Span.milliNanos) < .longest := by
    show (Span.clamp (millis * Span.milliNanos)).nanos < min Span.most Span.most
    rw [hnanos, Nat.min_self]
    exact hmillis
  have hgrant := grant_iff (s := ticking millis) rfl hbelow k delay
  rw [delayAt_ticking, returns_ticking, hnanos] at hgrant
  rw [hgrant]
  refine and_congr_right fun hdelay => ?_
  have hone : delay.nanos = 1 := by
    rw [hdelay]
    rfl
  rw [hone]
  exact Nat.lt_iff_add_one_le.symm

/-- Each round takes a millisecond, as long as there is one left. -/
theorem begins_ticking (hmillis : millis * Span.milliNanos < Span.most) {k : Nat}
    (hk : k ≤ millis) : ((ticking millis).begins k).nanos = k * Span.milliNanos := by
  induction k with
  | zero => rfl
  | succ k ih =>
    have hbegins := ih (Nat.le_of_succ_le hk)
    have hleft : ((ticking millis).begins k).nanos < millis * Span.milliNanos := by
      rw [hbegins]
      exact Nat.mul_lt_mul_of_pos_right hk (by decide)
    rw [begins_succ ((grant_ticking hmillis k _).2 ⟨rfl, hleft⟩), returns_ticking]
    show (((ticking millis).begins k).nanos + 1 + (Span.milliNanos - 1)) / Span.milliNanos *
      Span.milliNanos = (k + 1) * Span.milliNanos
    rw [hbegins]
    simp only [Span.milliNanos]
    omega

/-- One attempt for each millisecond, and one to give up in. -/
theorem ticking_ends (hmillis : millis * Span.milliNanos < Span.most) :
    ∃ run, (ticking millis).run? (millis + 1) = some run ∧
      run.answer.ending = .exhausted ∧
      run.state = millis + 1 ∧
      run.trace.beginnings.length = millis + 1 ∧
      run.answer.attempts = .ofNat (millis + 1) := by
  have hcalm : (ticking millis).Uncancelled := uncancelled_playing _ (by decide)
  have hquiet := hcalm.quietThrough millis
  have hgoes (i : Nat) (hi : i < millis) : (ticking millis).ending? i = none := by
    refine ending?_eq_none.2 ⟨⟨_, outcome_ticking i⟩, _, (grant_ticking hmillis i _).2 ⟨rfl, ?_⟩⟩
    rw [begins_ticking hmillis (Nat.le_of_lt hi)]
    exact Nat.mul_lt_mul_of_pos_right hi (by decide)
  have hspent : (ticking millis).grant millis = none := by
    rw [Option.eq_none_iff_forall_ne_some]
    intro delay hgrant
    have hleft := ((grant_ticking hmillis millis delay).1 hgrant).2
    rw [begins_ticking hmillis (Nat.le_refl millis)] at hleft
    exact Nat.lt_irrefl _ hleft
  have hending : (ticking millis).ending? millis = some .exhausted := by
    rw [ending?, outcome_ticking, hspent]
  have hreach := reaches_of_quiet hgoes hquiet.1
  obtain ⟨c, hexit, hexhausted, hmade, _⟩ := exit_of_ending hending hquiet
  refine ⟨(ticking millis).conclude c, ?_, hexhausted, ?_, ?_, ?_⟩
  · rw [run?_of_exit hreach hexit, if_pos (Nat.lt_succ_self millis)]
  · rw [conclude, hmade]
    exact Operation.stateAfter_ofSequence _ _
  · rw [hexit.length_beginnings hreach, hmade]
  · rw [conclude, hmade]

end Ticking

/-- After `2 ^ 32` attempts none are reported. -/
theorem ticking_starts_over :
    ∃ run, (ticking 4294967295).run? 4294967296 = some run ∧
      run.answer.ending = .exhausted ∧
      run.state = 4294967296 ∧
      run.trace.beginnings.length = 4294967296 ∧
      run.answer.attempts = 0 ∧
      ¬(Step.stop run : Step Exponential Nat).Shows id := by
  obtain ⟨run, hrun, hexhausted, hstate, hmade, hattempts⟩ :=
    @ticking_ends 4294967295 (by decide)
  refine ⟨run, hrun, hexhausted, hstate, hmade, hattempts, fun hshows => ?_⟩
  have hnone : run.answer.attempts.toNat = run.trace.beginnings.length := hshows.attempts
  rw [hattempts, hmade] at hnone
  exact absurd hnone (by decide)

end Series

end Recourse
