import Recourse.Retry.Token

/-!
# The runtime of a series

A series runs as one task among others.  It asks three things of its runtime: to
wake it after a wait, to choose between that wait and its token, and to let the
other tasks run.  `Runtime` takes what comes of them as parameters, with the laws
that the course of a series rests on.

* The timer.  A wait is over when its time has passed, and at the latest on the
  next whole millisecond.  If it takes any time it is over on a whole
  millisecond.
* Other tasks.  A task that is woken finds done what was due earlier.  What is
  due at that very instant it finds done only after it has yielded.
* The choice.  The token is asked first, and again whenever something wakes the
  task, so a token that has been fired is chosen at once, even over a wait of no
  time.

`Runtime.ticking` is such a runtime.  Its timer ends a wait of some time on the
first whole millisecond at which the wait is over.
-/

namespace Recourse

/-- What a series asks of the runtime, and what it may rely on. -/
class Runtime where
  /-- The instant at which a wait on the timer is over. -/
  wake : Instant → Span → Instant
  /-- Whether a task that is woken at an instant finds a token fired. -/
  finds : Token → Instant → Bool
  /-- Whether it does once it has yielded there. -/
  findsAfterYield : Token → Instant → Bool
  /-- The choice between a token and a wait from one instant to another: when the
  token is chosen, if it is. -/
  choose : Token → Instant → Instant → Option Instant
  -- The timer.
  after_le_wake : ∀ (t : Instant) (wait : Span), t.after wait ≤ wake t wait
  wake_le_roundUp : ∀ (t : Instant) (wait : Span), wake t wait ≤ (t.after wait).roundUp
  onTick_wake : ∀ (t : Instant) {wait : Span}, 0 < wait.nanos → (wake t wait).OnTick
  /-- The timer keeps step with a clock that is ahead by whole milliseconds. -/
  wake_later : ∀ {lag : Nat}, (Instant.mk lag).OnTick → ∀ (t : Instant) (wait : Span),
    wake (t.later lag) wait = (wake t wait).later lag
  -- Other tasks.
  finds_iff : ∀ (token : Token) (now : Instant),
    finds token now = true ↔ token.fired = true ∨ ∃ due, token.due = some due ∧ due < now
  findsAfterYield_iff : ∀ (token : Token) (now : Instant),
    findsAfterYield token now = true ↔
      token.fired = true ∨ ∃ due, token.due = some due ∧ due ≤ now
  -- The choice.
  choose_of_fired : ∀ {token : Token} (begun ends : Instant), token.fired = true →
    choose token begun ends = some begun
  choose_of_due : ∀ {token : Token} {due : Instant} (begun : Instant) {ends : Instant},
    token.fired = false → token.due = some due → due < ends →
      choose token begun ends = some (max due begun)
  choose_of_quiet : ∀ {token : Token} (begun : Instant) {ends : Instant}, token.fired = false →
    (∀ due, token.due = some due → ¬due < ends) → choose token begun ends = none

/-! ## A timer of whole milliseconds -/

namespace Instant

/-- The instant at which a wait begun at `t` ends.  A wait of no time ends at
once; any other ends on the first whole millisecond at which it is over. -/
def wake (t : Instant) (wait : Span) : Instant :=
  if wait.isZero then t else (t.after wait).roundUp

theorem wake_cases (t : Instant) (wait : Span) :
    wait.nanos = 0 ∧ t.wake wait = t.after wait ∨
      0 < wait.nanos ∧ t.wake wait = (t.after wait).roundUp := by
  rcases Nat.eq_zero_or_pos wait.nanos with hzero | hpos
  · refine Or.inl ⟨hzero, ?_⟩
    rw [wake, Span.isZero, after, hzero]
    rfl
  · have hsome : wait.isZero = false := beq_false_of_ne (Nat.ne_of_gt hpos)
    refine Or.inr ⟨hpos, ?_⟩
    rw [wake, hsome]
    rfl

theorem le_roundUp (t : Instant) : t ≤ t.roundUp := by
  rw [le_iff]
  simp only [roundUp, Span.milliNanos]
  omega

theorem onTick_roundUp (t : Instant) : t.roundUp.OnTick := Nat.mul_mod_left _ _

theorem after_later (t : Instant) (lag : Nat) (s : Span) :
    (t.later lag).after s = (t.after s).later lag :=
  congrArg Instant.mk (Nat.add_right_comm _ _ _)

theorem roundUp_later {lag : Nat} (hlag : (Instant.mk lag).OnTick) (t : Instant) :
    (t.later lag).roundUp = t.roundUp.later lag := by
  have hwhole : lag % Span.milliNanos = 0 := hlag
  apply ext_nanos
  simp only [roundUp, later, Span.milliNanos] at hwhole ⊢
  omega

theorem after_le_wake (t : Instant) (wait : Span) : t.after wait ≤ t.wake wait := by
  rcases wake_cases t wait with ⟨_, hwake⟩ | ⟨_, hwake⟩
  · rw [hwake]
    exact Nat.le_refl _
  · rw [hwake]
    exact le_roundUp _

theorem wake_le_roundUp (t : Instant) (wait : Span) : t.wake wait ≤ (t.after wait).roundUp := by
  rcases wake_cases t wait with ⟨_, hwake⟩ | ⟨_, hwake⟩
  · rw [hwake]
    exact le_roundUp _
  · rw [hwake]
    exact Nat.le_refl _

theorem onTick_wake (t : Instant) {wait : Span} (hpos : 0 < wait.nanos) :
    (t.wake wait).OnTick := by
  rcases wake_cases t wait with ⟨hzero, _⟩ | ⟨_, hwake⟩
  · exact absurd hzero (Nat.ne_of_gt hpos)
  · rw [hwake]
    exact onTick_roundUp _

theorem wake_later {lag : Nat} (hlag : (Instant.mk lag).OnTick) (t : Instant) (wait : Span) :
    (t.later lag).wake wait = (t.wake wait).later lag := by
  unfold wake
  split
  · rfl
  · rw [after_later, roundUp_later hlag]

end Instant

/-! ## Tokens beside that timer -/

namespace Token

/-- The token is fired, or was due before `now`. -/
def firedBefore (t : Token) (now : Instant) : Bool := t.fired || t.due.any (· < now)

/-- The token is fired, or was due by `now`. -/
def firedBy (t : Token) (now : Instant) : Bool := t.fired || t.due.any (· ≤ now)

/-- When the token cuts short a wait between two instants: at once if it has
fired, at the due time of its timer if that comes before the end, else not at
all. -/
def interrupts? (t : Token) (begun ends : Instant) : Option Instant :=
  if t.fired then some begun
  else
    match t.due with
    | some due => if due < ends then some (max due begun) else none
    | none => none

theorem firedBefore_iff (t : Token) (now : Instant) :
    t.firedBefore now = true ↔ t.fired = true ∨ ∃ due, t.due = some due ∧ due < now := by
  cases hdue : t.due <;> simp [firedBefore, hdue]

theorem firedBy_iff (t : Token) (now : Instant) :
    t.firedBy now = true ↔ t.fired = true ∨ ∃ due, t.due = some due ∧ due ≤ now := by
  cases hdue : t.due <;> simp [firedBy, hdue]

theorem interrupts?_of_fired {t : Token} (begun ends : Instant) (hfired : t.fired = true) :
    t.interrupts? begun ends = some begun := if_pos hfired

theorem interrupts?_of_due {t : Token} {due : Instant} (begun : Instant) {ends : Instant}
    (hopen : t.fired = false) (hdue : t.due = some due) (hlt : due < ends) :
    t.interrupts? begun ends = some (max due begun) := by
  simp [interrupts?, hopen, hdue, hlt]

theorem interrupts?_of_quiet {t : Token} (begun : Instant) {ends : Instant}
    (hopen : t.fired = false) (hquiet : ∀ due, t.due = some due → ¬due < ends) :
    t.interrupts? begun ends = none := by
  cases hdue : t.due with
  | none => simp [interrupts?, hopen, hdue]
  | some due => simp [interrupts?, hopen, hdue, hquiet due hdue]

end Token

/-- A runtime with a timer of whole milliseconds. -/
instance Runtime.ticking : Runtime where
  wake := Instant.wake
  finds := Token.firedBefore
  findsAfterYield := Token.firedBy
  choose := Token.interrupts?
  after_le_wake := Instant.after_le_wake
  wake_le_roundUp := Instant.wake_le_roundUp
  onTick_wake := Instant.onTick_wake
  wake_later := Instant.wake_later
  finds_iff := Token.firedBefore_iff
  findsAfterYield_iff := Token.firedBy_iff
  choose_of_fired := Token.interrupts?_of_fired
  choose_of_due := Token.interrupts?_of_due
  choose_of_quiet := Token.interrupts?_of_quiet

end Recourse
