import Recourse.Backoff.Scripted
import Recourse.Proofs.Delays

/-!
# What a cap asks

A cap passes the questions it is asked on to its inner backoff, up to the one
that uses up the attempts, and none from then on.

* `Capped.asked_eq` is the induction over the questions.  It says all at once
  what becomes of a capped backoff that has counted no failure.
* `Overheard` is a backoff whose questions are written down.  A cap cannot tell
  it from the backoff itself (`asked_overheard`), so what is written down is
  what the inner backoff has been asked.
* `CutShort` is what can be seen of a capped backoff, and `Fresh.cutShort` says
  that this is so for any number of questions.
-/

namespace Recourse

/-! ## Questions written down -/

/-- A backoff and the questions put to it since it was built or reset. -/
structure Overheard (β : Type) where
  backoff : β
  questions : List (Instant × Draw)

namespace Overheard

variable {β : Type} [Backoff β]

/-- Everything is left to the backoff, and only questions are written down. -/
instance : Backoff (Overheard β) where
  next b now draw :=
    ((Backoff.next b.backoff now draw).1,
      ⟨(Backoff.next b.backoff now draw).2, b.questions ++ [(now, draw)]⟩)
  reset b now := ⟨Backoff.reset b.backoff now, []⟩
  exhausted b := Backoff.exhausted b.backoff

theorem questions_asked (b : β) (times : Nat → Instant) (draws : Nat → Draw) (k : Nat) :
    (Backoff.asked (Overheard.mk b []) times draws k).questions =
      (List.range k).map fun i => (times i, draws i) := by
  induction k with
  | zero => rfl
  | succ k ih =>
    rw [List.range_succ, List.map_append, ← ih]
    rfl

theorem backoff_asked (b : β) (times : Nat → Instant) (draws : Nat → Draw) (k : Nat) :
    (Backoff.asked (Overheard.mk b []) times draws k).backoff = Backoff.asked b times draws k := by
  induction k with
  | zero => rfl
  | succ k ih =>
    rw [Backoff.asked, Backoff.asked, ← ih]
    rfl

end Overheard

namespace Capped

variable {β : Type}

/-! ## One question after the other -/

theorem count_ofNat (k : Nat) :
    count (.ofNat (min k (UInt32.size - 1))) = .ofNat (min (k + 1) (UInt32.size - 1)) := by
  have hsize : UInt32.size = 4294967296 := rfl
  rw [← UInt32.toNat_inj, count_toNat, UInt32.toNat_ofNat_of_lt' (by omega),
    UInt32.toNat_ofNat_of_lt' (by omega)]
  omega

/-- A failure uses up the attempts if it is the one at the cap or a later one,
even where the failures are too many to be counted. -/
theorem cap_le_ofNat (b : Capped β) (k : Nat) :
    b.cap.toNat ≤ (UInt32.ofNat (min k (UInt32.size - 1))).toNat ↔ b.cap.toNat ≤ k := by
  have hcap := b.cap.toNat_lt_size
  have hsize : UInt32.size = 4294967296 := rfl
  rw [UInt32.toNat_ofNat_of_lt' (by omega)]
  omega

variable [Backoff β]

/-- What becomes of a capped backoff that has counted no failure: it has counted
the questions, and all of them that do not use up the attempts have been put to
its inner backoff. -/
theorem asked_eq {b : Capped β} (hnone : b.failures = 0) (times : Nat → Instant)
    (draws : Nat → Draw) (k : Nat) :
    Backoff.asked b times draws k =
      { b with
        failures := .ofNat (min k (UInt32.size - 1))
        inner := Backoff.asked b.inner times draws (min k (b.cap.toNat - 1)) } := by
  induction k with
  | zero =>
    rw [Nat.zero_min, Nat.zero_min, ← show b.failures = UInt32.ofNat 0 from hnone]
    rfl
  | succ k ih =>
    rw [Backoff.asked, ih, next_eq]
    simp only [count_ofNat]
    by_cases hspent : b.cap.toNat ≤ k + 1
    · have hbefore : min k (b.cap.toNat - 1) = b.cap.toNat - 1 := by omega
      have hafter : min (k + 1) (b.cap.toNat - 1) = b.cap.toNat - 1 := by omega
      rw [if_pos ((cap_le_ofNat b _).2 hspent), hbefore, hafter]
    · have hbefore : min k (b.cap.toNat - 1) = k := by omega
      have hafter : min (k + 1) (b.cap.toNat - 1) = k + 1 := by omega
      rw [if_neg (mt (cap_le_ofNat b _).1 hspent), hbefore, hafter]
      rfl

theorem delay?_eq {b : Capped β} (hnone : b.failures = 0) (times : Nat → Instant)
    (draws : Nat → Draw) (k : Nat) :
    Backoff.delay? b times draws k =
      if k + 1 < b.cap.toNat then Backoff.delay? b.inner times draws k else none := by
  rw [Backoff.delay?, asked_eq hnone, next_eq]
  simp only [count_ofNat]
  by_cases hspent : b.cap.toNat ≤ k + 1
  · rw [if_pos ((cap_le_ofNat b _).2 hspent), if_neg (by omega)]
  · rw [if_neg (mt (cap_le_ofNat b _).1 hspent), if_pos (by omega), Nat.min_eq_left (by omega),
      Backoff.delay?]

theorem exhausted_asked {b : Capped β} (hnone : b.failures = 0) (times : Nat → Instant)
    (draws : Nat → Draw) (k : Nat) :
    Backoff.exhausted (Backoff.asked b times draws k) =
      if b.cap.toNat ≤ k then b.blame
      else Backoff.exhausted (Backoff.asked b.inner times draws k) := by
  have hspent : (Backoff.asked b times draws k).isSpent = true ↔ b.cap.toNat ≤ k := by
    rw [asked_eq hnone, isSpent_iff, cap_le_ofNat]
  show (if (Backoff.asked b times draws k).isSpent = true then _ else _) = _
  by_cases hcap : b.cap.toNat ≤ k
  · rw [if_pos (hspent.2 hcap), if_pos hcap, asked_eq hnone]
  · rw [if_neg (mt hspent.1 hcap), if_neg hcap, asked_eq hnone, Nat.min_eq_left (by omega)]

/-! ## What the inner backoff hears -/

/-- The same cap around another backoff. -/
def mapInner {γ : Type} (f : β → γ) (b : Capped β) : Capped γ := { b with inner := f b.inner }

/-- The same backoff with the questions to its inner one written down. -/
def overheard (b : Capped β) : Capped (Overheard β) := b.mapInner fun inner => ⟨inner, []⟩

/-- A cap does the same whether it is overheard or not. -/
theorem asked_overheard {b : Capped β} (hnone : b.failures = 0) (times : Nat → Instant)
    (draws : Nat → Draw) (k : Nat) :
    (Backoff.asked b.overheard times draws k).mapInner Overheard.backoff =
      Backoff.asked b times draws k := by
  rw [asked_eq hnone, asked_eq (b := b.overheard) hnone]
  simp only [mapInner, overheard, Overheard.backoff_asked]

/-! ## Backoffs that are cut short -/

/-- A capped backoff before any failure, with this inner backoff and this error
of its own: one that has just been built, or reset after any use.  The error can
be replaced. -/
inductive Fresh : Capped β → β → CodedError → Prop where
  | built (inner : β) (cap : UInt32) (cap_pos : 0 < cap) :
      Fresh (.start inner cap cap_pos) inner Builtin.retryAttemptsSpent
  | reset (used : Capped β) (now : Instant) :
      Fresh (Backoff.reset used now) (Backoff.reset used.inner now) used.blame
  | withBlame {b : Capped β} {inner : β} {blame : CodedError} (h : Fresh b inner blame)
      (replaced : CodedError) : Fresh (b.withBlame replaced) inner replaced

theorem Fresh.fields {b : Capped β} {inner : β} {blame : CodedError} (h : Fresh b inner blame) :
    b.failures = 0 ∧ b.inner = inner ∧ b.blame = blame := by
  induction h with
  | built => exact ⟨rfl, rfl, rfl⟩
  | reset => exact ⟨rfl, rfl, rfl⟩
  | withBlame _ _ ih => exact ⟨ih.1, ih.2.1, rfl⟩

/-- What can be seen of a capped backoff when it is asked again and again, at
such times and with such draws.  Question `k` is the one after `k` others. -/
structure CutShort (b : Capped β) (inner : β) (blame : CodedError) (times : Nat → Instant)
    (draws : Nat → Draw) : Prop where
  /-- It answers as its inner backoff does by itself, up to the question that uses
  up the attempts, and with none from then on. -/
  answers : ∀ k, Backoff.delay? b times draws k =
    if k + 1 < b.cap.toNat then Backoff.delay? inner times draws k else none
  /-- So many of the questions, and no others, have been put to the inner backoff,
  each at its time and with its draw. -/
  heard : ∀ k, (Backoff.asked b.overheard times draws k).inner.questions =
    (List.range (min k (b.cap.toNat - 1))).map fun i => (times i, draws i)
  /-- Nothing but the questions is changed by writing them down. -/
  unnoticed : ∀ k, (Backoff.asked b.overheard times draws k).mapInner Overheard.backoff =
    Backoff.asked b times draws k
  consulted : ∀ k, (Backoff.asked b times draws k).inner =
    Backoff.asked inner times draws (min k (b.cap.toNat - 1))
  /-- It reports its own error from the cap on, and that of the inner backoff until
  then, whatever that one has answered. -/
  exhausted : ∀ k, Backoff.exhausted (Backoff.asked b times draws k) =
    if b.cap.toNat ≤ k then blame else Backoff.exhausted (Backoff.asked inner times draws k)

/-- A cap cuts its inner backoff short, and this is all that it does. -/
theorem Fresh.cutShort {b : Capped β} {inner : β} {blame : CodedError}
    (hfresh : Fresh b inner blame) (times : Nat → Instant) (draws : Nat → Draw) :
    CutShort b inner blame times draws := by
  obtain ⟨hnone, rfl, rfl⟩ := hfresh.fields
  constructor
  case answers => exact delay?_eq hnone times draws
  case heard =>
    intro k
    rw [asked_eq (b := b.overheard) hnone]
    exact Overheard.questions_asked b.inner times draws _
  case unnoticed => exact asked_overheard hnone times draws
  case consulted =>
    intro k
    rw [asked_eq hnone]
  case exhausted => exact exhausted_asked hnone times draws

/-- A single wait under a cap of five attempts with an error of its own. -/
def singleWait : Capped Scripted :=
  (Capped.start (.start [.ofMillis 1]) 5 (by decide)).withBlame Builtin.timeout

/-- The largest cap, reset after some use. -/
def largestCap : Capped Scripted :=
  Backoff.reset
    (Backoff.asked (Capped.start (.start [.ofMillis 1]) 4294967295 (by decide))
      (fun _ => .start) (fun _ => .least) 7)
    .start

/-- A question in every nanosecond. -/
def everyNanosecond (k : Nat) : Instant := ⟨k⟩

/-- The wait runs out before the attempts do, and it is only from the fifth
question on that the cap is blamed.  The largest cap is spent after more
questions than it can count. -/
theorem singleWait_cutShort :
    CutShort singleWait (.start [.ofMillis 1]) Builtin.timeout everyNanosecond (fun _ => .least) ∧
      Backoff.delay? singleWait everyNanosecond (fun _ => .least) 0 = some (.ofMillis 1) ∧
      Backoff.delay? singleWait everyNanosecond (fun _ => .least) 1 = none ∧
      Backoff.exhausted (Backoff.asked singleWait everyNanosecond (fun _ => .least) 4) =
        Builtin.retryTimeSpent ∧
      Backoff.exhausted (Backoff.asked singleWait everyNanosecond (fun _ => .least) 5) =
        Builtin.timeout ∧
      (Backoff.asked singleWait.overheard everyNanosecond (fun _ => .least) 9).inner.questions =
        [(⟨0⟩, .least), (⟨1⟩, .least), (⟨2⟩, .least), (⟨3⟩, .least)] ∧
      Backoff.delay? largestCap everyNanosecond (fun _ => .least) (UInt32.size + 5) = none ∧
      Backoff.exhausted
          (Backoff.asked largestCap everyNanosecond (fun _ => .least) (UInt32.size + 5)) =
        Builtin.retryAttemptsSpent := by
  have hsingle : Fresh singleWait (.start [.ofMillis 1]) Builtin.timeout :=
    .withBlame (.built _ 5 (by decide)) Builtin.timeout
  have hlargest : Fresh largestCap (Backoff.reset _ .start) Builtin.retryAttemptsSpent :=
    .reset _ .start
  have hcut := hsingle.cutShort everyNanosecond fun _ => .least
  have hbeyond := hlargest.cutShort everyNanosecond fun _ => .least
  refine ⟨hcut, hcut.answers 0, hcut.answers 1, hcut.exhausted 4, hcut.exhausted 5,
    hcut.heard 9, ?_, ?_⟩
  · exact (hbeyond.answers _).trans (if_neg (by decide))
  · exact (hbeyond.exhausted _).trans (if_pos (by decide))

end Capped

end Recourse
