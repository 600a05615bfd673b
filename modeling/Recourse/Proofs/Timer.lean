import Recourse.Retry.Attempt

/-!
# The timer

Facts about instants that every statement on the course of a series needs.

* `roundUp` moves an instant to the next whole millisecond.
* No wait and no attempt ends before it begins, whatever the runtime.
-/

namespace Recourse

namespace Instant

theorem max_eq_left {a b : Instant} (h : b ≤ a) : max a b = a := by
  show (if a ≤ b then b else a) = a
  split
  · rename_i hab
    rw [le_iff] at h hab
    exact ext_nanos (by omega)
  · rfl

theorem roundUp_mono {a b : Instant} (h : a ≤ b) : a.roundUp ≤ b.roundUp := by
  rw [le_iff] at h ⊢
  simp only [roundUp, Span.milliNanos]
  omega

/-- Rounding up only rounds what lies beyond a whole millisecond. -/
theorem roundUp_add (t : Instant) (ht : t.OnTick) (nanos : Nat) :
    (Instant.mk (t.nanos + nanos)).roundUp.nanos =
      t.nanos + (Instant.mk nanos).roundUp.nanos := by
  unfold OnTick Span.milliNanos at ht
  simp only [roundUp, Span.milliNanos]
  omega

theorem le_after (t : Instant) (s : Span) : t ≤ t.after s := Nat.le_add_right _ _

theorem since_nanos_le (t earlier : Instant) :
    (t.since earlier).nanos ≤ t.nanos - earlier.nanos := Nat.min_le_left _ _

end Instant

/-! ## Waits -/

theorem Runtime.le_wake (runtime : Runtime) (t : Instant) (wait : Span) :
    t ≤ runtime.wake t wait :=
  Nat.le_trans (t.le_after wait) (runtime.after_le_wake t wait)

theorem Wait.le_ends (w : Wait) (runtime : Runtime) (t : Instant) : t ≤ w.ends runtime t := by
  cases w with
  | timer length => exact runtime.le_wake t length
  | other length => exact t.le_after length

theorem Attempt.le_ends {α : Type} (a : Attempt α) (runtime : Runtime) (t : Instant) :
    t ≤ a.ends runtime t := by
  unfold ends
  generalize a.waits = waits
  induction waits generalizing t with
  | nil => exact Nat.le_refl _
  | cons wait waits ih => exact Nat.le_trans (wait.le_ends runtime t) (ih _)

end Recourse
