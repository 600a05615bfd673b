import Mathlib.Algebra.Order.Field.Rat
import Mathlib.Tactic.Linarith
import Recourse.Proofs.Growth
import Recourse.Proofs.Renewal

/-!
# The ceiling of an interval

How far the interval of an exponential backoff may come beyond the ceiling, and
what becomes of it at the ceiling.

* `NearCeiling` is the excess that rounding leaves room for.  `nearCeiling_grow`
  says that every step ends there, from wherever it starts, and
  `NearCeiling.le_ceiling` that there is no room below six and a half days.
* `Backoff.handled_keeps` carries what questions and resets keep through all that
  can be done to a backoff: `Held` through everything, and `AtCeiling` for as long
  as there is no reset.
-/

namespace Recourse

open Binary64

attribute [local irreducible] Binary64.one Binary64.overflow

/-! ## One step -/

namespace Policy

variable {p : Policy}

/-- A span that exceeds the ceiling by a part in `2 ^ 50` of it and half a
nanosecond at most. -/
def NearCeiling (p : Policy) (s : Span) : Prop :=
  (s.nanos : ℚ) - p.ceiling.nanos ≤ p.ceiling.nanos / 2 ^ 50 + 1 / 2

theorem nearCeiling_of_le {s : Span} (h : s ≤ p.ceiling) : p.NearCeiling s := by
  have hle : (s.nanos : ℚ) ≤ p.ceiling.nanos := Nat.cast_le.2 h
  have hceiling : (0 : ℚ) ≤ p.ceiling.nanos := Nat.cast_nonneg _
  unfold NearCeiling
  linarith

/-- An excess is a whole number of nanoseconds, and below `2 ^ 49` nanoseconds it
would have to be smaller than one. -/
theorem NearCeiling.le_ceiling {s : Span} (h : p.NearCeiling s)
    (hceiling : p.ceiling.nanos < 2 ^ 49) : s ≤ p.ceiling := by
  refine Nat.le_of_not_lt fun hover => ?_
  have hexcess : (p.ceiling.nanos : ℚ) + 1 ≤ s.nanos := by
    exact_mod_cast Nat.succ_le_of_lt hover
  have hsmall : (p.ceiling.nanos : ℚ) < 2 ^ 49 := by exact_mod_cast hceiling
  unfold NearCeiling at h
  linarith

/-- It does not matter from where a step starts. -/
theorem nearCeiling_grow (hvalid : p.Valid) (current : Span) :
    p.NearCeiling (p.grow current) := by
  by_cases hnext : p.NextIsCeiling current.nanos
  · rw [grow_of_nextIsCeiling hvalid hnext]
    exact nearCeiling_of_le (Nat.le_refl _)
  · have hle : (2 : ℚ) ^ 51 * Span.stretched current.nanos p.factor ≤
        (2 ^ 51 + 2) * p.ceiling.nanos + 2 ^ 50 := by
      exact_mod_cast stretched_le hvalid hnext
    rw [NearCeiling, grow_nanos_of_not hvalid hnext]
    linarith

theorem grow_ceiling (hvalid : p.Valid) : p.grow p.ceiling = p.ceiling :=
  grow_of_nextIsCeiling hvalid (nextIsCeiling_of_ceiling_le hvalid (Nat.le_refl _))

end Policy

/-! ## Any number of steps -/

/-- What questions and resets keep is kept by everything that can be done to a
backoff. -/
theorem Backoff.handled_keeps {β : Type} [Backoff β] (kept : β → Prop)
    (hnext : ∀ b now draw, kept b → kept (Backoff.next b now draw).2)
    (history : List Handling)
    (hreset : Handling.reset ∈ history → ∀ b now, kept b → kept (Backoff.reset b now))
    {b : β} (hkept : kept b) (now : Instant) (draws : Nat → Draw) :
    kept (Backoff.handled history b now draws) := by
  induction history generalizing b now draws with
  | nil => exact hkept
  | cons handling history ih =>
    have hlater := fun hmem => hreset (List.mem_cons_of_mem handling hmem)
    cases handling with
    | pass nanos => exact ih hlater hkept _ _
    | ask => exact ih hlater (hnext _ _ _ hkept) _ _
    | blame => exact ih hlater hkept _ _
    | reset => exact ih hlater (hreset List.mem_cons_self _ _ hkept) _ _

namespace Exponential

variable {p : Policy}

/-- A backoff of the policy whose interval is near the ceiling. -/
def Held (p : Policy) (b : Exponential) : Prop := b.policy = p ∧ p.NearCeiling b.current

/-- A backoff of the policy whose interval is the ceiling. -/
def AtCeiling (p : Policy) (b : Exponential) : Prop := b.policy = p ∧ b.current = p.ceiling

theorem held_start (hvalid : p.Valid) (now : Instant) : (start p now).Held p :=
  ⟨rfl, Policy.nearCeiling_of_le (Policy.valid_iff.1 hvalid).2.1⟩

theorem Held.next (hvalid : p.Valid) {b : Exponential} (h : b.Held p) (now : Instant)
    (draw : Draw) : (Backoff.next b now draw).2.Held p := by
  rw [next_snd]
  refine ⟨h.1, ?_⟩
  rw [h.1]
  exact Policy.nearCeiling_grow hvalid b.current

theorem Held.reset (hvalid : p.Valid) {b : Exponential} (h : b.Held p) (now : Instant) :
    (Backoff.reset b now).Held p := by
  obtain ⟨rfl, _⟩ := h
  exact held_start hvalid now

theorem held_handled (hvalid : p.Valid) (history : List Handling) (made : Instant)
    (draws : Nat → Draw) : (Backoff.handled history (start p made) made draws).Held p :=
  Backoff.handled_keeps (Held p) (fun _ now draw h => h.next hvalid now draw) history
    (fun _ _ now h => h.reset hvalid now) (held_start hvalid made) made draws

theorem AtCeiling.next (hvalid : p.Valid) {b : Exponential} (h : b.AtCeiling p) (now : Instant)
    (draw : Draw) : (Backoff.next b now draw).2.AtCeiling p := by
  rw [next_snd]
  refine ⟨h.1, ?_⟩
  rw [h.1, h.2]
  exact Policy.grow_ceiling hvalid

/-- Whatever is done to a backoff of a valid policy, its interval never exceeds
the ceiling by more than a part in `2 ^ 50` of it and half a nanosecond, so that
it never exceeds a ceiling of less than `2 ^ 49` nanoseconds.  Once the interval
is the ceiling it remains so for as long as there is no reset. -/
theorem current_stays_near_ceiling (hvalid : p.Valid) (history : List Handling) (made : Instant)
    (draws : Nat → Draw) :
    let b := Backoff.handled history (start p made) made draws
    (b.current.nanos : ℚ) - p.ceiling.nanos ≤ p.ceiling.nanos / 2 ^ 50 + 1 / 2 ∧
      (p.ceiling.nanos < 2 ^ 49 → b.current ≤ p.ceiling) ∧
      (b.current = p.ceiling → ∀ later : List Handling, Handling.reset ∉ later →
        ∀ (now : Instant) (draws' : Nat → Draw),
          (Backoff.handled later b now draws').current = p.ceiling) := by
  intro b
  obtain ⟨hpolicy, hnear⟩ : b.Held p := held_handled hvalid history made draws
  refine ⟨hnear, hnear.le_ceiling, ?_⟩
  intro hcurrent later hlater now draws'
  have hstays : (Backoff.handled later b now draws').AtCeiling p :=
    Backoff.handled_keeps (AtCeiling p) (fun _ now draw h => h.next hvalid now draw) later
      (fun hmem => absurd hmem hlater) ⟨hpolicy, hcurrent⟩ now draws'
  exact hstays.2

/-- Weeks that are stretched once are a nanosecond beyond the ceiling, which is
within the bound; after another step they are at the ceiling, and stay. -/
theorem weeks_stay_near_ceiling :
    let once := Backoff.handled [.ask] (start Policy.weeks .start) .start fun _ => .least
    let twice := Backoff.handled [.ask, .pass 5, .ask] (start Policy.weeks .start) .start
      fun _ => .least
    Policy.weeks.Valid ∧
      once.current.nanos = Policy.weeks.ceiling.nanos + 1 ∧
      (once.current.nanos : ℚ) - Policy.weeks.ceiling.nanos ≤
        Policy.weeks.ceiling.nanos / 2 ^ 50 + 1 / 2 ∧
      twice.current = Policy.weeks.ceiling ∧
      (Backoff.handled [.ask, .blame, .ask] twice ⟨7⟩ fun _ => .least).current =
        Policy.weeks.ceiling := by
  intro once twice
  have hvalid : Policy.weeks.Valid := by decide +kernel
  have honce : once.current.nanos = Policy.weeks.ceiling.nanos + 1 := by decide +kernel
  have htwice : twice.current = Policy.weeks.ceiling := by decide +kernel
  have hbound := current_stays_near_ceiling hvalid [.ask] .start fun _ => .least
  have hstays := current_stays_near_ceiling hvalid [.ask, .pass 5, .ask] .start fun _ => .least
  exact ⟨hvalid, honce, hbound.1, htwice, hstays.2.2 htwice _ (by simp) _ _⟩

end Exponential

end Recourse
