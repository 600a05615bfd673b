import Recourse.Proofs.Interval

/-!
# Steps below the ceiling

Whether the ceiling comes next is decided in rounded seconds, and the step is
taken in rounded nanoseconds, so that a step may pass the ceiling.

* `secondUnits_near` and `product_near` bound the errors of the decision and of
  the step.
* `product_lt_of_not_nextIsCeiling` is what the decision lets through: a product
  that exceeds the ceiling by little.
* `stretched_le` is the interval after it.  Up to a ceiling of about six and a
  half days the excess is rounded away (`stretched_le_ceiling`).
-/

namespace Recourse

open Binary64

attribute [local irreducible] Binary64.one Binary64.overflow

namespace Binary64

theorem two_pow_le_one : 2 ^ 82 ≤ one := by
  obtain ⟨k, hk, _, hone⟩ := one_eq_two_pow
  rw [hone]
  exact Nat.pow_le_pow_right (by omega) (by omega)

/-- Whole numbers are rounded by less than one part in `2 ^ 53`. -/
theorem wholeUnits_near (n : Nat) :
    2 ^ 53 * wholeUnits n ≤ (2 ^ 53 + 1) * (n * one) ∧
      (2 ^ 53 - 1) * (n * one) ≤ 2 ^ 53 * wholeUnits n := by
  have hnormal : n * one = 0 ∨ 2 ^ 52 * 1 ≤ n * one := by
    rcases Nat.eq_zero_or_pos n with hzero | hpos
    · exact .inl (by rw [hzero, Nat.zero_mul])
    · have hone := two_pow_le_one
      have hle := Nat.mul_le_mul_right one hpos
      exact .inr (by omega)
  have habove := nearestUnits_le_of_normal Nat.one_pos hnormal
  have hbelow := le_nearestUnits_of_normal Nat.one_pos hnormal
  rw [Nat.mul_one] at habove hbelow
  exact ⟨habove, hbelow⟩

end Binary64

namespace Span

theorem partUnits_normal (nanos : Nat) :
    nanos * one * one = 0 ∨ 2 ^ 52 * (secondNanos * one) ≤ nanos * one * one := by
  rcases Nat.eq_zero_or_pos nanos with hzero | hpos
  · exact .inl (by rw [hzero, Nat.zero_mul, Nat.zero_mul])
  · refine .inr ?_
    have hone := two_pow_le_one
    have hsecond : 2 ^ 52 * secondNanos ≤ one := by
      simp only [secondNanos]
      omega
    calc 2 ^ 52 * (secondNanos * one) = 2 ^ 52 * secondNanos * one := by ring
      _ ≤ 1 * one * one := by
          rw [Nat.one_mul]
          exact Nat.mul_le_mul_right one hsecond
      _ ≤ nanos * one * one := Nat.mul_le_mul_right one (Nat.mul_le_mul_right one hpos)

theorem partUnits_near (nanos : Nat) :
    2 ^ 53 * (partUnits nanos * secondNanos) ≤ (2 ^ 53 + 1) * (nanos * one) ∧
      (2 ^ 53 - 1) * (nanos * one) ≤ 2 ^ 53 * (partUnits nanos * secondNanos) := by
  have hnormal := partUnits_normal nanos
  have habove := nearestUnits_le_of_normal secondNanos_mul_pos hnormal
  have hbelow := le_nearestUnits_of_normal secondNanos_mul_pos hnormal
  constructor
  · refine Nat.le_of_mul_le_mul_right ?_ pos_one
    calc 2 ^ 53 * (partUnits nanos * secondNanos) * one =
          2 ^ 53 * (partUnits nanos * (secondNanos * one)) := by ring
      _ ≤ (2 ^ 53 + 1) * (nanos * one * one) := habove
      _ = (2 ^ 53 + 1) * (nanos * one) * one := by ring
  · refine Nat.le_of_mul_le_mul_right ?_ pos_one
    calc (2 ^ 53 - 1) * (nanos * one) * one = (2 ^ 53 - 1) * (nanos * one * one) := by ring
      _ ≤ 2 ^ 53 * (partUnits nanos * (secondNanos * one)) := hbelow
      _ = 2 ^ 53 * (partUnits nanos * secondNanos) * one := by ring

theorem parts_normal (nanos : Nat) :
    wholeUnits (nanos / secondNanos) + partUnits (nanos % secondNanos) = 0 ∨
      2 ^ 52 * 1 ≤
        wholeUnits (nanos / secondNanos) + partUnits (nanos % secondNanos) := by
  have hwhole : wholeUnits (nanos / secondNanos) = 0 ∨
      2 ^ 52 ≤ wholeUnits (nanos / secondNanos) := by
    have hone := two_pow_le_one
    rcases Nat.eq_zero_or_pos (nanos / secondNanos) with hzero | hpos
    · exact .inl (by rw [hzero, wholeUnits_of_le (by omega), Nat.zero_mul])
    · have hle := one_le_wholeUnits hpos
      exact .inr (by omega)
  have hpart : partUnits (nanos % secondNanos) = 0 ∨
      2 ^ 52 ≤ partUnits (nanos % secondNanos) := by
    rcases partUnits_normal (nanos % secondNanos) with hzero | hnormal
    · exact .inl (by rw [partUnits, hzero, nearestUnits_zero secondNanos_mul_pos])
    · exact .inr (le_nearestUnits secondNanos_mul_pos (spacing_two_pow_dvd 52) hnormal)
  omega

/-- The reading in seconds is rounded twice. -/
theorem secondUnits_near (nanos : Nat) :
    2 ^ 106 * (secondUnits nanos * secondNanos) ≤ (2 ^ 53 + 1) ^ 2 * (nanos * one) ∧
      (2 ^ 53 - 1) ^ 2 * (nanos * one) ≤ 2 ^ 106 * (secondUnits nanos * secondNanos) := by
  have hwhole := wholeUnits_near (nanos / secondNanos)
  have hpart := partUnits_near (nanos % secondNanos)
  have habove := nearestUnits_le_of_normal Nat.one_pos (parts_normal nanos)
  have hbelow := le_nearestUnits_of_normal Nat.one_pos (parts_normal nanos)
  have hsplit : nanos * one =
      nanos / secondNanos * one * secondNanos + nanos % secondNanos * one := by
    nth_rewrite 1 [← Nat.div_add_mod nanos secondNanos]
    ring
  have hsum : (wholeUnits (nanos / secondNanos) + partUnits (nanos % secondNanos)) * secondNanos =
      wholeUnits (nanos / secondNanos) * secondNanos +
        partUnits (nanos % secondNanos) * secondNanos := Nat.add_mul _ _ _
  rw [hsplit]
  unfold secondUnits
  simp only [Nat.mul_one, secondNanos] at *
  constructor <;> omega

/-- So is a product. -/
theorem product_near {factor : Nat} (nanos : Nat) (hfactor : one ≤ factor) :
    2 ^ 106 * nearestUnits (wholeUnits nanos * factor) one ≤
      (2 ^ 53 + 1) ^ 2 * (nanos * factor) := by
  have hnormal : wholeUnits nanos * factor = 0 ∨
      2 ^ 52 * one ≤ wholeUnits nanos * factor := by
    rcases Nat.eq_zero_or_pos nanos with hzero | hpos
    · exact .inl (by rw [hzero, wholeUnits_of_le (by omega), Nat.zero_mul, Nat.zero_mul])
    · have hone := two_pow_le_one
      exact .inr (Nat.mul_le_mul (Nat.le_trans (by omega) (one_le_wholeUnits hpos)) hfactor)
  refine Nat.le_of_mul_le_mul_right ?_ pos_one
  calc 2 ^ 106 * nearestUnits (wholeUnits nanos * factor) one * one =
        2 ^ 53 * (2 ^ 53 * (nearestUnits (wholeUnits nanos * factor) one * one)) := by ring
    _ ≤ 2 ^ 53 * ((2 ^ 53 + 1) * (wholeUnits nanos * factor)) :=
        Nat.mul_le_mul_left _ (nearestUnits_le_of_normal pos_one hnormal)
    _ = (2 ^ 53 + 1) * factor * (2 ^ 53 * wholeUnits nanos) := by ring
    _ ≤ (2 ^ 53 + 1) * factor * ((2 ^ 53 + 1) * (nanos * one)) :=
        Nat.mul_le_mul_left _ (wholeUnits_near nanos).1
    _ = (2 ^ 53 + 1) ^ 2 * (nanos * factor) * one := by ring

end Span

namespace Policy

open Recourse.Span

variable {p : Policy}

/-- If the ceiling does not come next, the exact product exceeds it by little at
most. -/
theorem product_lt_of_not_nextIsCeiling (hvalid : p.Valid) {nanos : Nat}
    (h : ¬p.NextIsCeiling nanos) :
    (2 ^ 53 - 1) ^ 2 * (nanos * p.factor) < (2 ^ 53 + 1) ^ 2 * (p.ceiling.nanos * one) := by
  have hpos := Nat.lt_of_lt_of_le pos_one hvalid.multiplier.1
  have hreading : secondUnits nanos * p.factor < secondUnits p.ceiling.nanos * one := by
    refine Nat.lt_of_not_le fun hle => h ?_
    exact nearestUnits_le hpos (secondUnits_dvd nanos) hle
  have hcurrent := (secondUnits_near nanos).2
  have hceiling := (secondUnits_near p.ceiling.nanos).1
  refine Nat.lt_of_mul_lt_mul_right (a := one) ?_
  calc (2 ^ 53 - 1) ^ 2 * (nanos * p.factor) * one =
        (2 ^ 53 - 1) ^ 2 * (nanos * one) * p.factor := by ring
    _ ≤ 2 ^ 106 * (secondUnits nanos * secondNanos) * p.factor :=
        Nat.mul_le_mul_right p.factor hcurrent
    _ = 2 ^ 106 * secondNanos * (secondUnits nanos * p.factor) := by ring
    _ < 2 ^ 106 * secondNanos * (secondUnits p.ceiling.nanos * one) :=
        Nat.mul_lt_mul_of_pos_left hreading (by decide)
    _ = 2 ^ 106 * (secondUnits p.ceiling.nanos * secondNanos) * one := by ring
    _ ≤ (2 ^ 53 + 1) ^ 2 * (p.ceiling.nanos * one) * one := Nat.mul_le_mul_right one hceiling

/-- A step passes the ceiling by less than a part in `2 ^ 50` and half a
nanosecond. -/
theorem stretched_le (hvalid : p.Valid) {nanos : Nat} (h : ¬p.NextIsCeiling nanos) :
    2 ^ 51 * stretched nanos p.factor ≤ (2 ^ 51 + 2) * p.ceiling.nanos + 2 ^ 50 := by
  have hproduct := product_lt_of_not_nextIsCeiling hvalid h
  have hrounded := product_near nanos hvalid.multiplier.1
  have hstep := (le_stretched_iff (stretched_le_maxWord nanos p.factor)).1 (Nat.le_refl _)
  rw [Nat.mul_assoc] at hstep
  refine Nat.le_of_mul_le_mul_right ?_ pos_one
  rw [Nat.add_mul, Nat.mul_assoc, Nat.mul_assoc]
  omega

/-- So it does not pass a ceiling of less than `2 ^ 49` nanoseconds. -/
theorem stretched_le_ceiling (hvalid : p.Valid) (hceiling : p.ceiling.nanos < 2 ^ 49)
    {nanos : Nat} (h : ¬p.NextIsCeiling nanos) :
    stretched nanos p.factor ≤ p.ceiling.nanos := by
  have hle := stretched_le hvalid h
  omega

end Policy

end Recourse
