import Mathlib.Algebra.Order.Floor.Semifield
import Mathlib.Data.Rat.Floor
import Mathlib.Tactic.Linarith
import Mathlib.Tactic.Ring
import Recourse.Proofs.Exponential
import Recourse.Proofs.Overshoot

/-!
# Jitter

The wait for an interval is picked from a band around it, in six rounded
operations and a rounding to whole nanoseconds.

* `spread` is the point of the band that a draw picks.  `spread_eq_finite` reads
  it in units: no operation on the way overflows, and the one difference that
  could fall below zero does not.
* `ratio_nearestUnits` is the error of one operation, whatever its size: a part
  in `2 ^ 53` of the exact result and half a unit.
* `le_spreadUnits` and `spreadUnits_le` add the errors up.  A draw takes the point
  neither below the lower end of the band nor above its width, since both can be
  held.
* `spreadUnits_mono`: a larger draw picks no earlier point.
-/

namespace Recourse

open Binary64

attribute [local irreducible] Binary64.one Binary64.overflow

namespace Binary64

/-! ## Numbers from zero to one -/

/-- From zero up to one, without one itself. -/
structure BelowOne (x : Binary64) : Prop where
  nonneg : (ofNat 0).atMost x = true
  less : x.less (ofNat 1) = true

theorem one_lt_overflow : one < overflow := by
  obtain ⟨k, _, hk, hone⟩ := one_eq_two_pow
  rw [hone]
  exact two_pow_lt_overflow (by omega)

theorem ofNat_zero : ∃ fits, ofNat 0 = finite false 0 fits := by
  have hzero := ofNat_eq_finite (n := 0) (by omega)
  rwa [wholeUnits_of_le (by omega), Nat.zero_mul] at hzero

theorem atMost_of_less {x y : Binary64} (h : x.less y = true) : x.atMost y = true := by
  rw [atMost, h, Bool.true_or]

/-- A number from zero to one is finite, and if it has a sign it is zero. -/
theorem eq_finite_of_between {x : Binary64} (hnonneg : (ofNat 0).atMost x = true)
    (hle : x.atMost (ofNat 1) = true) :
    ∃ negative fits, x = finite negative x.units fits ∧ x.units ≤ one ∧
      (negative = true → x.units = 0) := by
  obtain ⟨_, hzero⟩ := ofNat_zero
  obtain ⟨_, hone⟩ := ofNat_one
  have hover := one_lt_overflow
  rw [hzero] at hnonneg
  rw [hone] at hle
  cases x with
  | nan => cases hle
  | infinite negative =>
    cases negative <;>
      simp only [atMost, less, same, compare?, scaled, Bool.or_eq_true, beq_iff_eq,
        Option.some.injEq, Int.compare_eq_lt, Int.compare_eq_eq] at hnonneg hle <;> omega
  | finite negative count fits =>
    cases negative with
    | false => exact ⟨false, fits, rfl, finite_atMost_finite.1 hle, fun h => (by cases h)⟩
    | true =>
      have hnone : count = 0 := by
        simp only [atMost, less, same, compare?, scaled, Bool.or_eq_true, beq_iff_eq,
          Option.some.injEq, Int.compare_eq_lt, Int.compare_eq_eq] at hnonneg
        omega
      subst hnone
      exact ⟨true, fits, rfl, Nat.zero_le _, fun _ => rfl⟩

theorem eq_finite_of_pos {x : Binary64} (hpos : (ofNat 0).less x = true)
    (hle : x.atMost (ofNat 1) = true) :
    ∃ fits, x = finite false x.units fits ∧ 0 < x.units ∧ x.units ≤ one := by
  obtain ⟨negative, fits, hx, hmost, hzero⟩ := eq_finite_of_between (atMost_of_less hpos) hle
  obtain ⟨_, hnone⟩ := ofNat_zero
  rw [hnone] at hpos
  cases negative with
  | false =>
    refine ⟨fits, hx, ?_, hmost⟩
    rw [hx] at hpos
    exact finite_less_finite.1 hpos
  | true =>
    have hunits := hzero rfl
    generalize x.units = count at *
    subst hx hunits
    cases hpos

theorem BelowOne.eq_finite {x : Binary64} (h : x.BelowOne) :
    ∃ negative fits, x = finite negative x.units fits ∧ x.units < one ∧
      (negative = true → x.units = 0) := by
  obtain ⟨negative, fits, hx, _, hzero⟩ := eq_finite_of_between h.nonneg (atMost_of_less h.less)
  refine ⟨negative, fits, hx, ?_, hzero⟩
  cases negative with
  | false =>
    obtain ⟨_, hone⟩ := ofNat_one
    have hless := h.less
    rw [hx, hone] at hless
    exact finite_less_finite.1 hless
  | true =>
    rw [hzero rfl]
    exact pos_one

/-- Numbers below one are ordered by their units. -/
theorem BelowOne.units_le {x y : Binary64} (hx : x.BelowOne) (hy : y.BelowOne)
    (h : x.atMost y = true) : x.units ≤ y.units := by
  obtain ⟨n, _, hxeq, _, hxzero⟩ := hx.eq_finite
  obtain ⟨m, _, hyeq, _, _⟩ := hy.eq_finite
  cases n with
  | true =>
    rw [hxzero rfl]
    exact Nat.zero_le _
  | false =>
    rw [hxeq, hyeq] at h
    cases m with
    | false => exact finite_atMost_finite.1 h
    | true =>
      rw [eq_zero_of_atMost_negative h]
      exact Nat.zero_le _

/-! ## Differences -/

/-- A difference that does not fall below zero. -/
theorem finite_add_negative {u v : Nat} {hu : Representable u} {hv : Representable v}
    (h : v ≤ u) : finite false u hu + finite true v hv = nearest false (u - v) 1 := by
  show addFinite false u true v = _
  rw [addFinite, if_neg Bool.false_ne_true]
  rcases Nat.lt_or_eq_of_le h with hlt | rfl
  · rw [if_pos hlt]
  · rw [if_neg (Nat.lt_irrefl v), if_neg (Nat.lt_irrefl v), Nat.sub_self]
    rfl

theorem finite_sub_finite {u v : Nat} {hu : Representable u} {hv : Representable v}
    (h : v ≤ u) : finite false u hu - finite false v hv = nearest false (u - v) 1 := by
  show finite false u hu + finite true v hv = _
  exact finite_add_negative h

/-- A product with a number that has a sign only if it is zero is added as if it
had none. -/
theorem finite_add_product {l u w : Nat} {negative : Bool} {hl : Representable l}
    {hu : Representable u} {hw : Representable w} (hzero : negative = true → u = 0)
    (hproduct : nearestUnits (u * w) one < overflow) :
    finite false l hl + finite negative u hu * finite false w hw =
      nearest false (l + nearestUnits (u * w) one) 1 := by
  have fits : Representable (nearestUnits (u * w) one) :=
    ⟨hproduct, spacing_nearestUnits_dvd _ _⟩
  have hmul : finite negative u hu * finite false w hw =
      finite negative (nearestUnits (u * w) one) fits := by
    show nearest (negative != false) (u * w) one = _
    rw [Bool.bne_false]
    exact dif_pos hproduct
  rw [hmul]
  cases negative with
  | false => exact finite_add_finite
  | true =>
    have hnone : nearestUnits (u * w) one = 0 := by
      rw [hzero rfl, Nat.zero_mul, nearestUnits_zero pos_one]
    rw [finite_add_negative (by omega), hnone]
    rfl

/-! ## Ratios -/

/-- A count of units as a number of ones. -/
def ratio (count : Nat) : ℚ := count / one

/-- The exact value of a number, where NaN and the infinities count as zero. -/
def toRat : Binary64 → ℚ
  | finite false count _ => ratio count
  | finite true count _ => -ratio count
  | _ => 0

theorem one_cast_pos : (0 : ℚ) < one := Nat.cast_pos.2 pos_one

theorem ratio_nonneg (count : Nat) : 0 ≤ ratio count :=
  div_nonneg (Nat.cast_nonneg _) (Nat.cast_nonneg _)

theorem ratio_mono {a b : Nat} (h : a ≤ b) : ratio a ≤ ratio b :=
  div_le_div_of_nonneg_right (Nat.cast_le.2 h) (Nat.cast_nonneg _)

theorem ratio_one : ratio one = 1 := div_self one_cast_pos.ne'

theorem ratio_add (a b : Nat) : ratio (a + b) = ratio a + ratio b := by
  rw [ratio, Nat.cast_add, add_div, ratio, ratio]

theorem ratio_sub {a b : Nat} (h : b ≤ a) : ratio (a - b) = ratio a - ratio b := by
  rw [ratio, Nat.cast_sub h, sub_div, ratio, ratio]

/-- Below `2 ^ 52` units all whole numbers of units can be held. -/
theorem two_pow_mul_spacing_le_add (count : Nat) : 2 ^ 52 * spacing count ≤ count + 2 ^ 52 := by
  rcases Nat.lt_or_ge count (2 ^ 52) with hsmall | hlarge
  · have hlog : count.log2 ≤ 52 :=
      Nat.le_trans (log2_le_log2 (Nat.le_of_lt hsmall)) (Nat.le_of_eq Nat.log2_two_pow)
    rw [spacing, Nat.sub_eq_zero_of_le hlog, Nat.pow_eq, Nat.pow_zero]
    omega
  · exact Nat.le_trans (two_pow_mul_spacing_le hlarge) (Nat.le_add_right _ _)

theorem nearestUnits_bounds (num : Nat) {den : Nat} (hden : 0 < den) :
    2 ^ 53 * (nearestUnits num den * den) ≤ 2 ^ 53 * num + (num + 2 ^ 52 * den) ∧
      2 ^ 53 * num ≤ 2 ^ 53 * (nearestUnits num den * den) + (num + 2 ^ 52 * den) := by
  have hspacing : 2 ^ 52 * (spacing (num / den) * den) ≤ num + 2 ^ 52 * den := by
    calc 2 ^ 52 * (spacing (num / den) * den) = 2 ^ 52 * spacing (num / den) * den := by ring
      _ ≤ (num / den + 2 ^ 52) * den :=
          Nat.mul_le_mul_right den (two_pow_mul_spacing_le_add (num / den))
      _ = num / den * den + 2 ^ 52 * den := Nat.add_mul _ _ _
      _ ≤ num + 2 ^ 52 * den := Nat.add_le_add_right (Nat.div_mul_le_self num den) _
  obtain ⟨habove, hbelow⟩ := nearestUnits_near num hden
  constructor <;> omega

/-- One operation errs by a part in `2 ^ 53` of its exact result and half a unit,
which is very little of one. -/
theorem ratio_nearestUnits (num : Nat) {den : Nat} (hden : 0 < den) :
    ratio (nearestUnits num den) ≤ (1 + 1 / 2 ^ 53) * (ratio num / den) + 1 / 2 ^ 80 ∧
      (1 - 1 / 2 ^ 53) * (ratio num / den) - 1 / 2 ^ 80 ≤ ratio (nearestUnits num den) := by
  have hone : (2 : ℚ) ^ 82 ≤ one := by exact_mod_cast two_pow_le_one
  have hpos : (0 : ℚ) < one * den := mul_pos one_cast_pos (Nat.cast_pos.2 hden)
  have hnum : ratio num / den * (one * den) = num := by
    rw [ratio, div_div, div_mul_cancel₀ _ hpos.ne']
  have hnearest : ratio (nearestUnits num den) * (one * den) = nearestUnits num den * den := by
    rw [ratio, ← mul_assoc, div_mul_cancel₀ _ one_cast_pos.ne']
  have hlost : (2 : ℚ) ^ 82 * den ≤ one * den :=
    mul_le_mul_of_nonneg_right hone (Nat.cast_nonneg den)
  obtain ⟨habove, hbelow⟩ := nearestUnits_bounds num hden
  have habove : (2 : ℚ) ^ 53 * (nearestUnits num den * den) ≤
      2 ^ 53 * num + (num + 2 ^ 52 * den) := by exact_mod_cast habove
  have hbelow : (2 : ℚ) ^ 53 * num ≤
      2 ^ 53 * (nearestUnits num den * den) + (num + 2 ^ 52 * den) := by exact_mod_cast hbelow
  constructor
  · refine le_of_mul_le_mul_right ?_ hpos
    rw [add_mul, mul_assoc, hnum, hnearest]
    linarith
  · refine le_of_mul_le_mul_right ?_ hpos
    rw [sub_mul, mul_assoc, hnum, hnearest]
    linarith

theorem ratio_rounded (count : Nat) :
    ratio (nearestUnits count 1) ≤ (1 + 1 / 2 ^ 53) * ratio count + 1 / 2 ^ 80 ∧
      (1 - 1 / 2 ^ 53) * ratio count - 1 / 2 ^ 80 ≤ ratio (nearestUnits count 1) := by
  have hnear := ratio_nearestUnits count Nat.one_pos
  rwa [Nat.cast_one, div_one] at hnear

theorem ratio_product (a b : Nat) :
    ratio (nearestUnits (a * b) one) ≤ (1 + 1 / 2 ^ 53) * (ratio a * ratio b) + 1 / 2 ^ 80 ∧
      (1 - 1 / 2 ^ 53) * (ratio a * ratio b) - 1 / 2 ^ 80 ≤
        ratio (nearestUnits (a * b) one) := by
  have hnear := ratio_nearestUnits (a * b) pos_one
  have hexact : ratio (a * b) / one = ratio a * ratio b := by
    rw [ratio, Nat.cast_mul, div_div, mul_div_mul_comm, ratio, ratio]
  rwa [hexact] at hnear

theorem ratio_wholeUnits (n : Nat) :
    ratio (wholeUnits n) ≤ (1 + 1 / 2 ^ 53) * n + 1 / 2 ^ 80 ∧
      (1 - 1 / 2 ^ 53) * n - 1 / 2 ^ 80 ≤ ratio (wholeUnits n) := by
  have hnear := ratio_rounded (n * one)
  have hexact : ratio (n * one) = n := by
    rw [ratio, Nat.cast_mul, mul_div_cancel_right₀ _ one_cast_pos.ne']
  rwa [hexact] at hnear

end Binary64

namespace Span

/-! ## The band -/

/-- The point of the band that a draw picks, before it is rounded to whole
nanoseconds. -/
def spread (interval : Span) (factor draw : Binary64) : Binary64 :=
  let base := interval.inNanos
  let delta := factor * base
  let low := base - delta
  let high := base + delta
  low + draw * (high - low)

theorem jittered_of_pos (interval : Span) {factor : Binary64}
    (hpos : ¬factor.atMost (.ofNat 0) = true) (draw : Binary64) :
    interval.jittered factor draw = ofNearestNanos (interval.spread factor draw) := by
  rw [jittered, if_neg hpos, spread]

/-- The units of how far the band reaches to either side. -/
def reachUnits (nanos factor : Nat) : Nat := nearestUnits (factor * wholeUnits nanos) one

/-- The units of the lower end. -/
def lowUnits (nanos factor : Nat) : Nat :=
  nearestUnits (wholeUnits nanos - reachUnits nanos factor) 1

/-- The units of the upper end. -/
def highUnits (nanos factor : Nat) : Nat :=
  nearestUnits (wholeUnits nanos + reachUnits nanos factor) 1

/-- The units from end to end. -/
def widthUnits (nanos factor : Nat) : Nat :=
  nearestUnits (highUnits nanos factor - lowUnits nanos factor) 1

/-- The units from the lower end to the point that is picked. -/
def pickedUnits (nanos factor draw : Nat) : Nat :=
  nearestUnits (draw * widthUnits nanos factor) one

/-- The units of the point that is picked. -/
def spreadUnits (nanos factor draw : Nat) : Nat :=
  nearestUnits (lowUnits nanos factor + pickedUnits nanos factor draw) 1

section Units

variable {nanos factor draw : Nat}

/-- A product with one at most does not grow. -/
theorem nearestUnits_mul_le {a b : Nat} (ha : a ≤ one) (hb : spacing b ∣ b) :
    nearestUnits (a * b) one ≤ b := by
  refine nearestUnits_le pos_one hb ?_
  rw [Nat.mul_comm]
  exact Nat.mul_le_mul_left b ha

theorem reachUnits_le (hfactor : factor ≤ one) :
    reachUnits nanos factor ≤ wholeUnits nanos :=
  nearestUnits_mul_le hfactor (spacing_nearestUnits_dvd _ _)

theorem lowUnits_le : lowUnits nanos factor ≤ wholeUnits nanos := by
  refine nearestUnits_le Nat.one_pos (spacing_nearestUnits_dvd _ _) ?_
  rw [Nat.mul_one]
  exact Nat.sub_le _ _

theorem lowUnits_le_highUnits : lowUnits nanos factor ≤ highUnits nanos factor := by
  refine nearestUnits_mono Nat.one_pos Nat.one_pos ?_
  omega

theorem pickedUnits_le (hdraw : draw ≤ one) :
    pickedUnits nanos factor draw ≤ widthUnits nanos factor :=
  nearestUnits_mul_le hdraw (spacing_nearestUnits_dvd _ _)

theorem nearestUnits_le_two_pow {count k : Nat} (h : count ≤ 2 ^ k * one) :
    nearestUnits count 1 ≤ 2 ^ k * one :=
  nearestUnits_le Nat.one_pos (spacing_two_pow_mul_one_dvd k) (by rwa [Nat.mul_one])

theorem ends_le (hfactor : factor ≤ one) (hnanos : nanos ≤ most) :
    wholeUnits nanos ≤ 2 ^ 94 * one ∧
      wholeUnits nanos + reachUnits nanos factor ≤ 2 ^ 95 * one ∧
      widthUnits nanos factor ≤ 2 ^ 95 * one := by
  have hlt := most_lt
  have hwhole : wholeUnits nanos ≤ 2 ^ 94 * one :=
    wholeUnits_le_two_pow (Nat.le_trans hnanos (Nat.le_of_lt hlt))
  have hsum : wholeUnits nanos + reachUnits nanos factor ≤ 2 ^ 95 * one := by
    have hreach : reachUnits nanos factor ≤ wholeUnits nanos := reachUnits_le hfactor
    omega
  have hhigh : highUnits nanos factor ≤ 2 ^ 95 * one := nearestUnits_le_two_pow hsum
  refine ⟨hwhole, hsum, nearestUnits_le_two_pow ?_⟩
  exact Nat.le_trans (Nat.sub_le _ _) hhigh

end Units

/-- No operation overflows, and no difference falls below zero. -/
theorem spread_eq_finite (interval : Span) {factor : Nat} (fits : Representable factor)
    (hfactor : factor ≤ one) {draw : Binary64} (hdraw : draw.BelowOne) :
    ∃ fits', interval.spread (finite false factor fits) draw =
      finite false (spreadUnits interval.nanos factor draw.units) fits' := by
  have hlt := most_lt
  have hmost := interval.le_most
  obtain ⟨negative, _, hdrawn, hless, hzero⟩ := hdraw.eq_finite
  obtain ⟨hwhole, hsum, hwidth⟩ := ends_le hfactor hmost
  have hlow : lowUnits interval.nanos factor ≤ wholeUnits interval.nanos := lowUnits_le
  have hpicked : pickedUnits interval.nanos factor draw.units ≤
      widthUnits interval.nanos factor := pickedUnits_le (Nat.le_of_lt hless)
  generalize draw.units = u at *
  subst hdrawn
  obtain ⟨_, hbase⟩ : ∃ fits, interval.inNanos = finite false (wholeUnits interval.nanos) fits :=
    ofNat_eq_finite (by omega)
  obtain ⟨_, hdelta⟩ : ∃ fits', finite false factor fits * interval.inNanos =
      finite false (reachUnits interval.nanos factor) fits' := by
    rw [hbase, finite_mul_finite]
    refine nearest_eq_finite 94 pos_one (by omega) ?_
    rw [Nat.mul_comm factor]
    exact Nat.mul_le_mul hwhole hfactor
  obtain ⟨_, hlowest⟩ : ∃ fits',
      interval.inNanos - finite false factor fits * interval.inNanos =
        finite false (lowUnits interval.nanos factor) fits' := by
    rw [hdelta, hbase, finite_sub_finite (reachUnits_le hfactor)]
    exact nearest_eq_finite 94 Nat.one_pos (by omega) (by omega)
  obtain ⟨_, hhighest⟩ : ∃ fits',
      interval.inNanos + finite false factor fits * interval.inNanos =
        finite false (highUnits interval.nanos factor) fits' := by
    rw [hdelta, hbase, finite_add_finite]
    exact nearest_eq_finite 95 Nat.one_pos (by omega) (by omega)
  have hhigh : highUnits interval.nanos factor ≤ 2 ^ 95 * one := nearestUnits_le_two_pow hsum
  obtain ⟨hfits, hbetween⟩ : ∃ fits',
      nearest false (highUnits interval.nanos factor - lowUnits interval.nanos factor) 1 =
        finite false (widthUnits interval.nanos factor) fits' :=
    nearest_eq_finite 95 Nat.one_pos (by omega) (by omega)
  simp only [spread, hlowest, hhighest]
  rw [finite_sub_finite lowUnits_le_highUnits, hbetween,
    finite_add_product hzero (Nat.lt_of_le_of_lt hpicked hfits.1)]
  refine nearest_eq_finite 96 Nat.one_pos (by omega) ?_
  rw [Nat.mul_one]
  show lowUnits interval.nanos factor + pickedUnits interval.nanos factor u ≤ 2 ^ 96 * one
  omega

/-! ## Errors -/

section Errors

variable {nanos factor draw : Nat}

/-- How far the band reaches, against the exact fraction of the interval. -/
theorem ratio_reachUnits (nanos : Nat) (hfactor : factor ≤ one) :
    ratio (reachUnits nanos factor) ≤
      (1 + 1 / 2 ^ 53) ^ 2 * (nanos * ratio factor) + 1 / 2 ^ 78 := by
  have hmost : ratio factor ≤ 1 := ratio_one ▸ ratio_mono hfactor
  have hwhole : ratio factor * ratio (wholeUnits nanos) ≤
      ratio factor * ((1 + 1 / 2 ^ 53) * nanos + 1 / 2 ^ 80) :=
    mul_le_mul_of_nonneg_left (ratio_wholeUnits nanos).1 (ratio_nonneg factor)
  have hproduct := (ratio_product factor (wholeUnits nanos)).1
  unfold reachUnits
  linarith

/-- A point is picked from the lower end on, since that end can be held. -/
theorem le_spreadUnits (hfactor : factor ≤ one) :
    (nanos : ℚ) * (1 - ratio factor) - (nanos / 2 ^ 49 + 1 / 2) ≤
      ratio (spreadUnits nanos factor draw) := by
  have hreach := ratio_reachUnits nanos hfactor
  have hwhole := (ratio_wholeUnits nanos).2
  have hlow : ratio (lowUnits nanos factor) ≤ ratio (spreadUnits nanos factor draw) := by
    refine ratio_mono (le_nearestUnits Nat.one_pos (spacing_nearestUnits_dvd _ _) ?_)
    rw [Nat.mul_one]
    exact Nat.le_add_right _ _
  have hrounded := (ratio_rounded (wholeUnits nanos - reachUnits nanos factor)).2
  rw [ratio_sub (reachUnits_le hfactor)] at hrounded
  have hnanos : (0 : ℚ) ≤ nanos := Nat.cast_nonneg nanos
  have hfraction : (nanos : ℚ) * ratio factor ≤ nanos :=
    mul_le_of_le_one_right hnanos (ratio_one ▸ ratio_mono hfactor)
  unfold lowUnits at hlow
  linarith

/-- No point is picked beyond the width from the lower end, since the width can
be held. -/
theorem spreadUnits_le (hfactor : factor ≤ one) (hdraw : draw ≤ one) :
    ratio (spreadUnits nanos factor draw) ≤
      nanos * (1 + ratio factor) + (nanos / 2 ^ 49 + 1 / 2) := by
  have hreach := ratio_reachUnits nanos hfactor
  have hwhole := (ratio_wholeUnits nanos).1
  have hhigh := (ratio_rounded (wholeUnits nanos + reachUnits nanos factor)).1
  rw [ratio_add] at hhigh
  have hwidth := (ratio_rounded (highUnits nanos factor - lowUnits nanos factor)).1
  rw [ratio_sub lowUnits_le_highUnits] at hwidth
  have hpicked : ratio (pickedUnits nanos factor draw) ≤ ratio (widthUnits nanos factor) :=
    ratio_mono (pickedUnits_le hdraw)
  have hspread :=
    (ratio_rounded (lowUnits nanos factor + pickedUnits nanos factor draw)).1
  rw [ratio_add] at hspread
  have hlow := ratio_nonneg (lowUnits nanos factor)
  have hnanos : (0 : ℚ) ≤ nanos := Nat.cast_nonneg nanos
  have hfraction : (nanos : ℚ) * ratio factor ≤ nanos :=
    mul_le_of_le_one_right hnanos (ratio_one ▸ ratio_mono hfactor)
  have hexact : 0 ≤ (nanos : ℚ) * ratio factor := mul_nonneg hnanos (ratio_nonneg factor)
  change ratio (highUnits nanos factor) ≤ _ at hhigh
  change ratio (widthUnits nanos factor) ≤ _ at hwidth
  change ratio (spreadUnits nanos factor draw) ≤ _ at hspread
  linarith

theorem spreadUnits_mono {later : Nat} (h : draw ≤ later) :
    spreadUnits nanos factor draw ≤ spreadUnits nanos factor later := by
  have hpicked : pickedUnits nanos factor draw ≤ pickedUnits nanos factor later :=
    nearestUnits_mono pos_one pos_one (Nat.mul_le_mul_right one (Nat.mul_le_mul_right _ h))
  refine nearestUnits_mono Nat.one_pos Nat.one_pos ?_
  omega

end Errors

/-! ## Waits -/

/-- What becomes of an interval when the draw is below one. -/
structure InBand (interval : Span) (factor draw : Binary64) : Prop where
  /-- No operation overflows, or falls below zero. -/
  finite : (interval.spread factor draw).isFinite = true
  nonneg : 0 ≤ (interval.spread factor draw).toRat
  /-- The point that is picked is rounded to the nearest whole nanosecond, half of
  one counting as a whole one, and held within 64 bits. -/
  rounded : (interval.jittered factor draw).nanos =
    min ⌊(interval.spread factor draw).toRat + 1 / 2⌋₊ (2 ^ 64 - 1)
  /-- The errors of all operations together are a part in `2 ^ 49` of the interval
  and a nanosecond. -/
  above : min ((interval.nanos : ℚ) * (1 - factor.toRat)) (2 ^ 64 - 1) -
    (interval.nanos / 2 ^ 49 + 1) ≤ (interval.jittered factor draw).nanos
  below : ((interval.jittered factor draw).nanos : ℚ) ≤
    min (interval.nanos * (1 + factor.toRat) + (interval.nanos / 2 ^ 49 + 1)) (2 ^ 64 - 1)

theorem floor_div_add_half (a : Nat) {b : Nat} (hb : 0 < b) :
    ⌊(a : ℚ) / b + 1 / 2⌋₊ = (2 * a + b) / (2 * b) := by
  have hquotient : (a : ℚ) / b + 1 / 2 = ((2 * a + b : ℕ) : ℚ) / (2 * b : ℕ) := by
    have hne : (b : ℚ) ≠ 0 := Nat.cast_ne_zero.2 hb.ne'
    push_cast
    field_simp
  rw [hquotient, Nat.floor_div_eq_div]

theorem jittered_nanos (interval : Span) {factor : Nat} (fits : Representable factor)
    (hpos : 0 < factor) (hfactor : factor ≤ one) {draw : Binary64} (hdraw : draw.BelowOne) :
    (interval.jittered (finite false factor fits) draw).nanos =
      min ⌊ratio (spreadUnits interval.nanos factor draw.units) + 1 / 2⌋₊ maxWord := by
  obtain ⟨_, hzero⟩ := ofNat_zero
  obtain ⟨_, hspread⟩ := interval.spread_eq_finite fits hfactor hdraw
  have hjitter : ¬(finite false factor fits).atMost (.ofNat 0) = true := by
    rw [hzero, finite_atMost_finite]
    omega
  rw [jittered_of_pos interval hjitter, hspread, ofNearestNanos, clamp_nanos, nearestWord,
    if_neg Bool.false_ne_true, ratio, floor_div_add_half _ pos_one]
  exact Nat.min_eq_left (Nat.le_trans (Nat.min_le_right _ _) maxWord_le_most)

theorem inBand (interval : Span) {factor : Nat} {fits : Representable factor}
    (hpos : 0 < factor) (hfactor : factor ≤ one) {draw : Binary64} (hdraw : draw.BelowOne) :
    interval.InBand (finite false factor fits) draw := by
  obtain ⟨_, hspread⟩ := interval.spread_eq_finite fits hfactor hdraw
  obtain ⟨_, _, _, hless, _⟩ := hdraw.eq_finite
  have hnanos := interval.jittered_nanos fits hpos hfactor hdraw
  have hlow : _ ≤ ratio (spreadUnits interval.nanos factor draw.units) :=
    le_spreadUnits hfactor
  have hhigh : ratio (spreadUnits interval.nanos factor draw.units) ≤ _ :=
    spreadUnits_le hfactor (Nat.le_of_lt hless)
  have hword : (maxWord : ℚ) = 2 ^ 64 - 1 := by norm_num [maxWord, UInt64.size]
  have hpoint := ratio_nonneg (spreadUnits interval.nanos factor draw.units)
  constructor
  case finite =>
    rw [hspread]
    rfl
  case nonneg =>
    rw [hspread]
    exact hpoint
  case rounded =>
    rw [hnanos, hspread]
    rfl
  case above =>
    rw [hnanos, Nat.cast_min, hword]
    have hfloor := Nat.lt_floor_add_one
      (ratio (spreadUnits interval.nanos factor draw.units) + 1 / 2)
    have htolerance : (0 : ℚ) ≤ interval.nanos / 2 ^ 49 + 1 := by positivity
    refine le_min ?_ ?_
    · refine le_trans (sub_le_sub_right (min_le_left _ _) _) ?_
      show (interval.nanos : ℚ) * (1 - ratio factor) - _ ≤ _
      linarith
    · exact le_trans (sub_le_self _ htolerance) (min_le_right _ _)
  case below =>
    rw [hnanos, Nat.cast_min, hword]
    refine min_le_min_right _ ?_
    show _ ≤ (interval.nanos : ℚ) * (1 + ratio factor) + _
    have hfloor := Nat.floor_le
      (add_nonneg hpoint (by norm_num : (0 : ℚ) ≤ 1 / 2))
    linarith

theorem jittered_mono (interval : Span) {factor : Nat} {fits : Representable factor}
    (hpos : 0 < factor) (hfactor : factor ≤ one) {draw later : Binary64}
    (hdraw : draw.BelowOne) (hlater : later.BelowOne) (h : draw.atMost later = true) :
    interval.jittered (finite false factor fits) draw ≤
      interval.jittered (finite false factor fits) later := by
  have hunits := hdraw.units_le hlater h
  show (interval.jittered _ draw).nanos ≤ (interval.jittered _ later).nanos
  rw [interval.jittered_nanos fits hpos hfactor hdraw,
    interval.jittered_nanos fits hpos hfactor hlater]
  refine min_le_min (Nat.floor_mono ?_) (Nat.le_refl _)
  exact add_le_add (ratio_mono (spreadUnits_mono hunits)) (le_refl _)

end Span

theorem Draw.steps_lt_one {steps : Nat} (h : steps < 2 ^ 53) :
    nearestUnits (steps * one) (Nat.pow 2 53) < one := by
  refine nearestUnits_lt_one (Nat.two_pow_pos 53) ?_
  have hsteps : steps ≤ 2 ^ 53 - 1 := Nat.le_sub_one_of_lt h
  rw [two_pow_eq]
  generalize one = units
  calc 2 ^ 53 * (steps * units) = steps * (units * 2 ^ 53) := by ring
    _ ≤ (2 ^ 53 - 1) * (units * 2 ^ 53) := Nat.mul_le_mul_right _ hsteps

/-- What can be drawn is below one. -/
theorem Draw.value_belowOne (drawn : Draw) : drawn.value.BelowOne := by
  have hless := Draw.steps_lt_one drawn.steps.isLt
  obtain ⟨_, hvalue⟩ : ∃ fits, drawn.value =
      finite false (nearestUnits (drawn.steps.val * one) (Nat.pow 2 53)) fits :=
    ⟨_, dif_pos (Nat.lt_trans hless one_lt_overflow)⟩
  obtain ⟨_, hzero⟩ := ofNat_zero
  obtain ⟨_, hone⟩ := ofNat_one
  constructor
  case nonneg =>
    rw [hzero, hvalue, finite_atMost_finite]
    exact Nat.zero_le _
  case less =>
    rw [hone, hvalue, finite_less_finite]
    exact hless

namespace Span

/-- Whatever is drawn, a wait lies in the band of its interval, up to rounding and
to what 64 bits can hold, and a larger draw gives no shorter wait.  The waits that
an exponential backoff grants are of this kind. -/
theorem jittered_in_band {factor : Binary64} (hpos : (ofNat 0).less factor = true)
    (hmost : factor.atMost (ofNat 1) = true) :
    (∀ (interval : Span) (draw : Binary64), draw.BelowOne → interval.InBand factor draw) ∧
      (∀ (interval : Span) (draw later : Binary64), draw.BelowOne → later.BelowOne →
        draw.atMost later = true →
          interval.jittered factor draw ≤ interval.jittered factor later) ∧
      ∀ (b : Exponential) (now : Instant) (drawn : Draw) (wait : Span),
        b.policy.jitter = factor → (Backoff.next b now drawn).1 = some wait →
          wait = b.current.jittered factor drawn.value ∧
            b.current.InBand factor drawn.value := by
  obtain ⟨fits, hfactor, hunits, hle⟩ := eq_finite_of_pos hpos hmost
  generalize factor.units = units at *
  subst hfactor
  refine ⟨?_, ?_, ?_⟩
  · intro interval draw hdraw
    exact interval.inBand hunits hle hdraw
  · intro interval draw later hdraw hlater h
    exact interval.jittered_mono hunits hle hdraw hlater h
  · intro b now drawn wait hjitter hgranted
    rw [Exponential.next_fst] at hgranted
    split at hgranted
    · refine ⟨?_, b.current.inBand hunits hle drawn.value_belowOne⟩
      rw [← Option.some.inj hgranted, Exponential.wait, hjitter]
    · cases hgranted

/-- A tenth of a second under the standard jitter, which is a half, and the longest
span with all of it for jitter: the least draw and the greatest.  The first wait
under the standard policy comes to three quarters of a second. -/
theorem tenthAndLongest_in_band :
    let half := Policy.standard.jitter
    let greatest : Draw := ⟨2 ^ 53 - 1, by decide⟩
    let fresh := Exponential.start .standard .start
    (ofMillis 100).InBand half Draw.least.value ∧
      ((ofMillis 100).jittered half Draw.least.value).nanos = 50000000 ∧
      (ofMillis 100).InBand half greatest.value ∧
      ((ofMillis 100).jittered half greatest.value).nanos = 150000000 ∧
      (ofMillis 100).jittered half Draw.least.value ≤
        (ofMillis 100).jittered half greatest.value ∧
      longest.InBand (ofNat 1) Draw.least.value ∧
      (longest.jittered (ofNat 1) Draw.least.value).nanos = 0 ∧
      longest.InBand (ofNat 1) greatest.value ∧
      (longest.jittered (ofNat 1) greatest.value).nanos = 2 ^ 64 - 1 ∧
      (Backoff.next fresh .start greatest).1 = some (clamp 750000000) ∧
      clamp 750000000 = fresh.current.jittered half greatest.value ∧
      fresh.current.InBand half greatest.value := by
  intro half greatest fresh
  have hhalf := @jittered_in_band half (by decide +kernel) (by decide +kernel)
  have hwhole := @jittered_in_band (ofNat 1) (by decide +kernel) (by decide +kernel)
  have hleast := Draw.least.value_belowOne
  have hgreatest := greatest.value_belowOne
  have hgranted : (Backoff.next fresh .start greatest).1 = some (clamp 750000000) := by
    decide +kernel
  refine ⟨hhalf.1 _ _ hleast, ?_, hhalf.1 _ _ hgreatest, ?_, ?_, hwhole.1 _ _ hleast, ?_,
    hwhole.1 _ _ hgreatest, ?_, hgranted, hhalf.2.2 fresh .start greatest _ rfl hgranted⟩
  · decide +kernel
  · decide +kernel
  · exact hhalf.2.1 _ _ _ hleast hgreatest (by decide +kernel)
  · decide +kernel
  · decide +kernel

end Span

end Recourse
