import Recourse.Backoff.Exponential
import Recourse.Proofs.Rounding

/-!
# Intervals in whole numbers

One step of the growth of an interval, without binary64: all that a step
computes is a count of units or of nanoseconds.

* `wholeUnits` counts the units of a whole number, and `secondUnits` those of a
  span that is read in seconds.
* `stretched` is a number of nanoseconds times a multiplier.
* `NextIsCeiling` says that the next interval is the ceiling, and `grow_nanos`
  is the step.

All of these are monotone, and nothing here looks at more than one step.
-/

namespace Recourse

namespace Binary64

/-! ## Finite numbers -/

/-- The units of a finite number; none for NaN and the infinities. -/
def units : Binary64 → Nat
  | finite _ units _ => units
  | _ => 0

theorem two_pow_eq (k : Nat) : Nat.pow 2 k = 2 ^ k := Nat.pow_eq

/-- All that is needed to know of the units of one. -/
theorem one_eq_two_pow : ∃ k, 1074 ≤ k ∧ k < 1075 ∧ one = 2 ^ k := by
  refine ⟨unitExponent, by decide, by decide, ?_⟩
  unfold one
  exact two_pow_eq _

theorem two_pow_lt_pow {k m : Nat} (h : k < m) : 2 ^ k < Nat.pow 2 m :=
  Nat.pow_lt_pow_right (by omega) h

theorem two_pow_lt_overflow {k : Nat} (h : k < 2098) : 2 ^ k < overflow := by
  unfold overflow
  apply two_pow_lt_pow
  exact h

attribute [local irreducible] one overflow

theorem pos_one : 0 < one := by
  obtain ⟨k, _, _, hone⟩ := one_eq_two_pow
  rw [hone]
  exact Nat.two_pow_pos k

/-- Whole numbers of 53 bits can be held. -/
theorem spacing_whole_dvd {n : Nat} (h : n ≤ 2 ^ 53) : spacing (n * one) ∣ n * one := by
  obtain ⟨k, _, _, hone⟩ := one_eq_two_pow
  rw [hone]
  exact spacing_mul_two_pow_dvd n k h

/-- Powers of two can be held. -/
theorem spacing_two_pow_mul_one_dvd (k : Nat) : spacing (2 ^ k * one) ∣ 2 ^ k * one := by
  obtain ⟨e, _, _, hone⟩ := one_eq_two_pow
  rw [hone, ← Nat.pow_add]
  exact spacing_two_pow_dvd _

theorem spacing_one_dvd : spacing one ∣ one := by
  simpa only [Nat.pow_zero, Nat.one_mul] using spacing_two_pow_mul_one_dvd 0

theorem two_pow_mul_spacing_two_pow (k : Nat) : 2 ^ 52 * spacing (2 ^ k * one) = 2 ^ k * one := by
  obtain ⟨e, _, _, hone⟩ := one_eq_two_pow
  rw [hone, ← Nat.pow_add, spacing, Nat.log2_two_pow, Nat.pow_eq, ← Nat.pow_add]
  congr 1
  omega

/-- What stays below a large power of two is finite. -/
theorem nearest_eq_finite {num den : Nat} (k : Nat) (hden : 0 < den) (hk : k < 1000)
    (h : num ≤ 2 ^ k * one * den) :
    ∃ fits, nearest false num den = finite false (nearestUnits num den) fits := by
  obtain ⟨e, _, he, hone⟩ := one_eq_two_pow
  have hlt : nearestUnits num den < overflow := by
    calc nearestUnits num den ≤ 2 ^ (k + e) :=
          nearestUnits_le hden (spacing_two_pow_dvd _) (by rwa [Nat.pow_add, ← hone])
      _ < overflow := two_pow_lt_overflow (by omega)
  exact ⟨_, dif_pos hlt⟩

theorem finite_atMost_finite {u v : Nat} {hu : Representable u} {hv : Representable v} :
    (finite false u hu).atMost (finite false v hv) = true ↔ u ≤ v := by
  simp only [atMost, less, same, compare?, scaled, Bool.or_eq_true, beq_iff_eq, Option.some.injEq,
    Int.compare_eq_lt, Int.compare_eq_eq]
  omega

theorem eq_zero_of_atMost_negative {u v : Nat} {hu : Representable u} {hv : Representable v}
    (h : (finite false u hu).atMost (finite true v hv) = true) : u = 0 := by
  simp only [atMost, less, same, compare?, scaled, Bool.or_eq_true, beq_iff_eq, Option.some.injEq,
    Int.compare_eq_lt, Int.compare_eq_eq] at h
  omega

theorem finite_less_finite {u v : Nat} {hu : Representable u} {hv : Representable v} :
    (finite false u hu).less (finite false v hv) = true ↔ u < v := by
  simp only [less, compare?, scaled, beq_iff_eq, Option.some.injEq, Int.compare_eq_lt]
  omega

theorem finite_add_finite {u v : Nat} {hu : Representable u} {hv : Representable v} :
    finite false u hu + finite false v hv = nearest false (u + v) 1 := by
  show addFinite false u false v = _
  rw [addFinite, if_pos rfl]

theorem finite_mul_finite {u v : Nat} {hu : Representable u} {hv : Representable v} :
    finite false u hu * finite false v hv = nearest false (u * v) one := by
  show nearest (false != false) (u * v) one = _
  rw [bne_self_eq_false]

theorem finite_div_finite {u v : Nat} {hu : Representable u} {hv : Representable v}
    (hpos : 0 < v) : finite false u hu / finite false v hv = nearest false (u * one) v := by
  show (if v = 0 then _ else nearest (false != false) (u * one) v) = _
  rw [if_neg (by omega), bne_self_eq_false]

/-! ## Whole numbers -/

/-- The units of the number nearest to a whole number. -/
def wholeUnits (n : Nat) : Nat := nearestUnits (n * one) 1

theorem wholeUnits_mono {a b : Nat} (h : a ≤ b) : wholeUnits a ≤ wholeUnits b :=
  nearestUnits_mono Nat.one_pos Nat.one_pos
    (Nat.mul_le_mul_right 1 (Nat.mul_le_mul_right one h))

theorem wholeUnits_of_le {n : Nat} (h : n ≤ 2 ^ 53) : wholeUnits n = n * one := by
  have hheld := nearestUnits_of_dvd Nat.one_pos (spacing_whole_dvd h)
  rwa [Nat.mul_one] at hheld

theorem wholeUnits_le_two_pow {n k : Nat} (h : n ≤ 2 ^ k) : wholeUnits n ≤ 2 ^ k * one := by
  refine nearestUnits_le Nat.one_pos (spacing_two_pow_mul_one_dvd k) ?_
  rw [Nat.mul_one]
  exact Nat.mul_le_mul_right one h

theorem one_le_wholeUnits {n : Nat} (h : 0 < n) : one ≤ wholeUnits n := by
  have hone := wholeUnits_mono (a := 1) h
  rwa [wholeUnits_of_le (by omega), Nat.one_mul] at hone

/-- A quotient that does not pass the greatest number below one stays below one. -/
theorem nearestUnits_lt_one {num den : Nat} (hden : 0 < den)
    (h : 2 ^ 53 * num ≤ (2 ^ 53 - 1) * (one * den)) : nearestUnits num den < one := by
  obtain ⟨k, hk, _, hone⟩ := one_eq_two_pow
  have hsplit : one = 2 ^ 53 * 2 ^ (k - 53) := by
    rw [hone, ← Nat.pow_add]
    congr 1
    omega
  have hbelow : num ≤ (2 ^ 53 - 1) * 2 ^ (k - 53) * den := by
    refine Nat.le_of_mul_le_mul_left ?_ (Nat.two_pow_pos 53)
    calc 2 ^ 53 * num ≤ (2 ^ 53 - 1) * (one * den) := h
      _ = 2 ^ 53 * ((2 ^ 53 - 1) * 2 ^ (k - 53) * den) := by
          rw [hsplit]
          ring
  have hround : nearestUnits num den ≤ (2 ^ 53 - 1) * 2 ^ (k - 53) :=
    nearestUnits_le hden (spacing_mul_two_pow_dvd (2 ^ 53 - 1) (k - 53) (by decide)) hbelow
  have hpos := Nat.two_pow_pos (k - 53)
  omega

theorem ofNat_eq_finite {n : Nat} (h : n ≤ 2 ^ 128) :
    ∃ fits, ofNat n = finite false (wholeUnits n) fits :=
  nearest_eq_finite 128 Nat.one_pos (by omega)
    (by rw [Nat.mul_one]; exact Nat.mul_le_mul_right one h)

theorem ofNat_one : ∃ fits, ofNat 1 = finite false one fits := by
  have hone := ofNat_eq_finite (n := 1) (by omega)
  rwa [wholeUnits_of_le (by omega), Nat.one_mul] at hone

/-- Rounding to a whole number of 64 bits, where infinity counts as too large
a number. -/
theorem nearestWord_nearest (num den : Nat) :
    (nearest false num den).nearestWord =
      min ((2 * nearestUnits num den + one) / (2 * one)) maxWord := by
  unfold nearest
  split
  · simp only [nearestWord, Bool.false_eq_true, if_false]
  · rename_i hover
    have hword : maxWord * one ≤ overflow := by
      obtain ⟨e, _, he, hone⟩ := one_eq_two_pow
      rw [hone]
      calc maxWord * 2 ^ e ≤ 2 ^ 64 * 2 ^ e := Nat.mul_le_mul_right _ (by decide)
        _ = 2 ^ (64 + e) := (Nat.pow_add 2 64 e).symm
        _ ≤ overflow := Nat.le_of_lt (two_pow_lt_overflow (by omega))
    have hlarge : maxWord * (2 * one) ≤ 2 * nearestUnits num den + one := by
      have hdouble : maxWord * (2 * one) = 2 * (maxWord * one) := by ring
      omega
    have hpos : 0 < 2 * one := Nat.mul_pos (by omega) pos_one
    exact (Nat.min_eq_right ((Nat.le_div_iff_mul_le hpos).2 hlarge)).symm

end Binary64

open Binary64

attribute [local irreducible] Binary64.one Binary64.overflow

namespace Span

/-! ## Spans in seconds -/

theorem ext_nanos {a b : Span} (h : a.nanos = b.nanos) : a = b := by
  cases a
  cases b
  cases h
  rfl

theorem most_lt : most < 2 ^ 94 := by decide

/-- The units of a part of a second. -/
def partUnits (nanos : Nat) : Nat := nearestUnits (nanos * one * one) (secondNanos * one)

/-- The units of so many nanoseconds when they are read in seconds. -/
def secondUnits (nanos : Nat) : Nat :=
  nearestUnits (wholeUnits (nanos / secondNanos) + partUnits (nanos % secondNanos)) 1

theorem secondUnits_dvd (nanos : Nat) : spacing (secondUnits nanos) ∣ secondUnits nanos :=
  spacing_nearestUnits_dvd _ _

theorem secondNanos_pos : 0 < secondNanos := by decide

theorem secondNanos_mul_pos : 0 < secondNanos * one := Nat.mul_pos secondNanos_pos pos_one

theorem partUnits_mono {a b : Nat} (h : a ≤ b) : partUnits a ≤ partUnits b :=
  nearestUnits_mono secondNanos_mul_pos secondNanos_mul_pos
    (Nat.mul_le_mul_right _ (Nat.mul_le_mul_right one (Nat.mul_le_mul_right one h)))

/-- A part of a second stays below the second. -/
theorem partUnits_lt {nanos : Nat} (h : nanos < secondNanos) : partUnits nanos < one := by
  refine nearestUnits_lt_one secondNanos_mul_pos ?_
  calc 2 ^ 53 * (nanos * one * one) = 2 ^ 53 * nanos * (one * one) := by ring
    _ ≤ (2 ^ 53 - 1) * secondNanos * (one * one) := by
        refine Nat.mul_le_mul_right _ ?_
        simp only [secondNanos] at h ⊢
        omega
    _ = (2 ^ 53 - 1) * (one * (secondNanos * one)) := by ring

/-- A later second begins no earlier than an earlier one ends, even where
seconds are too many to be told apart. -/
theorem secondUnits_le_of_lt {a b : Nat} (h : a / secondNanos < b / secondNanos) :
    secondUnits a ≤ wholeUnits (b / secondNanos) := by
  have hpart := partUnits_lt (Nat.mod_lt a (by decide : 0 < secondNanos))
  rcases Nat.lt_or_ge (a / secondNanos) (2 ^ 53) with hfew | hmany
  · have hheld : spacing (wholeUnits (b / secondNanos)) ∣ wholeUnits (b / secondNanos) :=
      spacing_nearestUnits_dvd _ _
    refine nearestUnits_le Nat.one_pos hheld ?_
    have hnext := wholeUnits_mono (Nat.succ_le_of_lt h)
    rw [wholeUnits_of_le (n := (a / secondNanos).succ) (by omega), Nat.succ_mul] at hnext
    rw [wholeUnits_of_le (Nat.le_of_lt hfew)]
    omega
  · have hspacing : 2 * one ≤ spacing (wholeUnits (a / secondNanos)) := by
      have hlow := wholeUnits_mono hmany
      rw [wholeUnits_of_le (n := 2 ^ 53) (by omega)] at hlow
      have hmono := spacing_le_spacing hlow
      have hspacing := two_pow_mul_spacing_two_pow 53
      omega
    calc secondUnits a ≤ wholeUnits (a / secondNanos) :=
          nearestUnits_add_le (spacing_nearestUnits_dvd _ _) (by omega)
      _ ≤ wholeUnits (b / secondNanos) := wholeUnits_mono (Nat.le_of_lt h)

theorem secondUnits_mono {a b : Nat} (h : a ≤ b) : secondUnits a ≤ secondUnits b := by
  have hsum {u v : Nat} (huv : u ≤ v) : nearestUnits u 1 ≤ nearestUnits v 1 :=
    nearestUnits_mono Nat.one_pos Nat.one_pos (Nat.mul_le_mul_right 1 huv)
  rcases Nat.lt_or_eq_of_le (Nat.div_le_div_right (c := secondNanos) h) with hlt | heq
  · have hheld : spacing (wholeUnits (b / secondNanos)) ∣ wholeUnits (b / secondNanos) :=
      spacing_nearestUnits_dvd _ _
    refine Nat.le_trans (secondUnits_le_of_lt hlt) (le_nearestUnits Nat.one_pos hheld ?_)
    omega
  · have ha := Nat.div_add_mod a secondNanos
    have hb := Nat.div_add_mod b secondNanos
    rw [heq] at ha
    have hpart : a % secondNanos ≤ b % secondNanos := by omega
    refine hsum (Nat.add_le_add (Nat.le_of_eq (by rw [heq])) (partUnits_mono hpart))

theorem parts_le {nanos : Nat} (h : nanos ≤ most) :
    wholeUnits (nanos / secondNanos) + partUnits (nanos % secondNanos) ≤ 2 ^ 95 * one := by
  have hlt := most_lt
  have hfew : nanos / secondNanos ≤ 2 ^ 94 := Nat.le_trans (Nat.div_le_self _ _) (by omega)
  have hwhole := wholeUnits_le_two_pow hfew
  have hpart := partUnits_lt (Nat.mod_lt nanos secondNanos_pos)
  have hone := Nat.mul_le_mul_right one (Nat.two_pow_pos 94)
  have hdouble : 2 ^ 95 * one = 2 ^ 94 * one + 2 ^ 94 * one := by ring
  omega

theorem secondUnits_le {nanos : Nat} (h : nanos ≤ most) : secondUnits nanos ≤ 2 ^ 95 * one := by
  have hparts := parts_le h
  exact nearestUnits_le Nat.one_pos (spacing_two_pow_mul_one_dvd 95) (by omega)

theorem inSeconds_eq_finite (s : Span) :
    ∃ fits, s.inSeconds = finite false (secondUnits s.nanos) fits := by
  have hlt := most_lt
  have hmost := s.le_most
  have hrest : s.nanos % secondNanos < secondNanos := Nat.mod_lt _ secondNanos_pos
  have hfew : s.nanos / secondNanos ≤ 2 ^ 94 := Nat.le_trans (Nat.div_le_self _ _) (by omega)
  have hsmall : secondNanos ≤ 2 ^ 53 := by decide
  obtain ⟨_, hseconds⟩ := ofNat_eq_finite (n := s.nanos / secondNanos) (by omega)
  obtain ⟨_, hsubsecond⟩ := ofNat_eq_finite (n := s.nanos % secondNanos) (by omega)
  obtain ⟨_, hsecond⟩ := ofNat_eq_finite (n := secondNanos) (by omega)
  have hquotient : ofNat (s.nanos % secondNanos) / ofNat secondNanos =
      nearest false (s.nanos % secondNanos * one * one) (secondNanos * one) := by
    rw [hsubsecond, hsecond,
      finite_div_finite (Nat.lt_of_lt_of_le pos_one (one_le_wholeUnits secondNanos_pos)),
      wholeUnits_of_le (by omega), wholeUnits_of_le hsmall]
  obtain ⟨_, hpart⟩ : ∃ fits, nearest false (s.nanos % secondNanos * one * one)
      (secondNanos * one) = finite false (partUnits (s.nanos % secondNanos)) fits := by
    refine nearest_eq_finite 0 secondNanos_mul_pos (by omega) ?_
    calc s.nanos % secondNanos * one * one ≤ secondNanos * one * one :=
          Nat.mul_le_mul_right one (Nat.mul_le_mul_right one (Nat.le_of_lt hrest))
      _ = 2 ^ 0 * one * (secondNanos * one) := by ring
  rw [inSeconds, seconds, subsecond, hseconds, hquotient, hpart, finite_add_finite]
  refine nearest_eq_finite 95 Nat.one_pos (by omega) ?_
  rw [Nat.mul_one]
  exact parts_le hmost

/-! ## Spans times a factor -/

/-- So many nanoseconds times a factor, which is given in units. -/
def stretched (nanos factor : Nat) : Nat :=
  min ((2 * nearestUnits (wholeUnits nanos * factor) one + one) / (2 * one)) maxWord

theorem maxWord_le_most : maxWord ≤ most := by decide

theorem clamp_maxWord : (clamp maxWord).nanos = maxWord := Nat.min_eq_left maxWord_le_most

theorem stretched_le_maxWord (nanos factor : Nat) : stretched nanos factor ≤ maxWord :=
  Nat.min_le_right _ _

theorem scaled_nanos (s : Span) {factor : Nat} {fits : Representable factor} :
    (s.scaled (finite false factor fits)).nanos = stretched s.nanos factor := by
  have hlt := most_lt
  have hmost := s.le_most
  obtain ⟨_, hnanos⟩ := ofNat_eq_finite (n := s.nanos) (by omega)
  have hword : (s.inNanos * finite false factor fits).nearestWord = stretched s.nanos factor := by
    rw [inNanos, hnanos, finite_mul_finite, nearestWord_nearest, stretched]
  rw [scaled, ofNearestNanos, clamp_nanos, hword]
  exact Nat.min_eq_left (Nat.le_trans (stretched_le_maxWord _ _) maxWord_le_most)

/-- A step reaches a number of 64 bits exactly if the product, rounded to units,
comes within half a nanosecond of it. -/
theorem le_stretched_iff {nanos factor n : Nat} (hword : n ≤ maxWord) :
    n ≤ stretched nanos factor ↔
      2 * n * one ≤ 2 * nearestUnits (wholeUnits nanos * factor) one + one := by
  rw [stretched, Nat.le_min, Nat.le_div_iff_mul_le (Nat.mul_pos (by omega) pos_one),
    show n * (2 * one) = 2 * n * one by ring]
  exact and_iff_left hword

/-- A number of nanoseconds that binary64 holds is multiplied as it is. -/
theorem nearestUnits_product {nanos : Nat} (hexact : nanos ≤ 2 ^ 53) (factor : Nat) :
    nearestUnits (wholeUnits nanos * factor) one = nearestUnits (nanos * factor) 1 := by
  have hreduce : nearestUnits (nanos * factor * one) (1 * one) = nearestUnits (nanos * factor) 1 :=
    nearestUnits_mul_right Nat.one_pos pos_one
  rw [← hreduce, wholeUnits_of_le hexact, Nat.one_mul]
  congr 1
  ring

theorem stretched_mono {a b factor : Nat} (h : a ≤ b) : stretched a factor ≤ stretched b factor := by
  have hproduct : nearestUnits (wholeUnits a * factor) one ≤
      nearestUnits (wholeUnits b * factor) one :=
    nearestUnits_mono pos_one pos_one
      (Nat.mul_le_mul_right one (Nat.mul_le_mul_right factor (wholeUnits_mono h)))
  rw [le_stretched_iff (stretched_le_maxWord a factor)]
  have hself := (le_stretched_iff (stretched_le_maxWord a factor)).1 (Nat.le_refl _)
  omega

/-- An interval that is not zero does not become zero. -/
theorem stretched_pos {nanos factor : Nat} (hpos : 0 < nanos) (hfactor : one ≤ factor) :
    0 < stretched nanos factor := by
  have hproduct : one ≤ nearestUnits (wholeUnits nanos * factor) one :=
    le_nearestUnits pos_one spacing_one_dvd (Nat.mul_le_mul (one_le_wholeUnits hpos) hfactor)
  have hone : 1 ≤ stretched nanos factor := by
    rw [le_stretched_iff (by decide)]
    omega
  exact hone

end Span

/-! ## A step -/

namespace Policy

open Recourse.Span

variable {p : Policy}

theorem valid_iff :
    p.Valid ↔ 0 < p.initial.nanos ∧ p.initial.nanos ≤ p.ceiling.nanos ∧
      growing p.multiplier = true ∧ spreading p.jitter = true := by
  have hzero : p.initial.isZero = true ↔ ¬0 < p.initial.nanos := by
    rw [isZero, beq_iff_eq]
    omega
  have hbelow : p.ceiling < p.initial ↔ ¬p.initial.nanos ≤ p.ceiling.nanos := Nat.not_le.symm
  simp only [Valid, refusal?, hzero, hbelow, Bool.not_eq_true']
  cases growing p.multiplier <;> cases spreading p.jitter <;> split_ifs <;> simp_all

/-- The units of the multiplier. -/
def factor (p : Policy) : Nat := p.multiplier.units

/-- A multiplier that is not refused is finite, and it is one or more. -/
theorem Valid.multiplier (h : p.Valid) :
    one ≤ p.factor ∧ ∃ fits, p.multiplier = finite false p.factor fits := by
  obtain ⟨_, hone⟩ := ofNat_one
  have hgrowing := (valid_iff.1 h).2.2.1
  rw [growing, Bool.and_eq_true, hone] at hgrowing
  obtain ⟨hfinite, hatMost⟩ := hgrowing
  unfold factor
  generalize p.multiplier = x at hfinite hatMost
  cases x with
  | nan => cases hfinite
  | infinite negative => cases hfinite
  | finite negative units fits =>
    cases negative with
    | false => exact ⟨finite_atMost_finite.1 hatMost, fits, rfl⟩
    | true => exact absurd (eq_zero_of_atMost_negative hatMost) (Nat.ne_of_gt pos_one)

/-- After an interval of so many nanoseconds comes the ceiling. -/
def NextIsCeiling (p : Policy) (nanos : Nat) : Prop :=
  nearestUnits (secondUnits p.ceiling.nanos * one) p.factor ≤ secondUnits nanos

instance (p : Policy) (nanos : Nat) : Decidable (p.NextIsCeiling nanos) :=
  inferInstanceAs (Decidable (_ ≤ _))

theorem NextIsCeiling.mono {a b : Nat} (h : p.NextIsCeiling a) (hle : a ≤ b) :
    p.NextIsCeiling b := Nat.le_trans h (secondUnits_mono hle)

/-- In a valid policy no interval from the ceiling on grows. -/
theorem nextIsCeiling_of_ceiling_le (hvalid : p.Valid) {nanos : Nat}
    (h : p.ceiling.nanos ≤ nanos) : p.NextIsCeiling nanos := by
  have hfactor := hvalid.multiplier.1
  have hceiling : p.NextIsCeiling p.ceiling.nanos :=
    nearestUnits_le (Nat.lt_of_lt_of_le pos_one hfactor) (secondUnits_dvd _)
      (Nat.mul_le_mul_left _ hfactor)
  exact hceiling.mono h

/-- One step: the ceiling, or the interval times the multiplier. -/
theorem grow_nanos (hvalid : p.Valid) (current : Span) :
    (p.grow current).nanos =
      if p.NextIsCeiling current.nanos then p.ceiling.nanos
      else stretched current.nanos p.factor := by
  obtain ⟨hfactor, _, hmultiplier⟩ := hvalid.multiplier
  obtain ⟨_, hceiling⟩ := inSeconds_eq_finite p.ceiling
  obtain ⟨_, hcurrent⟩ := inSeconds_eq_finite current
  have hpos := Nat.lt_of_lt_of_le pos_one hfactor
  obtain ⟨_, hquotient⟩ : ∃ fits, nearest false (secondUnits p.ceiling.nanos * one) p.factor =
      finite false (nearestUnits (secondUnits p.ceiling.nanos * one) p.factor) fits :=
    nearest_eq_finite 95 hpos (by omega)
      (Nat.mul_le_mul (secondUnits_le p.ceiling.le_most) hfactor)
  have htest : (p.ceiling.inSeconds / p.multiplier).atMost current.inSeconds = true ↔
      p.NextIsCeiling current.nanos := by
    rw [hceiling, hmultiplier, finite_div_finite hpos, hquotient, hcurrent, finite_atMost_finite]
    rfl
  rw [grow]
  by_cases hnext : p.NextIsCeiling current.nanos
  · rw [if_pos (htest.2 hnext), if_pos hnext]
  · rw [if_neg (mt htest.1 hnext), if_neg hnext, hmultiplier, scaled_nanos]

end Policy

end Recourse
