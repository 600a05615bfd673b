import Mathlib.Tactic.Linarith
import Mathlib.Tactic.Ring
import Recourse.Binary64.Arithmetic

/-!
# Rounding

The laws of `nearestUnits`, the one rounding behind all arithmetic.  The count
of units it gives is a multiple of the local spacing, and what is known about
the quotient is known about it.

* `le_nearestUnits`, `nearestUnits_le` and `nearestUnits_mono`: rounding is
  monotone, and it moves no quotient across a number that can be held.
* `nearestUnits_near`: the result is within half a spacing of the quotient, so
  it does not see a change that is smaller (`nearestUnits_add_le`), nor does it
  lose one that is larger (`nearestUnits_carry`).
* `nearestUnits_le_of_normal` and `le_nearestUnits_of_normal`: from `2 ^ 52`
  units on that is a relative error of `2 ^ -53`.

A number that can be held is one whose own spacing divides it.
-/

namespace Recourse

namespace Binary64

/-! ## To whole numbers -/

theorem roundHalfEven_near (num : Nat) {den : Nat} (hden : 0 < den) :
    2 * (roundHalfEven num den * den) ≤ 2 * num + den ∧
      2 * num ≤ 2 * (roundHalfEven num den * den) + den := by
  have hsplit := Nat.div_add_mod' num den
  have hmod := Nat.mod_lt num hden
  simp only [roundHalfEven]
  split
  · omega
  · split
    · rw [Nat.add_mul]
      omega
    · rcases Nat.mod_two_eq_zero_or_one (num / den) with hparity | hparity <;>
        rw [hparity, Nat.add_mul] <;> omega

theorem le_roundHalfEven {num den n : Nat} (hden : 0 < den) (h : n * den ≤ num) :
    n ≤ roundHalfEven num den := by
  have hfloor : n ≤ num / den := (Nat.le_div_iff_mul_le hden).2 h
  simp only [roundHalfEven]
  split
  · exact hfloor
  · split <;> omega

theorem roundHalfEven_le_of_le_mul {num den n : Nat} (hden : 0 < den) (h : num ≤ n * den) :
    roundHalfEven num den ≤ n := by
  have hfloor : num / den ≤ n := Nat.div_le_of_le_mul (by rwa [Nat.mul_comm] at h)
  rcases Nat.lt_or_eq_of_le hfloor with hlt | heq
  · exact Nat.le_trans (roundHalfEven_le num den) hlt
  · have hsplit := Nat.div_add_mod' num den
    rw [heq] at hsplit
    have hwhole : num % den = 0 := by omega
    simp only [roundHalfEven, hwhole, heq]
    rw [if_pos (by omega)]

theorem div_le_div_of_mul_le {a b c d : Nat} (hb : 0 < b) (hd : 0 < d) (h : a * d ≤ c * b) :
    a / b ≤ c / d := by
  rw [Nat.le_div_iff_mul_le hd]
  refine Nat.le_of_mul_le_mul_right ?_ hb
  calc a / b * d * b = a / b * b * d := by ring
    _ ≤ a * d := Nat.mul_le_mul_right d (Nat.div_mul_le_self a b)
    _ ≤ c * b := h

/-- If two quotients have the same whole part, the one that leaves more is
rounded up wherever the other is. -/
theorem roundHalfEven_mono {a b c d : Nat} (hb : 0 < b) (hd : 0 < d) (h : a * d ≤ c * b) :
    roundHalfEven a b ≤ roundHalfEven c d := by
  have hfloor := div_le_div_of_mul_le hb hd h
  rcases Nat.lt_or_eq_of_le hfloor with hlt | heq
  · calc roundHalfEven a b ≤ a / b + 1 := roundHalfEven_le a b
      _ ≤ c / d := hlt
      _ ≤ roundHalfEven c d := le_roundHalfEven hd (Nat.div_mul_le_self c d)
  · have ha := Nat.div_add_mod' a b
    have hc := Nat.div_add_mod' c d
    have hrest : a % b * d ≤ c % d * b := by
      have hwhole : a / b * b * d = c / d * d * b := by rw [heq]; ring
      rw [← ha, ← hc, Nat.add_mul, Nat.add_mul, hwhole] at h
      exact Nat.le_of_add_le_add_left h
    have hbelow : d ≤ 2 * (c % d) ∨ 2 * (a % b) < b := by
      rcases Nat.lt_or_ge (2 * (c % d)) d with hlow | hhigh
      · right
        refine Nat.lt_of_mul_lt_mul_right (a := d) ?_
        calc 2 * (a % b) * d ≤ 2 * (c % d) * b := by linarith
          _ < d * b := Nat.mul_lt_mul_of_pos_right hlow hb
          _ = b * d := Nat.mul_comm d b
      · exact Or.inl hhigh
    have habove : b < 2 * (a % b) → d < 2 * (c % d) := by
      intro hhigh
      refine Nat.lt_of_mul_lt_mul_right (a := b) ?_
      calc d * b = b * d := Nat.mul_comm d b
        _ < 2 * (a % b) * d := Nat.mul_lt_mul_of_pos_right hhigh hd
        _ ≤ 2 * (c % d) * b := by linarith
    simp only [roundHalfEven, heq]
    split
    · split
      · exact Nat.le_refl _
      · split <;> omega
    · split
      · rw [if_neg (by omega), if_pos (habove ‹_›)]
      · rw [if_neg (by omega)]
        split <;> omega

/-! ## Spacing -/

theorem spacing_pos (units : Nat) : 0 < spacing units := Nat.two_pow_pos _

theorem log2_le_log2 {a b : Nat} (h : a ≤ b) : a.log2 ≤ b.log2 := by
  by_cases ha : a = 0
  · rw [ha, Nat.log2_zero]
    exact Nat.zero_le _
  · exact (Nat.le_log2 (by omega)).2 (Nat.le_trans (Nat.log2_self_le ha) h)

theorem spacing_dvd_spacing {a b : Nat} (h : a ≤ b) : spacing a ∣ spacing b := by
  have hlog := log2_le_log2 h
  exact Nat.pow_dvd_pow 2 (by omega)

theorem spacing_le_spacing {a b : Nat} (h : a ≤ b) : spacing a ≤ spacing b :=
  Nat.le_of_dvd (spacing_pos b) (spacing_dvd_spacing h)

/-- A power of two can be held. -/
theorem spacing_two_pow_dvd (k : Nat) : spacing (2 ^ k) ∣ 2 ^ k := by
  have hheld := spacing_mul_two_pow_dvd 1 k (by decide)
  rwa [Nat.one_mul] at hheld

theorem add_le_of_dvd_of_lt {step u v : Nat} (hu : step ∣ u) (hv : step ∣ v) (hlt : u < v) :
    u + step ≤ v := by
  have hgap : step ≤ v - u := Nat.le_of_dvd (by omega) (Nat.dvd_sub hv hu)
  omega

theorem add_spacing_le_two_pow {u : Nat} (hu : spacing u ∣ u) :
    u + spacing u ≤ 2 ^ (u.log2 + 1) :=
  add_le_of_dvd_of_lt hu (Nat.pow_dvd_pow 2 (by omega)) Nat.lt_log2_self

/-- The next number after one that can be held can be held. -/
theorem spacing_add_spacing_dvd {u : Nat} (hu : spacing u ∣ u) :
    spacing (u + spacing u) ∣ u + spacing u := by
  rcases Nat.lt_or_eq_of_le (add_spacing_le_two_pow hu) with hlt | heq
  · have hsame : (u + spacing u).log2 = u.log2 := by
      have hpos := spacing_pos u
      have habove := log2_le_log2 (Nat.le_add_right u (spacing u))
      have hbelow := (Nat.log2_lt (by omega)).2 hlt
      omega
    rw [show spacing (u + spacing u) = spacing u by rw [spacing, hsame, spacing]]
    exact Nat.dvd_add hu (Nat.dvd_refl _)
  · rw [heq]
    exact spacing_two_pow_dvd _

/-- From `2 ^ 52` units on there are 52 bits to the spacing. -/
theorem two_pow_mul_spacing_le {units : Nat} (h : 2 ^ 52 ≤ units) :
    2 ^ 52 * spacing units ≤ units := by
  have hpos : units ≠ 0 := by omega
  have hlog : 52 ≤ units.log2 := (Nat.le_log2 hpos).2 h
  rw [spacing, Nat.pow_eq, ← Nat.pow_add, show 52 + (units.log2 - 52) = units.log2 by omega]
  exact Nat.log2_self_le hpos

/-! ## To units -/

theorem nearestUnits_near (num : Nat) {den : Nat} (hden : 0 < den) :
    2 * (nearestUnits num den * den) ≤ 2 * num + spacing (num / den) * den ∧
      2 * num ≤ 2 * (nearestUnits num den * den) + spacing (num / den) * den := by
  have hnear := roundHalfEven_near num (Nat.mul_pos hden (spacing_pos (num / den)))
  have hswap : nearestUnits num den * den =
      roundHalfEven num (den * spacing (num / den)) * (den * spacing (num / den)) := by
    rw [nearestUnits]
    ring
  rw [hswap, Nat.mul_comm (spacing (num / den)) den]
  exact hnear

/-- A number that can be held is not passed from above. -/
theorem nearestUnits_le {num den u : Nat} (hden : 0 < den) (hu : spacing u ∣ u)
    (h : num ≤ u * den) : nearestUnits num den ≤ u := by
  have hfloor : num / den ≤ u := Nat.div_le_of_le_mul (by rwa [Nat.mul_comm] at h)
  obtain ⟨n, hn⟩ := Nat.dvd_trans (spacing_dvd_spacing hfloor) hu
  have hround : roundHalfEven num (den * spacing (num / den)) ≤ n := by
    refine roundHalfEven_le_of_le_mul (Nat.mul_pos hden (spacing_pos _)) ?_
    calc num ≤ u * den := h
      _ = spacing (num / den) * n * den := by rw [← hn]
      _ = n * (den * spacing (num / den)) := by ring
  calc nearestUnits num den ≤ n * spacing (num / den) := Nat.mul_le_mul_right _ hround
    _ = u := by rw [Nat.mul_comm, ← hn]

/-- The leading bit of a quotient is not lost. -/
theorem two_pow_log2_le_nearestUnits {num den : Nat} (hden : 0 < den) (h : num / den ≠ 0) :
    2 ^ (num / den).log2 ≤ nearestUnits num den := by
  have hlead : 2 ^ (num / den).log2 * den ≤ num :=
    (Nat.le_div_iff_mul_le hden).1 (Nat.log2_self_le h)
  obtain ⟨n, hn⟩ : spacing (num / den) ∣ 2 ^ (num / den).log2 :=
    Nat.pow_dvd_pow 2 (Nat.sub_le _ _)
  have hround : n ≤ roundHalfEven num (den * spacing (num / den)) := by
    refine le_roundHalfEven (Nat.mul_pos hden (spacing_pos _)) ?_
    calc n * (den * spacing (num / den)) = spacing (num / den) * n * den := by ring
      _ = 2 ^ (num / den).log2 * den := by rw [← hn]
      _ ≤ num := hlead
  calc 2 ^ (num / den).log2 = n * spacing (num / den) := by rw [hn, Nat.mul_comm]
    _ ≤ nearestUnits num den := Nat.mul_le_mul_right _ hround

/-- A number that can be held is not passed from below. -/
theorem le_nearestUnits {num den u : Nat} (hden : 0 < den) (hu : spacing u ∣ u)
    (h : u * den ≤ num) : u ≤ nearestUnits num den := by
  have hfloor : u ≤ num / den := (Nat.le_div_iff_mul_le hden).2 h
  have hlog := log2_le_log2 hfloor
  by_cases hzero : u = 0
  · omega
  by_cases hsame : spacing (num / den) = spacing u
  · rw [← hsame] at hu
    obtain ⟨n, hn⟩ := hu
    have hround : n ≤ roundHalfEven num (den * spacing (num / den)) := by
      refine le_roundHalfEven (Nat.mul_pos hden (spacing_pos _)) ?_
      calc n * (den * spacing (num / den)) = spacing (num / den) * n * den := by ring
        _ = u * den := by rw [← hn]
        _ ≤ num := h
    calc u = n * spacing (num / den) := by rw [Nat.mul_comm, ← hn]
      _ ≤ nearestUnits num den := Nat.mul_le_mul_right _ hround
  -- With another spacing the quotient has a longer binary form, and its leading bit is enough.
  · have hlonger : u.log2 + 1 ≤ (num / den).log2 := by
      rcases Nat.lt_or_eq_of_le hlog with hlt | heq
      · exact hlt
      · exact absurd (by rw [spacing, spacing, heq]) hsame
    calc u ≤ 2 ^ (u.log2 + 1) := Nat.le_of_lt Nat.lt_log2_self
      _ ≤ 2 ^ (num / den).log2 := Nat.pow_le_pow_right (by omega) hlonger
      _ ≤ nearestUnits num den := two_pow_log2_le_nearestUnits hden (by omega)

/-- A number that can be held is held as it is. -/
theorem nearestUnits_of_dvd {u den : Nat} (hden : 0 < den) (hu : spacing u ∣ u) :
    nearestUnits (u * den) den = u :=
  Nat.le_antisymm (nearestUnits_le hden hu (Nat.le_refl _))
    (le_nearestUnits hden hu (Nat.le_refl _))

theorem nearestUnits_mono {a b c d : Nat} (hb : 0 < b) (hd : 0 < d) (h : a * d ≤ c * b) :
    nearestUnits a b ≤ nearestUnits c d := by
  have hfloor := div_le_div_of_mul_le hb hd h
  by_cases hsame : spacing (a / b) = spacing (c / d)
  · refine Nat.mul_le_mul ?_ (Nat.le_of_eq hsame)
    refine roundHalfEven_mono (Nat.mul_pos hb (spacing_pos _)) (Nat.mul_pos hd (spacing_pos _)) ?_
    rw [hsame]
    calc a * (d * spacing (c / d)) = a * d * spacing (c / d) := by ring
      _ ≤ c * b * spacing (c / d) := Nat.mul_le_mul_right _ h
      _ = c * (b * spacing (c / d)) := by ring
  -- Between quotients of different spacings lies a power of two, which stops both.
  · have hlonger : (a / b).log2 + 1 ≤ (c / d).log2 := by
      rcases Nat.lt_or_eq_of_le (log2_le_log2 hfloor) with hlt | heq
      · exact hlt
      · exact absurd (by rw [spacing, spacing, heq]) hsame
    have hpos : c / d ≠ 0 := by
      intro hzero
      rw [hzero, Nat.log2_zero] at hlonger
      omega
    have hbelow : a / b < 2 ^ (c / d).log2 :=
      Nat.lt_of_lt_of_le Nat.lt_log2_self (Nat.pow_le_pow_right (by omega) hlonger)
    calc nearestUnits a b ≤ 2 ^ (c / d).log2 :=
          nearestUnits_le hb (spacing_two_pow_dvd _)
            (Nat.le_of_lt ((Nat.div_lt_iff_lt_mul hb).1 hbelow))
      _ ≤ nearestUnits c d := two_pow_log2_le_nearestUnits hd hpos

/-- Only the quotient matters. -/
theorem nearestUnits_mul_right {num den k : Nat} (hden : 0 < den) (hk : 0 < k) :
    nearestUnits (num * k) (den * k) = nearestUnits num den := by
  have hboth : num * k * den = num * (den * k) := by ring
  have hpos : 0 < den * k := Nat.mul_pos hden hk
  exact Nat.le_antisymm (nearestUnits_mono hpos hden (Nat.le_of_eq hboth))
    (nearestUnits_mono hden hpos (Nat.le_of_eq hboth.symm))

/-! ## Small changes -/

theorem spacing_dvd_nearestUnits (num den : Nat) :
    spacing (num / den) ∣ nearestUnits num den := Nat.dvd_mul_left _ _

/-- Less than half a spacing is lost. -/
theorem nearestUnits_add_le {u x : Nat} (hu : spacing u ∣ u) (hx : 2 * x < spacing u) :
    nearestUnits (u + x) 1 ≤ u := by
  have hsame : spacing (u + x) = spacing u := by
    by_cases hzero : x = 0
    · rw [hzero, Nat.add_zero]
    have htop := add_spacing_le_two_pow hu
    have habove := log2_le_log2 (Nat.le_add_right u x)
    have hbelow := (Nat.log2_lt (n := u + x) (k := u.log2 + 1) (by omega)).2 (by omega)
    rw [spacing, show (u + x).log2 = u.log2 by omega, spacing]
  have hnear := (nearestUnits_near (u + x) Nat.one_pos).1
  have hgrid := spacing_dvd_nearestUnits (u + x) 1
  rw [Nat.div_one, hsame] at hnear hgrid
  refine Nat.le_of_not_lt fun hlt => ?_
  have hgap := add_le_of_dvd_of_lt hu hgrid hlt
  omega

/-- If a number rounds to `h` or beyond, a larger one that has come further than
from `h` to `h'` rounds to `h'` or beyond. -/
theorem nearestUnits_carry {x y h h' : Nat} (hh' : spacing h' ∣ h')
    (hround : h ≤ nearestUnits x 1) (hle : x ≤ y) (hgap : h' + x < y + h) :
    h' ≤ nearestUnits y 1 := by
  rcases Nat.lt_or_ge y h' with hlt | hge
  · have hfrom := (nearestUnits_near x Nat.one_pos).1
    have hto := (nearestUnits_near y Nat.one_pos).2
    have hspacing := spacing_le_spacing hle
    have hgrid := spacing_dvd_nearestUnits y 1
    have hheld := Nat.dvd_trans (spacing_dvd_spacing (Nat.le_of_lt hlt)) hh'
    rw [Nat.div_one] at hfrom hto hgrid
    refine Nat.le_of_not_lt fun hshort => ?_
    have hstep := add_le_of_dvd_of_lt hgrid hheld hshort
    omega
  · exact le_nearestUnits Nat.one_pos hh' (by omega)

/-! ## Relative error -/

theorem spacing_mul_le_of_normal {num den : Nat} (h : num = 0 ∨ 2 ^ 52 * den ≤ num)
    (hden : 0 < den) : num = 0 ∨ 2 ^ 52 * (spacing (num / den) * den) ≤ num := by
  refine h.imp_right fun hnormal => ?_
  have hfloor : 2 ^ 52 ≤ num / den := (Nat.le_div_iff_mul_le hden).2 hnormal
  calc 2 ^ 52 * (spacing (num / den) * den) = 2 ^ 52 * spacing (num / den) * den := by ring
    _ ≤ num / den * den := Nat.mul_le_mul_right den (two_pow_mul_spacing_le hfloor)
    _ ≤ num := Nat.div_mul_le_self num den

theorem nearestUnits_zero {den : Nat} (hden : 0 < den) : nearestUnits 0 den = 0 :=
  Nat.le_zero.1 (nearestUnits_le hden (Nat.dvd_zero _) (Nat.zero_le _))

theorem nearestUnits_le_of_normal {num den : Nat} (hden : 0 < den)
    (h : num = 0 ∨ 2 ^ 52 * den ≤ num) :
    2 ^ 53 * (nearestUnits num den * den) ≤ (2 ^ 53 + 1) * num := by
  have hnear := (nearestUnits_near num hden).1
  rcases spacing_mul_le_of_normal h hden with hzero | hspacing
  · rw [hzero, nearestUnits_zero hden]
    omega
  · omega

theorem le_nearestUnits_of_normal {num den : Nat} (hden : 0 < den)
    (h : num = 0 ∨ 2 ^ 52 * den ≤ num) :
    (2 ^ 53 - 1) * num ≤ 2 ^ 53 * (nearestUnits num den * den) := by
  have hnear := (nearestUnits_near num hden).2
  rcases spacing_mul_le_of_normal h hden with hzero | hspacing
  · rw [hzero]
    omega
  · omega

end Binary64

end Recourse
