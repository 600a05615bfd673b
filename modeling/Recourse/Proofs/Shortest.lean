import Recourse.Binary64.Text
import Recourse.Proofs.Interval

/-!
# The shortest decimal is read back

The decimal that is written for a binary64 number is read as that number again.

* `nearestUnits_of_close`: what differs from a number by no more than one part in
  `2 * 10 ^ 16` is rounded to it.
* `ofDecimal_mul_pow`: reading a decimal sees its value only, so zeros may be moved
  from the digits into the exponent.
* `le_of_decimalTop` and `decimalTop_le` place a number between two powers of ten,
  and `decimalTop_range` says which powers these can be.
* `grid_bounds`: with seventeen digits there are `10 ^ 16` steps of the decimal grid
  below the number, so the closer neighbour is close enough (`ofDecimal_of_near`).
* `ofDecimal_shortest` is what comes of these: the search ends at seventeen digits
  if not before, and what it ends with is read back.
-/

namespace Recourse

namespace Binary64

attribute [local irreducible] one overflow

/-! ## What is close to a number -/

/-- A number has 53 bits. -/
theorem lt_two_pow_mul_spacing (units : Nat) : units < 2 ^ 53 * spacing units := by
  by_cases hzero : units = 0
  · rw [hzero]
    exact Nat.mul_pos (by decide) (spacing_pos 0)
  · rw [spacing, Nat.pow_eq, ← Nat.pow_add]
    exact Nat.lt_of_lt_of_le Nat.lt_log2_self (Nat.pow_le_pow_right (by decide) (by omega))

theorem nearestUnits_le_of_close {num den u : Nat} (hden : 0 < den) (hu : spacing u ∣ u)
    (habove : 2 * 10 ^ 16 * num ≤ (2 * 10 ^ 16 + 1) * (u * den)) :
    nearestUnits num den ≤ u := by
  rcases Nat.le_total num (u * den) with hle | hge
  · exact nearestUnits_le hden hu hle
  · have hfine : u * den < 2 ^ 53 * (spacing u * den) := by
      rw [← Nat.mul_assoc]
      exact Nat.mul_lt_mul_of_pos_right (lt_two_pow_mul_spacing u) hden
    have hhalf : 2 * num < 2 * (u * den) + spacing u * den := by omega
    have hfloor : u ≤ num / den := (Nat.le_div_iff_mul_le hden).2 hge
    have hnext : num / den < u + spacing u := by
      rw [Nat.div_lt_iff_lt_mul hden, Nat.add_mul]
      omega
    have hsame : spacing (num / den) = spacing u := by
      by_cases hzero : num / den = 0
      · rw [hzero, show u = 0 by omega]
      · have hlow := log2_le_log2 hfloor
        have hhigh := (Nat.log2_lt hzero).2 (Nat.lt_of_lt_of_le hnext (add_spacing_le_two_pow hu))
        rw [spacing, spacing, show (num / den).log2 = u.log2 by omega]
    have hnear := (nearestUnits_near num hden).1
    have hgrid := spacing_dvd_nearestUnits num den
    rw [hsame] at hnear hgrid
    refine Nat.le_of_not_lt fun hlt => ?_
    have hstep := Nat.mul_le_mul_right den (add_le_of_dvd_of_lt hu hgrid hlt)
    rw [Nat.add_mul] at hstep
    omega

theorem le_nearestUnits_of_close {num den u : Nat} (hden : 0 < den) (hu : spacing u ∣ u)
    (hbelow : (2 * 10 ^ 16 - 1) * (u * den) ≤ 2 * 10 ^ 16 * num) :
    u ≤ nearestUnits num den := by
  rcases Nat.le_total (u * den) num with hge | hle
  · exact le_nearestUnits hden hu hge
  -- Below a power of two the spacing is halved, so it is that of the quotient that counts.
  · have hfine : num < 2 ^ 53 * (spacing (num / den) * den) := by
      rw [← Nat.mul_assoc, ← Nat.div_lt_iff_lt_mul hden]
      exact lt_two_pow_mul_spacing (num / den)
    have hhalf : 2 * (u * den) < 2 * num + spacing (num / den) * den := by omega
    have hfloor : num / den ≤ u := Nat.div_le_of_le_mul (by rwa [Nat.mul_comm] at hle)
    have hheld := Nat.dvd_trans (spacing_dvd_spacing hfloor) hu
    have hnear := (nearestUnits_near num hden).2
    refine Nat.le_of_not_lt fun hlt => ?_
    have hstep := Nat.mul_le_mul_right den
      (add_le_of_dvd_of_lt (spacing_dvd_nearestUnits num den) hheld hlt)
    rw [Nat.add_mul] at hstep
    omega

theorem nearestUnits_of_close {num den u : Nat} (hden : 0 < den) (hu : spacing u ∣ u)
    (habove : 2 * 10 ^ 16 * num ≤ (2 * 10 ^ 16 + 1) * (u * den))
    (hbelow : (2 * 10 ^ 16 - 1) * (u * den) ≤ 2 * 10 ^ 16 * num) :
    nearestUnits num den = u :=
  Nat.le_antisymm (nearestUnits_le_of_close hden hu habove)
    (le_nearestUnits_of_close hden hu hbelow)

/-! ## Decimals as values -/

theorem nearest_of_eq {num den u : Nat} (h : nearestUnits num den = u) (fits : Representable u)
    (negative : Bool) : nearest negative num den = finite negative u fits := by
  subst h
  exact dif_pos fits.1

theorem nearest_congr {a b c d : Nat} (h : nearestUnits a b = nearestUnits c d)
    (negative : Bool) : nearest negative a b = nearest negative c d := by
  by_cases hlt : nearestUnits c d < overflow
  · rw [nearest_of_eq h ⟨hlt, spacing_nearestUnits_dvd c d⟩,
      nearest_of_eq rfl ⟨hlt, spacing_nearestUnits_dvd c d⟩]
  · rw [nearest, nearest, dif_neg hlt, dif_neg (by rwa [h])]

theorem ofDecimal_eq (negative : Bool) (d : Decimal) :
    ofDecimal negative d =
      if d.digits = 0 ∨ d.top < -330 then zero negative
      else if 310 < d.top then infinite negative
      else nearest negative (d.digits * 10 ^ d.exponent.toNat * one) (10 ^ (-d.exponent).toNat) :=
  rfl

theorem top_mul_ten {digits : Nat} (hdigits : digits ≠ 0) (exponent : Int) :
    Decimal.top ⟨digits * 10, exponent⟩ = Decimal.top ⟨digits, exponent + 1⟩ := by
  simp only [Decimal.top, Decimal.digitChars]
  rw [Nat.toDigits_of_base_le (by decide) (by omega), Nat.mul_div_cancel _ (by decide),
    List.length_append, List.length_singleton]
  omega

theorem nearestUnits_mul_ten (digits : Nat) (exponent : Int) :
    nearestUnits (digits * 10 * 10 ^ exponent.toNat * one) (10 ^ (-exponent).toNat) =
      nearestUnits (digits * 10 ^ (exponent + 1).toNat * one) (10 ^ (-(exponent + 1)).toNat) := by
  by_cases hsign : 0 ≤ exponent
  · have hwhole : (-exponent).toNat = 0 := by omega
    have hwhole' : (-(exponent + 1)).toNat = 0 := by omega
    rw [hwhole, hwhole', show (exponent + 1).toNat = exponent.toNat + 1 by omega, Nat.pow_succ]
    congr 1
    ring
  · have hpart : exponent.toNat = 0 := by omega
    have hpart' : (exponent + 1).toNat = 0 := by omega
    rw [hpart, hpart', show (-exponent).toNat = (-(exponent + 1)).toNat + 1 by omega, Nat.pow_succ,
      ← nearestUnits_mul_right (Nat.pow_pos (by decide)) (k := 10) (by decide)]
    congr 1
    ring

theorem ofDecimal_mul_ten (negative : Bool) (digits : Nat) (exponent : Int) :
    ofDecimal negative ⟨digits * 10, exponent⟩ = ofDecimal negative ⟨digits, exponent + 1⟩ := by
  by_cases hzero : digits = 0
  · subst hzero
    rw [ofDecimal_eq, ofDecimal_eq, if_pos (Or.inl rfl), if_pos (Or.inl rfl)]
  · rw [ofDecimal_eq, ofDecimal_eq, top_mul_ten hzero,
      nearest_congr (nearestUnits_mul_ten digits exponent)]
    simp only [Nat.mul_eq_zero, hzero, false_or, OfNat.ofNat_ne_zero]

/-- Zeros may stand in the digits or in the exponent. -/
theorem ofDecimal_mul_pow (negative : Bool) (digits : Nat) (exponent : Int) (k : Nat) :
    ofDecimal negative ⟨digits * 10 ^ k, exponent⟩ = ofDecimal negative ⟨digits, exponent + k⟩ := by
  induction k generalizing exponent with
  | zero => rw [Nat.pow_zero, Nat.mul_one, Int.natCast_zero, Int.add_zero]
  | succ k ih =>
    rw [Nat.pow_succ, ← Nat.mul_assoc, ofDecimal_mul_ten, ih]
    congr 2
    omega

theorem ofDecimal_trim (negative : Bool) (fuel : Nat) (d : Decimal) :
    ofDecimal negative (d.trim fuel) = ofDecimal negative d := by
  induction fuel generalizing d with
  | zero => rfl
  | succ fuel ih =>
    rw [Decimal.trim]
    split
    case isTrue htrim =>
      rw [ih, ← ofDecimal_mul_ten, Nat.div_mul_cancel (Nat.dvd_of_mod_eq_zero htrim.2)]
    case isFalse => rfl

/-! ## Around a number -/

theorem scale_le {x y a b a' b' : Nat} (h : x * 10 ^ a ≤ y * 10 ^ b) (heq : a + b' = a' + b) :
    x * 10 ^ a' ≤ y * 10 ^ b' := by
  refine Nat.le_of_mul_le_mul_right ?_ (Nat.pow_pos (by decide) : 0 < 10 ^ b)
  calc x * 10 ^ a' * 10 ^ b = x * 10 ^ a * 10 ^ b' := by
        rw [Nat.mul_assoc, ← Nat.pow_add, ← heq, Nat.pow_add, Nat.mul_assoc]
    _ ≤ y * 10 ^ b * 10 ^ b' := Nat.mul_le_mul_right _ h
    _ = y * 10 ^ b' * 10 ^ b := by ring

theorem lt_pow_length (n : Nat) : n < 10 ^ (Nat.toDigits 10 n).length :=
  (Nat.length_toDigits_le_iff (by decide) Nat.length_toDigits_pos).1 (Nat.le_refl _)

theorem pow_length_le {n : Nat} (hn : n ≠ 0) : 10 ^ ((Nat.toDigits 10 n).length - 1) ≤ n := by
  refine Nat.le_of_not_lt fun hlt => ?_
  by_cases hone : (Nat.toDigits 10 n).length - 1 = 0
  · rw [hone] at hlt
    exact hn (Nat.lt_one_iff.1 hlt)
  · have hshort := (Nat.length_toDigits_le_iff (by decide) (Nat.pos_of_ne_zero hone)).2 hlt
    omega

/-- A number is at least a tenth of the power of ten that `decimalTop` names. -/
theorem le_of_decimalTop {units a b : Nat} (hunits : units ≠ 0)
    (h : (a : Int) + 1 = decimalTop units + b) : one * 10 ^ a ≤ units * 10 ^ b := by
  have hpos := pos_one
  rw [decimalTop] at h
  split at h
  case isTrue hlarge =>
    have hwhole : units / one ≠ 0 := Nat.ne_of_gt (Nat.div_pos hlarge hpos)
    have hlow := (Nat.le_div_iff_mul_le hpos).1 (pow_length_le hwhole)
    have hlen := Nat.length_toDigits_pos (b := 10) (n := units / one)
    refine scale_le (a := (Nat.toDigits 10 (units / one)).length - 1) (b := 0) ?_ (by omega)
    rwa [Nat.pow_zero, Nat.mul_one, Nat.mul_comm one]
  case isFalse hsmall =>
    have hlow := (Nat.div_lt_iff_lt_mul (Nat.pos_of_ne_zero hunits)).1 (lt_pow_length (one / units))
    refine scale_le (a := 0) (b := (Nat.toDigits 10 (one / units)).length) ?_ (by omega)
    rw [Nat.pow_zero, Nat.mul_one, Nat.mul_comm units]
    exact Nat.le_of_lt hlow

/-- No number is beyond the power of ten that `decimalTop` names. -/
theorem decimalTop_le {units a b : Nat} (hunits : units ≠ 0)
    (h : (a : Int) = decimalTop units + b) : units * 10 ^ b ≤ one * 10 ^ a := by
  have hpos := pos_one
  rw [decimalTop] at h
  split at h
  case isTrue hlarge =>
    have hhigh := (Nat.div_lt_iff_lt_mul hpos).1 (lt_pow_length (units / one))
    refine scale_le (a := 0) (b := (Nat.toDigits 10 (units / one)).length) ?_ (by omega)
    rw [Nat.pow_zero, Nat.mul_one, Nat.mul_comm one]
    exact Nat.le_of_lt hhigh
  case isFalse hsmall =>
    have hunits := Nat.pos_of_ne_zero hunits
    have hwhole : one / units ≠ 0 :=
      Nat.ne_of_gt (Nat.div_pos (Nat.le_of_lt (Nat.lt_of_not_le hsmall)) hunits)
    have hhigh := (Nat.le_div_iff_mul_le hunits).1 (pow_length_le hwhole)
    have hlen := Nat.length_toDigits_pos (b := 10) (n := one / units)
    refine scale_le (a := (Nat.toDigits 10 (one / units)).length - 1) (b := 0) ?_ (by omega)
    rwa [Nat.pow_zero, Nat.mul_one, Nat.mul_comm units]

/-- The twenty-eighth power of ten has 94 bits. -/
theorem two_pow_le_ten_pow {k n : Nat} (h : 28 * k ≤ 93 * n) : 2 ^ k ≤ 10 ^ n := by
  refine (Nat.pow_le_pow_iff_left (n := 28) (by decide)).1 ?_
  calc (2 ^ k) ^ 28 = 2 ^ (28 * k) := by rw [← Nat.pow_mul, Nat.mul_comm]
    _ ≤ 2 ^ (93 * n) := Nat.pow_le_pow_right (by decide) h
    _ = (2 ^ 93) ^ n := Nat.pow_mul 2 93 n
    _ ≤ (10 ^ 28) ^ n := Nat.pow_le_pow_left (by decide) n
    _ = (10 ^ n) ^ 28 := by rw [← Nat.pow_mul, ← Nat.pow_mul, Nat.mul_comm]

theorem pow_le_two_pow {k n : Nat} (h : k ≤ n) : Nat.pow 2 k ≤ 2 ^ n :=
  Nat.pow_le_pow_right (by decide) h

theorem overflow_le {k : Nat} (h : 2098 ≤ k) : overflow ≤ 2 ^ k := by
  unfold overflow
  apply pow_le_two_pow
  exact h

theorem decimalTop_range {units : Nat} (hunits : units ≠ 0) (hlt : units < overflow) :
    -323 ≤ decimalTop units ∧ decimalTop units ≤ 309 := by
  obtain ⟨k, hk, hk', hone⟩ := one_eq_two_pow
  constructor
  · refine Int.le_of_not_gt fun hsmall => ?_
    have hunit : 1 ≤ units := Nat.pos_of_ne_zero hunits
    have hhigh := decimalTop_le (a := 0) (b := (-decimalTop units).toNat) hunits (by omega)
    refine Nat.lt_irrefl one ?_
    calc one = 2 ^ k := hone
      _ < 2 ^ (k + 1) := Nat.pow_lt_pow_right (by decide) (Nat.lt_succ_self k)
      _ ≤ 10 ^ (-decimalTop units).toNat := two_pow_le_ten_pow (by omega)
      _ ≤ units * 10 ^ (-decimalTop units).toNat := Nat.le_mul_of_pos_left _ hunit
      _ ≤ one := by rwa [Nat.pow_zero, Nat.mul_one] at hhigh
  · refine Int.le_of_not_gt fun hlarge => ?_
    have hlow := le_of_decimalTop (a := (decimalTop units - 1).toNat) (b := 0) hunits (by omega)
    refine Nat.lt_irrefl overflow ?_
    calc overflow ≤ 2 ^ (k + (2098 - k)) := overflow_le (by omega)
      _ = one * 2 ^ (2098 - k) := by rw [Nat.pow_add, hone]
      _ ≤ one * 10 ^ (decimalTop units - 1).toNat :=
        Nat.mul_le_mul_left one (two_pow_le_ten_pow (by omega))
      _ ≤ units := by rwa [Nat.pow_zero, Nat.mul_one] at hlow
      _ < overflow := hlt

/-! ## Seventeen digits -/

/-- A decimal is rounded from some quotient, or is too large for any. -/
theorem ofDecimal_cases (d : Decimal) :
    (∃ num den, ∀ negative, ofDecimal negative d = nearest negative num den) ∨
      ∀ negative, ofDecimal negative d = infinite negative := by
  simp only [ofDecimal_eq]
  split
  · exact Or.inl ⟨0, 1, fun _ => rfl⟩
  · split
    · exact Or.inr fun _ => rfl
    · exact Or.inl ⟨_, _, fun _ => rfl⟩

theorem ofDecimal_of_readsBack {units : Nat} (fits : Representable units) {d : Decimal}
    (h : readsBack units d = true) (negative : Bool) :
    ofDecimal negative d = finite negative units fits := by
  rw [readsBack, beq_iff_eq] at h
  rcases ofDecimal_cases d with ⟨num, den, hnearest⟩ | hinfinite
  · rw [hnearest] at h ⊢
    by_cases hlt : nearestUnits num den < overflow
    · rw [nearest_of_eq rfl ⟨hlt, spacing_nearestUnits_dvd num den⟩] at h
      exact nearest_of_eq (Int.ofNat.inj (Option.some.inj h)) fits negative
    · rw [nearest, dif_neg hlt] at h
      exact absurd fits.1 (Nat.not_lt.2 (Nat.le_of_eq (Int.ofNat.inj (Option.some.inj h))))
  · rw [hinfinite] at h
    exact absurd fits.1 (Nat.not_lt.2 (Nat.le_of_eq (Int.ofNat.inj (Option.some.inj h))))

theorem readsBack_of_ofDecimal {units : Nat} {fits : Representable units} {d : Decimal}
    (h : ofDecimal false d = finite false units fits) : readsBack units d = true := by
  rw [readsBack, h]
  exact beq_self_eq_true _

/-- With seventeen digits there are at least `10 ^ 16` steps of the grid below the
number. -/
theorem grid_bounds {units : Nat} (hunits : units ≠ 0) {exponent : Int}
    (hexponent : exponent = decimalTop units - 17) :
    10 ^ 16 * (one * 10 ^ exponent.toNat) ≤ units * 10 ^ (-exponent).toNat ∧
      units * 10 ^ (-exponent).toNat ≤ 10 ^ 17 * (one * 10 ^ exponent.toNat) := by
  constructor
  · calc 10 ^ 16 * (one * 10 ^ exponent.toNat) = one * 10 ^ (exponent.toNat + 16) := by ring
      _ ≤ units * 10 ^ (-exponent).toNat := le_of_decimalTop hunits (by omega)
  · calc units * 10 ^ (-exponent).toNat ≤ one * 10 ^ (exponent.toNat + 17) :=
          decimalTop_le hunits (by omega)
      _ = 10 ^ 17 * (one * 10 ^ exponent.toNat) := by ring

/-- A whole number is within half of a quotient. -/
def Near (digits num den : Nat) : Prop :=
  2 * (digits * den) ≤ 2 * num + den ∧ 2 * num ≤ 2 * (digits * den) + den

/-- One of the two whole numbers around a quotient is. -/
theorem near_or_near (num : Nat) {den : Nat} (hden : 0 < den) :
    Near (num / den) num den ∨ Near (num / den + 1) num den := by
  have hsplit := Nat.div_add_mod' num den
  have hmod := Nat.mod_lt num hden
  rw [Near, Near, Nat.add_mul]
  omega

theorem Near.bounds {digits num den : Nat} (h : Near digits num den)
    (hstart : 10 ^ 16 * den ≤ num) (hend : num ≤ 10 ^ 17 * den) (hden : 0 < den) :
    10 ^ 16 ≤ digits ∧ digits < 10 ^ 18 := by
  obtain ⟨habove, hbelow⟩ := h
  constructor
  · refine Nat.le_of_not_lt fun hlt => ?_
    have hgap := Nat.mul_le_mul_right den (Nat.succ_le_of_lt hlt)
    rw [Nat.succ_mul] at hgap
    omega
  · refine Nat.lt_of_not_le fun hge => ?_
    have hgap := Nat.mul_le_mul_right den hge
    omega

/-- Decimals of so many digits are neither zero nor out of reach. -/
theorem ofDecimal_eq_nearest {digits : Nat} (hleast : 10 ^ 16 ≤ digits) (hmost : digits < 10 ^ 18)
    {exponent : Int} (hlow : -340 ≤ exponent) (hhigh : exponent ≤ 292) (negative : Bool) :
    ofDecimal negative ⟨digits, exponent⟩ =
      nearest negative (digits * 10 ^ exponent.toNat * one) (10 ^ (-exponent).toNat) := by
  have hlonger : ¬(Nat.toDigits 10 digits).length ≤ 16 := by
    rw [Nat.length_toDigits_le_iff (by decide) (by decide)]
    omega
  have hshorter : (Nat.toDigits 10 digits).length ≤ 18 :=
    (Nat.length_toDigits_le_iff (by decide) (by decide)).2 hmost
  have hsmall : ¬(digits = 0 ∨ ((Nat.toDigits 10 digits).length : Int) + exponent < -330) := by
    omega
  have hlarge : ¬310 < ((Nat.toDigits 10 digits).length : Int) + exponent := by omega
  rw [ofDecimal_eq]
  exact (if_neg hsmall).trans (if_neg hlarge)

/-- A decimal with seventeen digits is read back if it is closest to the number on
its grid. -/
theorem ofDecimal_of_near {units : Nat} (fits : Representable units) (hunits : units ≠ 0)
    {digits : Nat} {exponent : Int} (hexponent : exponent = decimalTop units - 17)
    (hnear : Near digits (units * 10 ^ (-exponent).toNat) (one * 10 ^ exponent.toNat))
    (negative : Bool) : ofDecimal negative ⟨digits, exponent⟩ = finite negative units fits := by
  have hden : 0 < one * 10 ^ exponent.toNat := Nat.mul_pos pos_one (Nat.pow_pos (by decide))
  obtain ⟨hstart, hend⟩ := grid_bounds hunits hexponent
  obtain ⟨hleast, hmost⟩ := hnear.bounds hstart hend hden
  obtain ⟨hlow, hhigh⟩ := decimalTop_range hunits fits.1
  obtain ⟨habove, hbelow⟩ := hnear
  rw [ofDecimal_eq_nearest hleast hmost (by omega) (by omega)]
  refine nearest_of_eq ?_ fits negative
  rw [show digits * 10 ^ exponent.toNat * one = digits * (one * 10 ^ exponent.toNat) by ring]
  exact nearestUnits_of_close (Nat.pow_pos (by decide)) fits.2 (by omega) (by omega)

/-! ## The search -/

theorem readsBack_of_withDigits {units count : Nat} {d : Decimal}
    (h : withDigits? units count = some d) : readsBack units d = true := by
  rw [withDigits?] at h
  simp only at h
  split at h
  case h_1 hlower hupper =>
    rw [← Option.some.inj h]
    split
    · exact hlower
    · exact hupper
  case h_2 hlower _ => rwa [← Option.some.inj h]
  case h_3 _ hupper => rwa [← Option.some.inj h]
  case h_4 => cases h

theorem withDigits_ne_none {units count : Nat}
    (h : readsBack units (neighbours units count).1 = true ∨
      readsBack units (neighbours units count).2.1 = true) :
    withDigits? units count ≠ none := by
  intro hnone
  rw [withDigits?] at hnone
  simp only at hnone
  split at hnone
  case h_4 hlower hupper =>
    rcases h with h | h
    · exact Bool.false_ne_true (hlower.symm.trans h)
    · exact Bool.false_ne_true (hupper.symm.trans h)
  all_goals cases hnone

theorem neighbours_eq (units count : Nat) :
    neighbours units count =
      let exponent := decimalTop units - count
      let num := units * 10 ^ (-exponent).toNat
      let den := one * 10 ^ exponent.toNat
      (⟨num / den, exponent⟩, ⟨num / den + 1, exponent⟩, decide (2 * (num % den) < den)) :=
  rfl

/-- One of the neighbours with seventeen digits is read back: the closer one. -/
theorem withDigits_seventeen {units : Nat} (fits : Representable units) (hunits : units ≠ 0) :
    withDigits? units 17 ≠ none := by
  have hden : 0 < one * 10 ^ (decimalTop units - 17).toNat :=
    Nat.mul_pos pos_one (Nat.pow_pos (by decide))
  refine withDigits_ne_none ?_
  rw [neighbours_eq]
  rcases near_or_near (units * 10 ^ (-(decimalTop units - 17)).toNat) hden with hlower | hupper
  · exact Or.inl (readsBack_of_ofDecimal (ofDecimal_of_near fits hunits rfl hlower false))
  · exact Or.inr (readsBack_of_ofDecimal (ofDecimal_of_near fits hunits rfl hupper false))

theorem ofDecimal_shortest {units : Nat} (fits : Representable units) (negative : Bool) :
    ofDecimal negative (shortest units) = finite negative units fits := by
  rw [shortest]
  split
  case isTrue hzero =>
    subst hzero
    rw [ofDecimal_eq, if_pos (Or.inl rfl)]
    exact nearest_of_eq (nearestUnits_zero Nat.one_pos) fits negative
  case isFalse hunits =>
    split
    case h_1 d hfound =>
      obtain ⟨count, _, hd⟩ := List.exists_of_findSome?_eq_some hfound
      rw [ofDecimal_trim]
      exact ofDecimal_of_readsBack fits (readsBack_of_withDigits hd) negative
    case h_2 hnone =>
      have hseventeen := List.findSome?_eq_none_iff.1 hnone 16 (by decide)
      exact absurd hseventeen (withDigits_seventeen fits hunits)

end Binary64

end Recourse
