/-!
# Binary64 numbers

The 64-bit binary floating-point numbers, with exact whole numbers inside.
Every finite number is a whole multiple of `2 ^ -1074`, the smallest positive
one, so a finite number is a sign and a count of these *units*.  A count is
`Representable` when at most 53 of its leading bits are in use and it stays
below `2 ^ 2098`, which is where overflow begins.  There is one NaN: nothing
here can tell two of them apart.

* `Binary64.nearest` rounds any quotient of whole numbers to the closest
  number, a tie going to the even neighbour.  All arithmetic goes through it.
* `Binary64.scaled` reads a number as an integer count of units, with the
  infinities one step outside the finite range; comparisons are comparisons
  of these integers.
* `Binary64.ofBits` and `Binary64.toBits` are the interchange format.
-/

namespace Recourse

namespace Binary64

/-- The exponent of the unit: finite numbers are multiples of `2 ^ -1074`. -/
abbrev unitExponent : Nat := 1074

/-- One, counted in units. -/
def one : Nat := Nat.pow 2 unitExponent

/-- The first count of units that is too large for a finite number. -/
def overflow : Nat := Nat.pow 2 2098

/-- The distance between neighbours around a count of units: one while 53
bits are enough, then doubling with every further bit. -/
def spacing (units : Nat) : Nat := Nat.pow 2 (units.log2 - 52)

/-- A count of units that a finite number can hold. -/
def Representable (units : Nat) : Prop := units < overflow ∧ spacing units ∣ units

instance (units : Nat) : Decidable (Representable units) :=
  inferInstanceAs (Decidable (_ ∧ _))

end Binary64

/-- A binary64 number. -/
inductive Binary64 where
  /-- The result of an operation that has no value. -/
  | nan
  /-- An infinity of either sign. -/
  | infinite (negative : Bool)
  /-- A sign and a count of units; zero has both signs. -/
  | finite (negative : Bool) (units : Nat) (fits : Binary64.Representable units)
  deriving DecidableEq

namespace Binary64

/-! ## Rounding -/

/-- The whole number nearest to `num / den`, a tie going to the even one. -/
def roundHalfEven (num den : Nat) : Nat :=
  let whole := num / den
  let twice := 2 * (num % den)
  if twice < den then whole
  else if den < twice then whole + 1
  else whole + whole % 2

theorem roundHalfEven_le (num den : Nat) : roundHalfEven num den ≤ num / den + 1 := by
  simp only [roundHalfEven]
  split
  · omega
  split
  · omega
  have := Nat.mod_lt (num / den) (y := 2) (by omega)
  omega

/-- A multiple of a power of two whose factor has at most 53 bits, or is
`2 ^ 53` itself, lies on the grid of its own spacing. -/
theorem spacing_mul_two_pow_dvd (count k : Nat) (hcount : count ≤ Nat.pow 2 53) :
    spacing (count * Nat.pow 2 k) ∣ count * Nat.pow 2 k := by
  simp only [spacing, Nat.pow_eq] at hcount ⊢
  by_cases hzero : count = 0
  · simp [hzero]
  by_cases htop : count = 2 ^ 53
  · subst htop
    rw [← Nat.pow_add, Nat.log2_two_pow]
    exact Nat.pow_dvd_pow 2 (by omega)
  have hpos : count * 2 ^ k ≠ 0 :=
    Nat.mul_ne_zero hzero (Nat.ne_of_gt (Nat.two_pow_pos k))
  have hlt : count * 2 ^ k < 2 ^ (53 + k) := by
    rw [Nat.pow_add]
    exact Nat.mul_lt_mul_of_pos_right (by omega) (Nat.two_pow_pos k)
  have hlog := (Nat.log2_lt hpos).2 hlt
  exact Nat.dvd_trans (Nat.pow_dvd_pow 2 (by omega)) (Nat.dvd_mul_left _ _)

/-- The multiple of the local spacing that is nearest to `num / den` units,
before any overflow is taken into account. -/
def nearestUnits (num den : Nat) : Nat :=
  let step := spacing (num / den)
  roundHalfEven num (den * step) * step

theorem spacing_nearestUnits_dvd (num den : Nat) :
    spacing (nearestUnits num den) ∣ nearestUnits num den := by
  refine spacing_mul_two_pow_dvd _ _ (Nat.le_trans (roundHalfEven_le _ _) ?_)
  rw [Nat.pow_eq, ← Nat.div_div_eq_div_mul]
  have hlt : num / den < 2 ^ 53 * spacing (num / den) := by
    by_cases hzero : num / den = 0
    · simp [hzero, spacing]
    have := Nat.lt_log2_self (n := num / den)
    refine Nat.lt_of_lt_of_le this ?_
    rw [spacing, Nat.pow_eq, ← Nat.pow_add]
    exact Nat.pow_le_pow_right (by omega) (by omega)
  have := Nat.div_lt_of_lt_mul (by rwa [Nat.mul_comm] at hlt)
  omega

/-- The number nearest to `num / den` units, with the given sign.  What
rounds to `overflow` or beyond is infinite. -/
def nearest (negative : Bool) (num den : Nat) : Binary64 :=
  if h : nearestUnits num den < overflow then
    finite negative (nearestUnits num den) ⟨h, spacing_nearestUnits_dvd num den⟩
  else infinite negative

/-- The number nearest to a whole number. -/
def ofNat (n : Nat) : Binary64 := nearest false (n * one) 1

/-! ## Views -/

/-- Not NaN and not an infinity. -/
def isFinite : Binary64 → Bool
  | finite .. => true
  | _ => false

/-- The value counted in units, with the infinities one step outside the
finite numbers.  Both zeros count zero units and NaN has no value. -/
def scaled : Binary64 → Option Int
  | nan => none
  | infinite false => some overflow
  | infinite true => some (-overflow)
  | finite false units _ => some units
  | finite true units _ => some (-units)

/-- How two numbers compare; NaN compares with nothing. -/
def compare? (x y : Binary64) : Option Ordering :=
  match x.scaled, y.scaled with
  | some a, some b => some (compare a b)
  | _, _ => none

/-- Numerical equality: the zeros are equal, NaN differs from itself. -/
def same (x y : Binary64) : Bool := x.compare? y == some .eq

/-- Numerical order; false when either side is NaN. -/
def less (x y : Binary64) : Bool := x.compare? y == some .lt

/-- Numerical order or equality; false when either side is NaN. -/
def atMost (x y : Binary64) : Bool := x.less y || x.same y

/-! ## Interchange format -/

/-- Reads a 64-bit word: a sign bit, eleven exponent bits and the 52 bits of
the fraction.  The top exponent holds the infinities and NaN. -/
def ofBits (word : UInt64) : Binary64 :=
  let word := word.toNat
  let negative := word / Nat.pow 2 63 == 1
  let exponent := word / Nat.pow 2 52 % Nat.pow 2 11
  let fraction := word % Nat.pow 2 52
  if exponent = 2047 then
    if fraction = 0 then infinite negative else nan
  else if exponent = 0 then nearest negative fraction 1
  else nearest negative ((Nat.pow 2 52 + fraction) * Nat.pow 2 (exponent - 1)) 1

/-- The exponent and fraction bits of a finite number. -/
def finiteBits (units : Nat) : Nat :=
  let exponent := units.log2 - 52
  if units < Nat.pow 2 52 then units
  else (exponent + 1) * Nat.pow 2 52 + (units / Nat.pow 2 exponent - Nat.pow 2 52)

/-- The sign bit of a word. -/
def signBit (negative : Bool) : UInt64 := if negative then 0x8000000000000000 else 0

/-- Writes a 64-bit word; NaN is the quiet one without a sign. -/
def toBits : Binary64 → UInt64
  | nan => 0x7ff8000000000000
  | infinite negative => signBit negative + 0x7ff0000000000000
  | finite negative units _ => signBit negative + UInt64.ofNat (finiteBits units)

end Binary64

end Recourse
