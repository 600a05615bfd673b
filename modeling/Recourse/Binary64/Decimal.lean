import Recourse.Binary64.Arithmetic

/-!
# Decimals and the shortest one for a binary64 number

A `Decimal` is a whole number times a power of ten.  `Binary64.ofDecimal`
rounds it to the nearest binary64 number, and `Binary64.shortest` goes the
other way: among the decimals that read back as the given number it picks one
with the fewest digits, and of those the closest one.

At each count of digits the number lies between two neighbours of the decimal
grid, and it is enough to try these two: any grid point that reads back has
one of them between itself and the number.  Seventeen digits always suffice.
-/

namespace Recourse

/-- The number `digits * 10 ^ exponent`. -/
structure Decimal where
  digits : Nat
  exponent : Int
  deriving DecidableEq, Repr

namespace Decimal

/-- The decimal digits of the whole number. -/
def digitChars (d : Decimal) : List Char := Nat.toDigits 10 d.digits

/-- The power of ten just above a non-zero decimal: it is below `10 ^ top` and
at least a tenth of that. -/
def top (d : Decimal) : Int := d.digitChars.length + d.exponent

/-- Moves trailing zeros of the digits into the exponent, at most `fuel`. -/
def trim : Nat → Decimal → Decimal
  | 0, d => d
  | fuel + 1, d =>
    if d.digits ≠ 0 ∧ d.digits % 10 = 0 then trim fuel ⟨d.digits / 10, d.exponent + 1⟩ else d

/-- The numerator and denominator of a decimal. -/
def fraction (d : Decimal) : Nat × Nat :=
  (d.digits * Nat.pow 10 d.exponent.toNat, Nat.pow 10 (-d.exponent).toNat)

end Decimal

namespace Binary64

/-- The number nearest to a decimal.  A decimal of `10 ^ 310` or more is far
beyond the largest number and one below `10 ^ -330` far below half a unit, so
the powers of ten that are computed stay small. -/
def ofDecimal (negative : Bool) (d : Decimal) : Binary64 :=
  if d.digits = 0 ∨ d.top < -330 then zero negative
  else if 310 < d.top then infinite negative
  else
    let (num, den) := d.fraction
    nearest negative (num * one) den

/-! ## Shortest digits -/

/-- The `top` of the decimals around a positive count of units. -/
def decimalTop (units : Nat) : Int :=
  if one ≤ units then (Nat.toDigits 10 (units / one)).length
  else 1 - (Nat.toDigits 10 (one / units)).length

/-- Whether a decimal is read back as this count of units. -/
def readsBack (units : Nat) (d : Decimal) : Bool := (ofDecimal false d).scaled == some (units : Int)

/-- The decimals with `count` digits just below and just above a positive
count of units, and whether the lower one is strictly closer. -/
def neighbours (units count : Nat) : Decimal × Decimal × Bool :=
  let exponent := decimalTop units - count
  let num := units * Nat.pow 10 (-exponent).toNat
  let den := one * Nat.pow 10 exponent.toNat
  (⟨num / den, exponent⟩, ⟨num / den + 1, exponent⟩, decide (2 * (num % den) < den))

/-- The better of the two neighbours with `count` digits that reads back.  If
both do, the closer one is taken, and the upper one from halfway. -/
def withDigits? (units count : Nat) : Option Decimal :=
  let (lower, upper, lowerCloser) := neighbours units count
  match readsBack units lower, readsBack units upper with
  | true, true => some (if lowerCloser then lower else upper)
  | true, false => some lower
  | false, true => some upper
  | false, false => none

/-- The shortest decimal for a count of units, without trailing zeros. -/
def shortest (units : Nat) : Decimal :=
  if units = 0 then ⟨0, 0⟩
  else
    match (List.range 17).findSome? fun n => withDigits? units (n + 1) with
    | some d => d.trim 17
    | none => (neighbours units 17).1

end Binary64

end Recourse
