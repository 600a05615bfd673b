import Recourse.Binary64.Basic

/-!
# Arithmetic on binary64 numbers

Each operation takes the exact result of its operands, counted in units, and
rounds it once with `nearest`.  A product of two counts is `2 ^ 1074` times
too large and a quotient as much too small, which the denominator or the
numerator given to `nearest` makes good.

`nearestWord` leaves the floating-point numbers: it rounds to a whole number,
halves away from zero, and holds the result within 64 bits.
-/

namespace Recourse

namespace Binary64

/-- The same number with the other sign. -/
def neg : Binary64 → Binary64
  | nan => nan
  | infinite negative => infinite (!negative)
  | finite negative units fits => finite (!negative) units fits

/-- A zero of the given sign. -/
def zero (negative : Bool) : Binary64 := nearest negative 0 1

/-- The sum of two finite numbers.  When the operands cancel the zero is
positive; only two negative zeros keep their sign. -/
def addFinite (n₁ : Bool) (u₁ : Nat) (n₂ : Bool) (u₂ : Nat) : Binary64 :=
  if n₁ = n₂ then nearest n₁ (u₁ + u₂) 1
  else if u₂ < u₁ then nearest n₁ (u₁ - u₂) 1
  else if u₁ < u₂ then nearest n₂ (u₂ - u₁) 1
  else zero false

/-- The sum. -/
def add : Binary64 → Binary64 → Binary64
  | nan, _ => nan
  | _, nan => nan
  | infinite n₁, infinite n₂ => if n₁ = n₂ then infinite n₁ else nan
  | infinite n₁, finite .. => infinite n₁
  | finite .., infinite n₂ => infinite n₂
  | finite n₁ u₁ _, finite n₂ u₂ _ => addFinite n₁ u₁ n₂ u₂

/-- The difference. -/
def sub (x y : Binary64) : Binary64 := x.add y.neg

/-- The product.  Zero times an infinity has no value. -/
def mul : Binary64 → Binary64 → Binary64
  | nan, _ => nan
  | _, nan => nan
  | infinite n₁, infinite n₂ => infinite (n₁ != n₂)
  | infinite n₁, finite n₂ u₂ _ => if u₂ = 0 then nan else infinite (n₁ != n₂)
  | finite n₁ u₁ _, infinite n₂ => if u₁ = 0 then nan else infinite (n₁ != n₂)
  | finite n₁ u₁ _, finite n₂ u₂ _ => nearest (n₁ != n₂) (u₁ * u₂) one

/-- The quotient.  A non-zero number divided by zero is infinite; zero by zero
and infinity by infinity have no value. -/
def div : Binary64 → Binary64 → Binary64
  | nan, _ => nan
  | _, nan => nan
  | infinite _, infinite _ => nan
  | infinite n₁, finite n₂ .. => infinite (n₁ != n₂)
  | finite n₁ .., infinite n₂ => zero (n₁ != n₂)
  | finite n₁ u₁ _, finite n₂ u₂ _ =>
    if u₂ = 0 then if u₁ = 0 then nan else infinite (n₁ != n₂)
    else nearest (n₁ != n₂) (u₁ * one) u₂

instance : Neg Binary64 := ⟨neg⟩
instance : Add Binary64 := ⟨add⟩
instance : Sub Binary64 := ⟨sub⟩
instance : Mul Binary64 := ⟨mul⟩
instance : Div Binary64 := ⟨div⟩

/-- The largest number of 64 bits. -/
def maxWord : Nat := UInt64.size - 1

/-- The nearest whole number, halves rounding away from zero, held within
`0` and `maxWord`.  NaN gives zero. -/
def nearestWord : Binary64 → Nat
  | nan => 0
  | infinite negative => if negative then 0 else maxWord
  | finite negative units _ => if negative then 0 else min ((2 * units + one) / (2 * one)) maxWord

end Binary64

end Recourse
