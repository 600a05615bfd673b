import Recourse.Binary64.Decimal

/-!
# The text of a binary64 number

Every form writes the shortest digits that read back.

* `Binary64.plain` never uses an exponent and drops the point of a whole
  number: `1.5`, `60`, `0.0000001`, `-0`.
* `Binary64.pointed` keeps one decimal at least and turns to an exponent
  below `10 ^ -4` and from `10 ^ 16`: `2.0`, `-0.0`, `1e16`, `2.5e-7`.
* `Binary64.documented`, the text in documents, is the same but for the
  numbers from `10 ^ -5` up to `10 ^ -4`, which have no exponent: `0.00002`.
-/

namespace Recourse

namespace Decimal

/-- All digits in place, no exponent.  `point` is what a whole number ends
with. -/
def positional (point : String) (d : Decimal) : String :=
  let digits := d.digitChars
  if 0 ≤ d.exponent then
    String.ofList (digits ++ List.replicate d.exponent.toNat '0') ++ point
  else if 0 < d.top then
    let (whole, decimals) := digits.splitAt d.top.toNat
    String.ofList (whole ++ '.' :: decimals)
  else "0." ++ String.ofList (List.replicate (-d.top).toNat '0' ++ digits)

/-- One digit before the point, the others behind it, and an exponent. -/
def scientific (d : Decimal) : String :=
  let mantissa := match d.digitChars with
    | first :: second :: rest => String.ofList (first :: '.' :: second :: rest)
    | short => String.ofList short
  mantissa ++ "e" ++ toString (d.top - 1)

end Decimal

namespace Binary64

/-- The sign in front of a number. -/
def signText (negative : Bool) : String := if negative then "-" else ""

/-- The text of a number whose magnitude is written by `magnitude`. -/
def signed (magnitude : Decimal → String) : Binary64 → String
  | nan => "NaN"
  | infinite negative => signText negative ++ "inf"
  | finite negative units _ => signText negative ++ magnitude (shortest units)

/-- Positional text; whole numbers have no point. -/
def plain : Binary64 → String := signed (Decimal.positional "")

/-- Text with at least one decimal, and an exponent below `10 ^ least` and from
`10 ^ 16`. -/
def pointedFrom (least : Int) : Binary64 → String :=
  signed fun d =>
    if d.digits ≠ 0 ∧ (d.top ≤ least ∨ 16 < d.top) then d.scientific else d.positional ".0"

/-- Text for debugging. -/
def pointed : Binary64 → String := pointedFrom (-4)

/-- Text in documents. -/
def documented : Binary64 → String := pointedFrom (-5)

end Binary64

end Recourse
