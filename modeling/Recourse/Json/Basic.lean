import Recourse.Binary64.Decimal

/-!
# JSON values

A JSON value as it is written.  A number is kept as its literal and a string
as its pieces, so that reading a document checks its form only; what a literal
means, and whether it means anything, is asked of the parts that are used.

* `NumberLiteral.word?` is a whole number within a bound, for fields that hold
  counts.  `1.0` and `-0` are not written as whole numbers and are refused.
* `NumberLiteral.binary64?` is the nearest binary64 number, refused when the
  literal is beyond the largest one.
* `Piece.join?` is the text of a string, refused when half of a surrogate pair
  stands alone.
-/

namespace Recourse

/-- A number as it is written: digits, maybe decimals, maybe an exponent with
its sign. -/
structure NumberLiteral where
  negative : Bool
  whole : List Char
  decimals : List Char
  exponent : Option (Bool × List Char)
  deriving DecidableEq, Repr

/-- A part of a string: a character, or a UTF-16 unit written by number. -/
inductive Piece where
  | char (c : Char)
  | unit (value : Nat)
  deriving DecidableEq, Repr

/-- A JSON value. -/
inductive Json where
  | null
  | bool (value : Bool)
  | number (literal : NumberLiteral)
  | string (pieces : List Piece)
  | array (items : List Json)
  | object (fields : List (List Piece × Json))

/-! ## Numbers -/

namespace NumberLiteral

/-- The number that decimal digits spell. -/
def ofDigits (digits : List Char) : Nat :=
  digits.foldl (fun n c => 10 * n + (c.toNat - '0'.toNat)) 0

/-- Written without a point and without an exponent. -/
def isWhole (n : NumberLiteral) : Bool := n.decimals.isEmpty && n.exponent.isNone

/-- The power of ten that the exponent names. -/
def power (n : NumberLiteral) : Int :=
  match n.exponent with
  | none => 0
  | some (false, digits) => ofDigits digits
  | some (true, digits) => -(ofDigits digits : Int)

/-- The magnitude as a decimal. -/
def decimal (n : NumberLiteral) : Decimal :=
  ⟨ofDigits (n.whole ++ n.decimals), n.power - n.decimals.length⟩

/-- The whole number that is written, if it is at most `most`. -/
def word? (most : Nat) (n : NumberLiteral) : Option Nat :=
  let value := ofDigits n.whole
  if n.isWhole && !n.negative && value ≤ most then some value else none

/-- The nearest binary64 number, unless the literal is too large for one.  A
literal too close to zero is a zero of its sign. -/
def binary64? (n : NumberLiteral) : Option Binary64 :=
  let x := Binary64.ofDecimal n.negative n.decimal
  if x.isFinite then some x else none

/-- The literal of a whole number. -/
def ofNat (n : Nat) : NumberLiteral := ⟨false, Nat.toDigits 10 n, [], none⟩

end NumberLiteral

/-! ## Strings -/

namespace Piece

/-- The pieces of a text, each character for itself. -/
def ofText (s : String) : List Piece := s.toList.map .char

/-- The first half of a surrogate pair. -/
def isHigh (unit : Nat) : Bool := 0xd800 ≤ unit && unit < 0xdc00

/-- The second half of a surrogate pair. -/
def isLow (unit : Nat) : Bool := 0xdc00 ≤ unit && unit < 0xe000

/-- The character of a surrogate pair. -/
def ofPair (high low : Nat) : Char :=
  Char.ofNat (0x10000 + (high - 0xd800) * 0x400 + (low - 0xdc00))

/-- The characters of a string.  Two units that form a surrogate pair are one
character; half a pair is refused. -/
def join? : List Piece → Option (List Char)
  | [] => some []
  | char c :: rest => (join? rest).map (c :: ·)
  | unit high :: rest =>
    if isHigh high then
      match rest with
      | unit low :: rest => if isLow low then (join? rest).map (ofPair high low :: ·) else none
      | _ => none
    else if isLow high then none
    else (join? rest).map (Char.ofNat high :: ·)

theorem join?_map_char (cs : List Char) : join? (cs.map char) = some cs := by
  induction cs with
  | nil => rfl
  | cons c cs ih => simp [join?, ih]

/-- The text of a string. -/
def text? (pieces : List Piece) : Option String := (join? pieces).map String.ofList

/-- The pieces of a text spell it. -/
@[simp] theorem text?_ofText (s : String) : text? (ofText s) = some s := by
  simp [text?, ofText, join?_map_char]

end Piece

namespace Json

/-- A string value. -/
def ofText (s : String) : Json := string (Piece.ofText s)

/-- A whole number. -/
def ofNat (n : Nat) : Json := number (.ofNat n)

/-- An object with the given names and values. -/
def record (fields : List (String × Json)) : Json :=
  object (fields.map fun (name, value) => (Piece.ofText name, value))

/-- The text of a string value. -/
def text? : Json → Option String
  | string pieces => Piece.text? pieces
  | _ => none

/-- The whole number of a number value. -/
def word? (most : Nat) : Json → Option Nat
  | number n => n.word? most
  | _ => none

/-- The binary64 number of a number value. -/
def binary64? : Json → Option Binary64
  | number n => n.binary64?
  | _ => none

end Json

end Recourse
