import Recourse.Binary64.Text
import Recourse.Json.Reader

/-!
# Writing JSON

Values are written without blanks.  In a string the quote, the backslash and
the control characters are escaped, the common ones by a letter and the others
by number; everything else stands for itself.
-/

namespace Recourse

namespace Json

/-- A lower-case hexadecimal digit. -/
def hexChar (n : Nat) : Char := Nat.digitChar (n % 16)

/-- A UTF-16 unit by number: a backslash, a `u` and four digits. -/
def unitEscape (unit : Nat) : List Char :=
  ['\\', 'u', hexChar (unit / 4096), hexChar (unit / 256), hexChar (unit / 16), hexChar unit]

/-- A character inside quotes. -/
def escapeChar (c : Char) : List Char :=
  match c with
  | '"' => ['\\', '"']
  | '\\' => ['\\', '\\']
  | '\x08' => ['\\', 'b']
  | '\x0c' => ['\\', 'f']
  | '\n' => ['\\', 'n']
  | '\r' => ['\\', 'r']
  | '\t' => ['\\', 't']
  | c => if c.toNat < 0x20 then unitEscape c.toNat else [c]

/-- A piece inside quotes. -/
def pieceChars : Piece → List Char
  | .char c => escapeChar c
  | .unit value => unitEscape value

/-- A string between its quotes. -/
def stringChars (pieces : List Piece) : List Char :=
  '"' :: pieces.flatMap pieceChars ++ ['"']

/-- The JSON text of a text. -/
def quoted (s : String) : String := String.ofList (stringChars (Piece.ofText s))

/-- A number as it is written. -/
def numberText (n : NumberLiteral) : String :=
  let sign := if n.negative then "-" else ""
  let decimals := if n.decimals.isEmpty then "" else "." ++ String.ofList n.decimals
  let exponent := match n.exponent with
    | none => ""
    | some (negative, digits) => (if negative then "e-" else "e") ++ String.ofList digits
  sign ++ String.ofList n.whole ++ decimals ++ exponent

mutual

/-- The text of a value. -/
def render : Json → String
  | null => "null"
  | bool true => "true"
  | bool false => "false"
  | number literal => numberText literal
  | string pieces => String.ofList (stringChars pieces)
  | array items => "[" ++ ",".intercalate (renderItems items) ++ "]"
  | object fields => "\x7b" ++ ",".intercalate (renderFields fields) ++ "\x7d"

/-- The texts of the items of an array. -/
def renderItems : List Json → List String
  | [] => []
  | item :: items => item.render :: renderItems items

/-- The texts of the fields of an object. -/
def renderFields : List (List Piece × Json) → List String
  | [] => []
  | (name, value) :: fields =>
    (String.ofList (stringChars name) ++ ":" ++ value.render) :: renderFields fields

end

/-- A binary64 number, written as its text in documents; what is not finite has
no number and becomes null. -/
def ofBinary64 (x : Binary64) : Json :=
  match readNumber? x.documented.toList with
  | some (literal, []) => number literal
  | _ => null

end Json

end Recourse
