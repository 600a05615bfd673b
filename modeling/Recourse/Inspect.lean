/-!
# Inspection text

The notation in which a value is shown to whoever is debugging it: records as
`Name { field: value }`, tagged values as `Name(value)`, missing values as
`None`, and texts in double quotes.
-/

namespace Recourse

namespace Inspect

/-- A character inside quotes.  Quotes, backslashes and the characters that
move the cursor have short escapes; other control characters are written by
number. -/
def escape (c : Char) : List Char :=
  match c with
  | '"' => ['\\', '"']
  | '\\' => ['\\', '\\']
  | '\t' => ['\\', 't']
  | '\n' => ['\\', 'n']
  | '\r' => ['\\', 'r']
  | '\x00' => ['\\', '0']
  | c =>
    if c.toNat < 0x20 ∨ c.toNat = 0x7f then
      ['\\', 'u', '\x7b'] ++ Nat.toDigits 16 c.toNat ++ ['\x7d']
    else [c]

/-- A text in double quotes. -/
def quoted (s : String) : String :=
  String.ofList ('"' :: s.toList.flatMap escape ++ ['"'])

/-- A named value: `Name(value)`. -/
def tagged (name value : String) : String := name ++ "(" ++ value ++ ")"

/-- A value that may be missing, given how a present one is shown. -/
def optional (text : α → String) : Option α → String
  | some a => tagged "Some" (text a)
  | none => "None"

/-- A record with its fields in order. -/
def record (name : String) (fields : List (String × String)) : String :=
  let shown := fields.map fun (key, value) => key ++ ": " ++ value
  name ++ " \x7b " ++ ", ".intercalate shown ++ " \x7d"

/-- A list of values that are already text. -/
def sequence (items : List String) : String := "[" ++ ", ".intercalate items ++ "]"

end Inspect

end Recourse
