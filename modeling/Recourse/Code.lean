/-!
# Error codes

A `Code` is the stable name of a kind of error, and the only part of an error
that is ever sent anywhere.  Any text is a code; the canonical ones are
lower-case words joined by underscores, which no output format has to escape.
-/

namespace Recourse

/-- The name of a kind of error. -/
structure Code where
  text : String
  deriving DecidableEq, Hashable, Repr

namespace Code

/-- The characters of canonical codes: lower-case letters, digits and the
underscore, of ASCII only. -/
def isCanonicalChar (c : Char) : Bool := c.isLower || c.isDigit || c == '_'

/-- At least one character, all of them canonical. -/
def isCanonical (code : Code) : Bool :=
  !code.text.toList.isEmpty && code.text.toList.all isCanonicalChar

/-- Codes are ordered as texts are, by their characters from the left.  This
is also the order of their UTF-8 bytes. -/
def order (a b : Code) : Ordering := compare a.text b.text

end Code

end Recourse
