/-!
# Log entries

What the library reports while it works: events at two levels, and the spans
that attempts run in.  An entry has a fixed text and fields that name what it
is about.
-/

namespace Recourse

/-- How much attention an entry asks for; a span opens a piece of work. -/
inductive Level where
  | debug
  | warn
  | span
  deriving DecidableEq, Repr

/-- A log entry. -/
structure LogEntry where
  level : Level
  text : String
  fields : List (String × String)
  deriving DecidableEq, Repr

/-- The name of a level. -/
def Level.name : Level → String
  | .debug => "DEBUG"
  | .warn => "WARN"
  | .span => "SPAN"

end Recourse
