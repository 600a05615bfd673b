import Recourse.Backoff.Policy
import Recourse.Json.Record
import Recourse.Json.Writer

/-!
# Policies as JSON

A policy is an object with one field for each setting.  When one is read, a
missing field keeps its standard value, unknown fields are ignored, and a field
given twice is refused; an array gives the settings in order, those left off
at the end being standard.  A span is an object of whole seconds and
nanoseconds, or an array of the two.

A budget of null is no budget, and a budget of zero stays one of zero.  The
values are not checked here beyond their form.
-/

namespace Recourse

/-! ## Spans -/

namespace Span

/-- The largest number of seconds that is written. -/
def maxSecondsField : Nat := UInt64.size - 1

/-- The largest number of nanoseconds that is written. -/
def maxNanosField : Nat := UInt32.size - 1

/-- A span as seconds and nanoseconds. -/
def toJson (s : Span) : Json :=
  .record [("secs", .ofNat s.seconds), ("nanos", .ofNat s.subsecond)]

/-- The span of two fields.  Nanoseconds beyond a second carry over. -/
def ofFields? (seconds nanos : Json) : Option Span := do
  let seconds ← seconds.word? maxSecondsField
  let nanos ← nanos.word? maxNanosField
  ofNanos? (seconds * secondNanos + nanos)

/-- Reads a span.  Both fields are required and no others are allowed. -/
def ofJson? : Json → Option Span
  | .object fields => do
    match ← Json.named? fields with
    | [("secs", seconds), ("nanos", nanos)] => ofFields? seconds nanos
    | [("nanos", nanos), ("secs", seconds)] => ofFields? seconds nanos
    | _ => none
  | .array [seconds, nanos] => ofFields? seconds nanos
  | _ => none

end Span

/-! ## Policies -/

namespace Policy

/-- A policy with a field for each setting. -/
def toJson (p : Policy) : Json :=
  .record
    [("initial_interval", p.initial.toJson), ("max_interval", p.ceiling.toJson),
      ("max_elapsed_time", (p.budget.map Span.toJson).getD .null),
      ("multiplier", .ofBinary64 p.multiplier), ("randomization_factor", .ofBinary64 p.jitter)]

/-- The names of the settings in order. -/
def fieldNames : List String :=
  ["initial_interval", "max_interval", "max_elapsed_time", "multiplier", "randomization_factor"]

/-- The policy of the fields that are given; the others are standard. -/
def ofFields? (fields : List (String × Json)) : Option Policy := do
  let initial ← Json.field? fields "initial_interval" Span.ofJson? (some standard.initial)
  let ceiling ← Json.field? fields "max_interval" Span.ofJson? (some standard.ceiling)
  let budget ←
    Json.field? fields "max_elapsed_time" (Json.nullable? Span.ofJson?) (some standard.budget)
  let multiplier ← Json.field? fields "multiplier" Json.binary64? (some standard.multiplier)
  let jitter ← Json.field? fields "randomization_factor" Json.binary64? (some standard.jitter)
  return { initial, ceiling, budget, multiplier, jitter }

/-- Reads a policy from an object or from an array of settings in order. -/
def ofJson? : Json → Option Policy
  | .object fields => (Json.named? fields).bind ofFields?
  | .array items =>
    if items.length ≤ fieldNames.length then ofFields? (fieldNames.zip items) else none
  | _ => none

/-- Reads a policy from JSON text. -/
def read? (document : String) : Option Policy := (Json.read? document).bind ofJson?

end Policy

end Recourse
