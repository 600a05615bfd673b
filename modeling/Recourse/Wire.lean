import Recourse.Json.Record
import Recourse.Json.Writer
import Recourse.Registry

/-!
# The wire form of errors

An error travels as its bare code.  The receiver looks the code up in its own
registry, so an error arrives with the receiver's message and cause, and a code
the receiver does not know arrives as the general failure.

In JSON the code is a string.  An `Envelope` is a response that carries a
status and perhaps an error.
-/

namespace Recourse

namespace Wire

/-- The code that is sent for an error. -/
def ofError (e : CodedError) : Code := e.code

/-- The error that a received code stands for. -/
def toError (r : Registry) (code : Code) : CodedError := r.resolve code

/-- The JSON text of a code. -/
def codeText (code : Code) : String := Json.quoted code.text

/-- Reads a code from JSON; only strings are codes. -/
def code? (value : Json) : Option Code := value.text?.map Code.mk

/-- The JSON text of an error. -/
def errorText (e : CodedError) : String := codeText (ofError e)

/-- Reads an error from JSON. -/
def error? (r : Registry) (value : Json) : Option CodedError := (code? value).map (toError r)

/-- Reads a code from JSON text. -/
def readCode? (document : String) : Option Code := (Json.read? document).bind code?

/-- Reads an error from JSON text. -/
def readError? (r : Registry) (document : String) : Option CodedError :=
  (Json.read? document).bind (error? r)

end Wire

/-! ## Envelopes -/

/-- A response: a status, and the error if there is one. -/
structure Envelope where
  status : Nat
  error : Option CodedError

namespace Envelope

/-- The largest status. -/
def maxStatus : Nat := UInt16.size - 1

/-- Reads an envelope.  The status is required and the error is not; other
fields are ignored.  An array gives both in this order. -/
def ofJson? (r : Registry) : Json → Option Envelope
  | .object fields => do
    let fields ← Json.named? fields
    let status ← Json.field? fields "status" (Json.word? maxStatus) none
    let error ← Json.field? fields "error" (Json.nullable? (Wire.error? r)) (some none)
    return ⟨status, error⟩
  | .array [status, error] => do
    let status ← status.word? maxStatus
    let error ← Json.nullable? (Wire.error? r) error
    return ⟨status, error⟩
  | _ => none

/-- Reads an envelope from JSON text. -/
def read? (r : Registry) (document : String) : Option Envelope :=
  (Json.read? document).bind (ofJson? r)

end Envelope

end Recourse
