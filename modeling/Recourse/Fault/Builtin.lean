import Recourse.Fault.Basic

/-!
# The built-in errors

One coded error for each kind of failure that remote calls run into, and for
each way in which a series of attempts can end.
-/

namespace Recourse

namespace Builtin

/-! ## General -/

/-- The answer for codes that nobody knows. -/
def generalFailure : CodedError := .bare "general_failure" "general failure"

def invalidInput : CodedError := .bare "invalid_input" "invalid input"

def unsupported : CodedError := .bare "unsupported" "operation not supported"

/-! ## Entities -/

def entityNotFound : CodedError := .bare "entity_not_found" "entity not found"

def entityInvalid : CodedError := .bare "entity_invalid" "entity invalid"

def entityExists : CodedError := .bare "entity_exists" "entity already exists"

/-! ## States -/

def notInitialized : CodedError := .bare "not_initialized" "not initialized"

/-- The other side is up but cannot serve yet. -/
def notReady : CodedError := .bare "not_ready" "not ready"

/-! ## Access -/

def unauthorized : CodedError := .bare "unauthorized" "unauthorized"

def invalidPermission : CodedError := .bare "invalid_permission" "invalid permission"

/-! ## Transport -/

def peerConnection : CodedError := .bare "peer_connection" "peer connection failed"

def readFailure : CodedError := .bare "read_failure" "read failure"

def timeout : CodedError := .bare "timeout" "operation timed out"

/-! ## Series of attempts -/

def retryCanceled : CodedError := .bare "retry_context_canceled" "retry context canceled"

def retryTimeSpent : CodedError :=
  .bare "retry_max_elapsed_time_reached" "retry max elapsed time reached"

/-- An attempt failed with an error that has no code. -/
def retryOperationFailed : CodedError :=
  .bare "retry_operation_failed" "retry operation failed"

def retryAttemptsSpent : CodedError :=
  .bare "retry_max_attempts_reached" "retry max attempts reached"

/-! ## Encoding -/

def marshalFailure : CodedError := .bare "marshal_failure" "marshal failure"

def unmarshalFailure : CodedError := .bare "unmarshal_failure" "unmarshal failure"

def parseFailure : CodedError := .bare "parse_failure" "parse failure"

/-- All built-in errors, in order. -/
def all : List CodedError :=
  [generalFailure, invalidInput, unsupported, entityNotFound, entityInvalid, entityExists,
    notInitialized, notReady, unauthorized, invalidPermission, peerConnection, readFailure,
    timeout, retryCanceled, retryTimeSpent, retryOperationFailed, retryAttemptsSpent,
    marshalFailure, unmarshalFailure, parseFailure]

/-- The built-in error with a code. -/
def find? (code : Code) : Option CodedError := all.find? (·.code == code)

end Builtin

end Recourse
