import Recourse.Binary64.Basic
import Recourse.Binary64.Arithmetic
import Recourse.Binary64.Decimal
import Recourse.Binary64.Text
import Recourse.Span
import Recourse.Instant
import Recourse.Code
import Recourse.Inspect
import Recourse.Fault.Basic
import Recourse.Fault.Chain
import Recourse.Fault.Text
import Recourse.Fault.Builtin
import Recourse.Fault.Transience
import Recourse.Fault.Coding
import Recourse.Json.Basic
import Recourse.Json.Reader
import Recourse.Json.Record
import Recourse.Json.Writer
import Recourse.Log
import Recourse.Lock
import Recourse.Registry
import Recourse.Wire
import Recourse.Backoff.Basic
import Recourse.Backoff.Policy
import Recourse.Backoff.Configuration
import Recourse.Backoff.Exponential
import Recourse.Backoff.Scripted
import Recourse.Backoff.Capped
import Recourse.Retry.Token
import Recourse.Retry.Runtime
import Recourse.Retry.Attempt
import Recourse.Retry.Outcome
import Recourse.Retry.Event
import Recourse.Retry.Settings
import Recourse.Retry.Runner
import Recourse.Retry.Build
import Recourse.Retry.Valued
import Recourse.Retry.Presets
import Recourse.Service
import Recourse.Proofs.Rounding
import Recourse.Proofs.Interval
import Recourse.Proofs.Overshoot
import Recourse.Proofs.Timer
import Recourse.Proofs.Series
import Recourse.Proofs.Firing
import Recourse.Proofs.Rounds
import Recourse.Proofs.Observation
import Recourse.Proofs.Cancellation
import Recourse.Proofs.Chain
import Recourse.Proofs.Provenance
import Recourse.Proofs.Stopping
import Recourse.Proofs.Budget
import Recourse.Proofs.Capped
import Recourse.Proofs.Truncation
import Recourse.Proofs.Delays
import Recourse.Proofs.Growth
import Recourse.Proofs.Termination
import Recourse.Proofs.Registrations
import Recourse.Proofs.Transmission
import Recourse.Proofs.Repetition
import Recourse.Proofs.Valued
import Recourse.Proofs.Service
import Recourse.Proofs.Reporting
import Recourse.Proofs.Renewal
import Recourse.Proofs.Coding
import Recourse.Proofs.Settings
import Recourse.Proofs.Presets
import Recourse.Proofs.Interleaving
import Recourse.Proofs.Ceiling
import Recourse.Proofs.Display
import Recourse.Proofs.Quoting
import Recourse.Proofs.Documents
import Recourse.Proofs.Shortest
import Recourse.Proofs.NumberText
import Recourse.Proofs.Configuration
import Recourse.Proofs.Consultation
import Recourse.Proofs.Jitter
import Recourse.Proofs.Counting
