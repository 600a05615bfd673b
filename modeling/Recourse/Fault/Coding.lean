import Recourse.Fault.Builtin

/-!
# From faults to coded errors

Whatever an attempt fails with is reported as a coded error.  A fault that is
one already stays as it is.  Any other fault is wrapped under a code that says
where it came from, with the whole fault below as the cause, so nothing of its
chain is lost.
-/

namespace Recourse

namespace Fault

/-- The coded error that reports a fault, judged by its outermost layer. -/
def toCoded (f : Fault) : CodedError :=
  match f.asCoded? with
  | some e => e
  | none =>
    match f with
    | expired => Builtin.retryTimeSpent.wrap f
    | _ => Builtin.retryOperationFailed.wrap f

/-- A coded error is reported as itself. -/
@[simp] theorem toCoded_toFault (e : CodedError) : e.toFault.toCoded = e := by
  simp [toCoded]

end Fault

end Recourse
