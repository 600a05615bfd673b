import Recourse.Proofs.Registrations
import Recourse.Retry.Attempt
import Recourse.Wire

/-!
# Verdicts on the wire

An error that is sent as its code arrives as another error, yet with the same
verdict: a retry may help after it if and only if a retry may help after the
error that was sent.  Three things work together.

* `isTransient_congr`: the verdict looks at the code only.
* `contains_builtin`: a registry that began with the built-in errors knows the
  codes of all of them forever, and so the codes of all transient ones.
* `code_resolve`: a known code is answered with an error of that code, and
  every other code with the general failure, which is permanent.
-/

namespace Recourse

/-! ## The verdict of a coded error -/

namespace CodedError

theorem isTransient_congr {a b : CodedError} (hcode : a.code = b.code) :
    a.isTransient = b.isTransient := by
  have hkind : a.sameKind = b.sameKind := by
    funext kind
    rw [sameKind, sameKind, hcode]
  rw [isTransient, isTransient, hkind]

/-- The kinds of error that may go away are built in. -/
theorem transientKinds_subset : transientKinds ⊆ Builtin.all := by decide

theorem exists_builtin_of_isTransient {e : CodedError} (htransient : e.isTransient = true) :
    ∃ b ∈ Builtin.all, b.code = e.code := by
  obtain ⟨b, hb, hsame⟩ := List.any_eq_true.1 htransient
  exact ⟨b, transientKinds_subset hb, (beq_iff_eq.1 hsame).symm⟩

theorem isTransient_toFault (e : CodedError) : e.toFault.isTransient = e.isTransient := by
  obtain ⟨code, message, _ | cause⟩ := e <;> rfl

end CodedError

theorem Builtin.isTransient_generalFailure : generalFailure.isTransient = false := by decide

theorem Failure.isPermanent_byVerdict (f : Fault) : (byVerdict f).isPermanent = !f.isTransient := by
  unfold byVerdict
  cases f.isTransient <;> rfl

/-! ## What a code is resolved to -/

namespace Registry

theorem code_resolve (r : Registry) (code : Code) :
    (r.resolve code).code = if r.contains code then code else Builtin.generalFailure.code := by
  have hcontains : r.contains code = (r.find? code).isSome := r.catalog.contains_eq_isSome code
  rw [resolve, lookup, hcontains]
  cases hfound : r.find? code with
  | none => rfl
  | some e => exact Catalog.code_of_find? hfound

/-- Nothing that is registered later takes a built-in code away. -/
theorem contains_builtin (history : List Request) {b : CodedError} (hb : b ∈ Builtin.all) :
    (standard.run history).1.contains b.code = true :=
  ((keeps_run true history).contains b.code).2 ⟨b, List.mem_append_left _ hb, rfl⟩

theorem isTransient_resolve {r : Registry}
    (hknown : ∀ b ∈ Builtin.all, r.contains b.code = true) (e : CodedError) :
    (r.resolve e.code).isTransient = e.isTransient := by
  have hcode := r.code_resolve e.code
  split at hcode
  case isTrue => exact CodedError.isTransient_congr hcode
  case isFalse hmissing =>
    have hpermanent : e.isTransient = false := by
      rw [Bool.eq_false_iff]
      intro htransient
      obtain ⟨b, hb, hsame⟩ := CodedError.exists_builtin_of_isTransient htransient
      exact hmissing (hsame ▸ hknown b hb)
    rw [CodedError.isTransient_congr hcode, Builtin.isTransient_generalFailure, hpermanent]

end Registry

namespace Wire

/-- Whatever a receiver has registered over its built-in errors, an error arrives
with its code if the receiver knows it and as the general failure if not, with
the verdict and the tag that it was sent with.  Nothing but the code decides
what arrives. -/
theorem verdict_survives (history : List Registry.Request) (e : CodedError) :
    let receiver := (Registry.standard.run history).1
    let arrived := toError receiver (ofError e)
    arrived.code = (if receiver.contains e.code then e.code else Builtin.generalFailure.code) ∧
      arrived.isTransient = e.isTransient ∧
      (Failure.byVerdict arrived.toFault).isPermanent =
        (Failure.byVerdict e.toFault).isPermanent ∧
      ∀ other, other.code = e.code → toError receiver (ofError other) = arrived := by
  intro receiver arrived
  have hverdict : arrived.isTransient = e.isTransient :=
    Registry.isTransient_resolve (fun _ => Registry.contains_builtin history) e
  refine ⟨receiver.code_resolve e.code, hverdict, ?_, ?_⟩
  · rw [Failure.isPermanent_byVerdict, Failure.isPermanent_byVerdict,
      CodedError.isTransient_toFault, CodedError.isTransient_toFault, hverdict]
  · intro other hcode
    exact congrArg receiver.resolve hcode

/-- A timeout stays transient where its code has been registered again, and an
error that the receiver does not know stays permanent. -/
example :
    let receiver := (Registry.standard.run
      [.register (Builtin.timeout.withMessage "upstream too slow")]).1
    let late := toError receiver (ofError (Builtin.timeout.wrapText "after 5s"))
    let strange := toError receiver (ofError (.bare "s3_slow_down" "reduce your request rate"))
    late.message = "upstream too slow" ∧ late.isTransient = true ∧
      strange.code = Builtin.generalFailure.code ∧ strange.isTransient = false := by
  decide

end Wire

end Recourse
