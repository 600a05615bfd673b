import Recourse.Proofs.Chain
import Recourse.Proofs.Transmission

/-!
# How faults are reported

Every fault is reported by a coded error, and only its outermost layer decides
how.  A coded error is reported as it is.  Any other fault is put, whole, under a
cover that says where it came from.

* `Layer` is a layer of a fault without what is below it.  `Layer.cover?` is the
  cover for each kind of outermost layer, and `toFault_toCoded` and
  `toCoded_of_cover` bring `toCoded` down to it.
* `chain_toCoded` is the one law of the new chain.  The codes of the report, the
  search for a code and the innermost member come from it.
* `headline_toCoded` says that nothing below the outermost layer has a say in
  the code and the message of the report.
-/

namespace Recourse

namespace Fault

/-- A layer of a fault, without what is below it. -/
inductive Layer where
  | coded (code : Code) (message : String)
  | foreign (text : String) (transient : Bool)
  | io (kind : IoKind)
  | note (text : String)
  | expired
  deriving DecidableEq

def outermost : Fault → Layer
  | coded code message => .coded code message
  | codedOver code message _ => .coded code message
  | foreign text transient => .foreign text transient
  | foreignOver text transient _ => .foreign text transient
  | io kind _ => .io kind
  | note text => .note text
  | expired => .expired

namespace Layer

/-- What is put over a fault with this outermost layer when it is reported;
nothing is put over a coded error. -/
def cover? : Layer → Option CodedError
  | coded _ _ => none
  | expired => some Builtin.retryTimeSpent
  | foreign _ _ | io _ | note _ => some Builtin.retryOperationFailed

/-- The code and the message with which a fault with this outermost layer is
reported. -/
def headline : Layer → Code × String
  | coded code message => (code, message)
  | expired => (Builtin.retryTimeSpent.code, Builtin.retryTimeSpent.message)
  | foreign _ _ | io _ | note _ =>
    (Builtin.retryOperationFailed.code, Builtin.retryOperationFailed.message)

end Layer

/-- What a report puts over a fault. -/
def cover? (f : Fault) : Option CodedError := f.outermost.cover?

/-! ## The two kinds of report -/

theorem toFault_toCoded {f : Fault} (hbare : f.cover? = none) : f.toCoded.toFault = f := by
  cases f with
  | coded | codedOver => rfl
  | foreign | foreignOver | io | note | expired => cases hbare

theorem toCoded_of_cover {f : Fault} {cover : CodedError} (hcover : f.cover? = some cover) :
    f.toCoded = cover.wrap f := by
  cases f with
  | coded | codedOver => cases hcover
  | foreign | foreignOver | io | note | expired =>
    obtain rfl := Option.some.inj hcover
    rfl

theorem headline_toCoded (f : Fault) :
    (f.toCoded.code, f.toCoded.message) = f.outermost.headline := by
  cases f <;> rfl

/-! ## The chain of a report -/

/-- A report has the chain of the fault, below the cover if there is one. -/
theorem chain_toCoded (f : Fault) :
    f.toCoded.chain = (f.cover?.map fun cover => (cover.wrap f).toFault).toList ++ f.chain := by
  cases hcover : f.cover? with
  | none => rw [CodedError.chain, toFault_toCoded hcover, Option.map_none, Option.toList_none,
      List.nil_append]
  | some cover =>
    rw [toCoded_of_cover hcover, Option.map_some, Option.toList_some]
    rfl

theorem codes_toCoded (f : Fault) :
    f.toCoded.codes = (f.cover?.map (·.code)).toList ++ f.codes := by
  cases hcover : f.cover? with
  | none => rw [CodedError.codes, toFault_toCoded hcover, Option.map_none, Option.toList_none,
      List.nil_append]
  | some cover =>
    rw [toCoded_of_cover hcover, CodedError.codes_wrap]
    rfl

theorem containsCode_toCoded (f : Fault) (code : Code) :
    f.toCoded.toFault.containsCode code = true ↔
      f.containsCode code = true ∨ f.cover?.map (·.code) = some code := by
  have hcodes : f.toCoded.toFault.codes = (f.cover?.map (·.code)).toList ++ f.codes :=
    f.codes_toCoded
  rw [containsCode_iff, hcodes, List.mem_append, Option.mem_toList, containsCode_iff]
  exact or_comm

/-- A chain at the end of another has the same innermost member. -/
theorem root_eq_of_suffix {f g : Fault} (hsuffix : f.chain <:+ g.chain) : g.root = f.root :=
  (hsuffix.getLast f.chain_ne_nil).symm

end Fault

/-! ## What a report keeps -/

/-- What a coded error that reports a fault has to do with it. -/
structure CodedError.Reports (e : CodedError) (f : Fault) : Prop where
  /-- A coded error is reported as it is, with its code, message and cause. -/
  itself : ∀ given : CodedError, f = given.toFault → e = given
  /-- The expiry of a timer has a cover of its own. -/
  expired : f = .expired →
    e = ⟨Builtin.retryTimeSpent.code, Builtin.retryTimeSpent.message, some f⟩
  /-- All other faults have the same cover. -/
  others : f ≠ .expired → (∀ given : CodedError, f ≠ given.toFault) →
    e = ⟨Builtin.retryOperationFailed.code, Builtin.retryOperationFailed.message, some f⟩
  chain : e.chain = (f.cover?.map fun cover => (cover.wrap f).toFault).toList ++ f.chain
  suffix : f.chain <:+ e.chain
  /-- The code of the cover is the only one that is added. -/
  containsCode : ∀ code, e.toFault.containsCode code = true ↔
    f.containsCode code = true ∨ f.cover?.map (·.code) = some code
  root : e.root = f.root
  /-- A report of the report is the report. -/
  again : e.toFault.toCoded = e

namespace Fault

theorem reports_toCoded (f : Fault) : f.toCoded.Reports f := by
  constructor
  case itself =>
    rintro given rfl
    exact toCoded_toFault given
  case expired =>
    rintro rfl
    exact toCoded_of_cover rfl
  case others =>
    intro hrunning huncoded
    apply toCoded_of_cover
    cases f with
    | coded code message => exact absurd rfl (huncoded ⟨code, message, none⟩)
    | codedOver code message cause => exact absurd rfl (huncoded ⟨code, message, some cause⟩)
    | expired => exact absurd rfl hrunning
    | foreign | foreignOver | io | note => rfl
  case chain => exact f.chain_toCoded
  case suffix => exact f.chain_suffix_toCoded
  case containsCode => exact f.containsCode_toCoded
  case root => exact root_eq_of_suffix f.chain_suffix_toCoded
  case again => exact toCoded_toFault f.toCoded

/-- A report adds one layer at most and loses none, and it is settled once it is
made.  The tag of a failure has no part in it, nor has anything below the
outermost layer of the fault: faults with the same outermost layer are reported
with the same code and message, and with the same verdict. -/
theorem reported_by_outermost_layer (f : Fault) :
    f.toCoded.Reports f ∧
    (Failure.transient f).report.Reports f ∧ (Failure.permanent f).report.Reports f ∧
    ∀ g : Fault, g.outermost = f.outermost →
      g.toCoded.code = f.toCoded.code ∧ g.toCoded.message = f.toCoded.message ∧
        g.toCoded.isTransient = f.toCoded.isTransient := by
  refine ⟨f.reports_toCoded, f.reports_toCoded, f.reports_toCoded, ?_⟩
  intro g houtermost
  have hheadline : (g.toCoded.code, g.toCoded.message) = (f.toCoded.code, f.toCoded.message) := by
    rw [headline_toCoded, headline_toCoded, houtermost]
  obtain ⟨hcode, hmessage⟩ := Prod.mk.inj hheadline
  exact ⟨hcode, hmessage, CodedError.isTransient_congr hcode⟩

/-- An error of another type over a timeout that the expiry of a timer has
caused. -/
def lateReply : Fault := .foreignOver "late reply" true (Builtin.timeout.wrap .expired).toFault

/-- The expiry stays at the bottom and the timeout above it, and neither has a
say in how the fault is reported. -/
theorem lateReply_reported :
    lateReply.toCoded.codes = [Builtin.retryOperationFailed.code, Builtin.timeout.code] ∧
    lateReply.toCoded.toFault.containsCode Builtin.timeout.code = true ∧
    lateReply.toCoded.root = .expired ∧
    (foreign "late reply" true).toCoded.code = lateReply.toCoded.code := by
  obtain ⟨hreports, _, _, hbelow⟩ := reported_by_outermost_layer lateReply
  refine ⟨by decide, ?_, ?_, ?_⟩
  · exact (hreports.containsCode Builtin.timeout.code).2 (Or.inl (by decide))
  · exact hreports.root
  · exact (hbelow (foreign "late reply" true) rfl).1

end Fault

end Recourse
