import Recourse.Fault.Basic

/-!
# The chain of a fault

A fault leads to its source, that one to its own source, and so on; these are
the members of its chain, outermost first.  The questions asked of a fault are
asked of this list: the codes in it, its first coded member, its innermost
member.
-/

namespace Recourse

namespace Fault

/-- What a fault names as the reason for it. -/
def source : Fault → Option Fault
  | coded .. => none
  | codedOver _ _ cause => some cause
  | foreign .. => none
  | foreignOver _ _ cause => some cause
  | io _ payload => payload.source
  | note _ => none
  | expired => none

/-- The members of the chain below a fault. -/
def sources : Fault → List Fault
  | coded .. => []
  | codedOver _ _ cause => cause :: cause.sources
  | foreign .. => []
  | foreignOver _ _ cause => cause :: cause.sources
  | io _ payload => payload.sources
  | note _ => []
  | expired => []

/-- A fault and everything below it, outermost first. -/
def chain (f : Fault) : List Fault := f :: f.sources

/-- Following the sources one by one lists them all. -/
theorem sources_eq (f : Fault) :
    f.sources = match f.source with
      | some s => s.chain
      | none => [] := by
  induction f with
  | io kind payload ih => simpa [sources, source] using ih
  | _ => rfl

/-- The source of a coded error is its cause. -/
@[simp] theorem source_toFault (e : CodedError) : e.toFault.source = e.cause := by
  obtain ⟨code, message, _ | cause⟩ := e <;> rfl

theorem chain_ne_nil (f : Fault) : f.chain ≠ [] := by simp [chain]

/-- The coded members of the chain. -/
def codedMembers (f : Fault) : List CodedError := f.chain.filterMap asCoded?

/-- The codes in the chain, outermost first. -/
def codes (f : Fault) : List Code := f.codedMembers.map (·.code)

/-- The first coded member of the chain. -/
def firstCoded? (f : Fault) : Option CodedError := f.chain.findSome? asCoded?

/-- Whether the outermost layer carries a code. -/
def hasOuterCode (code : Code) (f : Fault) : Bool :=
  match f.asCoded? with
  | some e => e.code == code
  | none => false

/-- Whether some member of the chain carries a code. -/
def containsCode (f : Fault) (code : Code) : Bool := f.chain.any (hasOuterCode code)

/-- Whether some member of the chain is of the same kind as a coded error. -/
def contains (f : Fault) (target : CodedError) : Bool := f.containsCode target.code

/-- The innermost member of the chain. -/
def root (f : Fault) : Fault := f.chain.getLast f.chain_ne_nil

end Fault

namespace CodedError

/-- The chain of a coded error, which it heads itself. -/
def chain (e : CodedError) : List Fault := e.toFault.chain

/-- The codes in the chain; the first is the error's own. -/
def codes (e : CodedError) : List Code := e.toFault.codes

/-- Whether the error or a coded error below it carries a code. -/
def hasCode (e : CodedError) (code : Code) : Bool :=
  e.toFault.codedMembers.any (·.code == code)

/-- Whether the error or one below it is of the same kind as `target`. -/
def isKind (e target : CodedError) : Bool := e.hasCode target.code

/-- The innermost member of the chain. -/
def root (e : CodedError) : Fault := e.toFault.root

end CodedError

end Recourse
