import Mathlib.Data.Finset.Card
import Recourse.Registry

/-!
# Histories of a registry

A history is a list of requests that a registry is sent one after the other.
Whatever the requests are, they leave one catalog behind, the one that files
the errors of all of them in their order.  It does not matter whether the
errors came one by one, in groups, or from a source that broke off.

* `Catalog.find?_registerMany` and `Catalog.size_registerMany` are the two laws
  of filing many errors.
* `catalog_perform` and `catalog_run` bring a request and a history under these
  laws, and `warned_perform` and `warned_run` do so with the warnings.
* `Catalog.Alike` relates catalogs that find the same error for every code.  By
  `perform_congr` and `run_congr` no request can tell them apart, so that nobody
  sees the order of the rows or the state of the lock.
-/

namespace Recourse

/-! ## Filing many errors -/

namespace Catalog

/-- The notice about an earlier error names the code that both errors have. -/
theorem register_notices (c : Catalog) (e : CodedError) :
    (c.register e).2 = if c.contains e.code then [.replaced e.code] else [] := by
  rw [register, contains_eq_isSome]
  cases hfound : c.find? e.code with
  | none => rfl
  | some previous =>
    show [RegistryNotice.replaced previous.code] = [.replaced e.code]
    rw [code_of_find? hfound]

theorem registerMany_cons (c : Catalog) (e : CodedError) (rest : List CodedError) :
    c.registerMany (e :: rest) =
      (((c.insert e).registerMany rest).1,
        (c.register e).2 ++ ((c.insert e).registerMany rest).2) := rfl

theorem registerMany_append (c : Catalog) (first rest : List CodedError) :
    c.registerMany (first ++ rest) =
      (((c.registerMany first).1.registerMany rest).1,
        (c.registerMany first).2 ++ ((c.registerMany first).1.registerMany rest).2) := by
  induction first generalizing c with
  | nil => rfl
  | cons e first ih =>
    rw [List.cons_append, registerMany_cons, ih, registerMany_cons, List.append_assoc]

/-- The last error with a code is found, and what was there before if there is
none. -/
theorem find?_registerMany (c : Catalog) (errors : List CodedError) (code : Code) :
    (c.registerMany errors).1.find? code =
      (errors.reverse.find? (·.code == code)).or (c.find? code) := by
  induction errors generalizing c with
  | nil => rfl
  | cons e rest ih =>
    rw [registerMany_cons, ih, find?_insert, List.reverse_cons, List.find?_append, Option.or_assoc]
    by_cases hcode : e.code = code <;> simp [hcode]

/-- A registration brings either a new row or a notice. -/
theorem size_registerMany (c : Catalog) (errors : List CodedError) :
    (c.registerMany errors).1.size + (c.registerMany errors).2.length =
      c.size + errors.length := by
  induction errors generalizing c with
  | nil => rfl
  | cons e rest ih =>
    have hrest := ih (c.insert e)
    rw [size_insert] at hrest
    simp only [registerMany_cons, register_notices, List.length_append, List.length_cons]
    by_cases hknown : c.contains e.code = true
    · rw [if_pos hknown] at hrest ⊢
      rw [List.length_singleton]
      omega
    · rw [if_neg hknown] at hrest ⊢
      rw [List.length_nil]
      omega

theorem mem_codes (c : Catalog) (code : Code) :
    code ∈ c.rows.map (·.1) ↔ c.contains code = true := by
  rw [contains, List.any_eq_true, List.mem_map]
  simp only [beq_iff_eq]

theorem card_codes (c : Catalog) : (c.rows.map (·.1)).toFinset.card = c.size := by
  rw [List.toFinset_card_of_nodup c.distinct, List.length_map, size]

/-! ## Catalogs that find the same errors -/

def Alike (c d : Catalog) : Prop := ∀ code, c.find? code = d.find? code

namespace Alike

variable {c d : Catalog}

@[refl] theorem refl (c : Catalog) : Alike c c := fun _ => rfl

theorem contains (h : Alike c d) (code : Code) : c.contains code = d.contains code := by
  rw [contains_eq_isSome, contains_eq_isSome, h]

theorem size (h : Alike c d) : c.size = d.size := by
  rw [← card_codes, ← card_codes]
  congr 1
  ext code
  rw [List.mem_toFinset, List.mem_toFinset, mem_codes, mem_codes, h.contains]

theorem insert (h : Alike c d) (e : CodedError) : Alike (c.insert e) (d.insert e) := by
  intro code
  rw [find?_insert, find?_insert, h]

theorem notices_register (h : Alike c d) (e : CodedError) :
    (c.register e).2 = (d.register e).2 := by
  rw [register_notices, register_notices, h.contains]

theorem notices_registerMany (h : Alike c d) (errors : List CodedError) :
    (c.registerMany errors).2 = (d.registerMany errors).2 := by
  induction errors generalizing c d with
  | nil => rfl
  | cons e rest ih =>
    rw [registerMany_cons, registerMany_cons, h.notices_register, ih (h.insert e)]

end Alike

end Catalog

namespace Registry

/-! ## Requests -/

inductive Request where
  /-- Builds an error from its parts and registers it. -/
  | build (code : Code) (message : String) (cause : Option Fault)
  | register (e : CodedError)
  | registerFrom (supply : Supply)
  | lookup (code : Code)
  | contains (code : Code)
  | size
  | isEmpty

/-- The errors that a request registers. -/
def Request.errors : Request → List CodedError
  | build code message cause => [⟨code, message, cause⟩]
  | register e => [e]
  | registerFrom supply => supply.yielded
  | lookup _ | contains _ | size | isEmpty => []

inductive Answer where
  | done
  /-- There is no answer, since the source of errors broke off. -/
  | brokenOff
  | error (e : CodedError)
  | flag (b : Bool)
  | count (n : Nat)
  deriving DecidableEq

/-- The answer to a request, and what was reported meanwhile. -/
structure Response where
  answer : Answer
  notices : List RegistryNotice
  deriving DecidableEq

def perform (r : Registry) : Request → Registry × Response
  | .build code message cause =>
    let (after, notices) := r.register ⟨code, message, cause⟩
    (after, ⟨.error ⟨code, message, cause⟩, notices⟩)
  | .register e =>
    let (after, notices) := r.register e
    (after, ⟨.done, notices⟩)
  | .registerFrom supply =>
    let (after, notices) := r.registerFrom supply
    (after, ⟨if supply.breaksOff then .brokenOff else .done, notices⟩)
  | .lookup code =>
    let (e, notices) := r.lookup code
    (r, ⟨.error e, notices⟩)
  | .contains code => (r, ⟨.flag (r.contains code), []⟩)
  | .size => (r, ⟨.count r.size, []⟩)
  | .isEmpty => (r, ⟨.flag r.isEmpty, []⟩)

/-- Performs the requests of a history one after the other. -/
def run : Registry → List Request → Registry × List Response
  | r, [] => (r, [])
  | r, request :: rest =>
    let (r, response) := r.perform request
    let (r, responses) := run r rest
    (r, response :: responses)

/-- How many of the notices are logged as warnings. -/
def warnings (notices : List RegistryNotice) : Nat :=
  notices.countP fun notice => notice.logEntry.level == .warn

/-- The notices that are logged as warnings. -/
def warned (notices : List RegistryNotice) : List RegistryNotice :=
  notices.filter fun notice => notice.logEntry.level == .warn

theorem warnings_eq (notices : List RegistryNotice) :
    warnings notices = (warned notices).length := List.countP_eq_length_filter

/-! ## One request -/

/-- Registrations give no other notices than warnings. -/
theorem warned_registerMany (c : Catalog) (errors : List CodedError) :
    warned (c.registerMany errors).2 = (c.registerMany errors).2 := by
  induction errors generalizing c with
  | nil => rfl
  | cons e rest ih =>
    have hfirst : warned (c.register e).2 = (c.register e).2 := by
      rw [Catalog.register_notices]
      split <;> rfl
    rw [Catalog.registerMany_cons, warned, List.filter_append]
    exact congrArg₂ (· ++ ·) hfirst (ih _)

/-- A request leaves the catalog that files its errors. -/
theorem catalog_perform (r : Registry) (request : Request) :
    (r.perform request).1.catalog = (r.catalog.registerMany request.errors).1 := by
  cases request with
  | build code message cause => exact catalog_write r false (·.register ⟨code, message, cause⟩)
  | register e => exact catalog_write r false (·.register e)
  | registerFrom supply => exact catalog_write r supply.breaksOff (·.registerMany supply.yielded)
  | lookup | contains | size | isEmpty => rfl

/-- The warnings of a request are about its registrations. -/
theorem warned_perform (r : Registry) (request : Request) :
    warned (r.perform request).2.notices = (r.catalog.registerMany request.errors).2 := by
  cases request with
  | build | register =>
    rw [← warned_registerMany, Request.errors, Catalog.registerMany_cons]
    exact congrArg warned (List.append_nil _).symm
  | registerFrom => exact warned_registerMany _ _
  | lookup code =>
    show warned (r.lookup code).2 = []
    rw [lookup]
    split <;> rfl
  | contains | size | isEmpty => rfl

/-- The response hangs on the errors that are found, and so do those that are
found afterwards. -/
theorem perform_congr {r s : Registry} (halike : r.catalog.Alike s.catalog) (request : Request) :
    (r.perform request).2 = (s.perform request).2 ∧
      (r.perform request).1.catalog.Alike (s.perform request).1.catalog := by
  constructor
  · cases request with
    | build | register => simp only [perform, register, write, halike.notices_register]
    | registerFrom => simp only [perform, registerFrom, write, halike.notices_registerMany]
    | lookup code => simp only [perform, lookup, find?, halike code]
    | contains => simp only [perform, contains, halike.contains]
    | size => simp only [perform, size, halike.size]
    | isEmpty => simp only [perform, isEmpty, size, halike.size]
  · intro code
    rw [catalog_perform, catalog_perform, Catalog.find?_registerMany, Catalog.find?_registerMany,
      halike code]

/-! ## Histories -/

theorem run_cons (r : Registry) (request : Request) (rest : List Request) :
    r.run (request :: rest) =
      (((r.perform request).1.run rest).1,
        (r.perform request).2 :: ((r.perform request).1.run rest).2) := rfl

theorem catalog_run (r : Registry) (history : List Request) :
    (r.run history).1.catalog = (r.catalog.registerMany (history.flatMap Request.errors)).1 := by
  induction history generalizing r with
  | nil => rfl
  | cons request rest ih =>
    rw [run_cons, ih, catalog_perform, List.flatMap_cons, Catalog.registerMany_append]

theorem find?_run (r : Registry) (history : List Request) (code : Code) :
    (r.run history).1.find? code =
      ((history.flatMap Request.errors).reverse.find? (·.code == code)).or (r.find? code) := by
  rw [find?, catalog_run, Catalog.find?_registerMany]
  rfl

theorem warned_run (r : Registry) (history : List Request) :
    warned ((r.run history).2.flatMap (·.notices)) =
      (r.catalog.registerMany (history.flatMap Request.errors)).2 := by
  induction history generalizing r with
  | nil => rfl
  | cons request rest ih =>
    rw [run_cons, List.flatMap_cons, warned, List.filter_append, List.flatMap_cons,
      Catalog.registerMany_append, ← catalog_perform]
    exact congrArg₂ (· ++ ·) (warned_perform r request) (ih _)

/-- At any point of a history each registration has brought a new code or a
warning. -/
theorem size_run (r : Registry) (history : List Request) :
    (r.run history).1.size + warnings ((r.run history).2.flatMap (·.notices)) =
      r.size + (history.flatMap Request.errors).length := by
  rw [warnings_eq, warned_run, size, catalog_run]
  exact r.catalog.size_registerMany _

theorem run_congr {r s : Registry} (halike : r.catalog.Alike s.catalog) (history : List Request) :
    (r.run history).2 = (s.run history).2 := by
  induction history generalizing r s with
  | nil => rfl
  | cons request rest ih =>
    obtain ⟨hresponse, hcatalog⟩ := perform_congr halike request
    rw [run_cons, run_cons, hresponse, ih hcatalog]

/-! ## What a registry knows -/

/-- Of the errors in a list, this is the last one with its code. -/
def LastOf (errors : List CodedError) (e : CodedError) : Prop :=
  ∃ earlier later, errors = earlier ++ e :: later ∧ ∀ other ∈ later, other.code ≠ e.code

/-- What a registry answers in which these errors were registered, in this
order. -/
structure Keeps (r : Registry) (errors : List CodedError) : Prop where
  contains : ∀ code, r.contains code = true ↔ ∃ e ∈ errors, e.code = code
  /-- A known code is answered with the last error that was registered under
  it, message and cause included. -/
  known : ∀ code, r.contains code = true →
    ∃ e, LastOf errors e ∧ e.code = code ∧ r.perform (.lookup code) = (r, ⟨.error e, []⟩)
  /-- Any other code is answered with the built-in general failure, whatever is
  registered under the code of that. -/
  unknown : ∀ code, r.contains code = false →
    r.perform (.lookup code) = (r, ⟨.error Builtin.generalFailure, [.unknown code]⟩)
  size : r.size = (errors.map (·.code)).toFinset.card

theorem lastOf_of_find? {errors : List CodedError} {code : Code} {e : CodedError}
    (hfound : errors.reverse.find? (·.code == code) = some e) :
    LastOf errors e ∧ e.code = code := by
  -- The list is searched from its end, so what is passed over was registered later.
  obtain ⟨hcode, later, earlier, hsplit, hlater⟩ := List.find?_eq_some_iff_append.1 hfound
  rw [beq_iff_eq] at hcode
  refine ⟨⟨earlier.reverse, later.reverse, ?_, ?_⟩, hcode⟩
  · rw [← List.reverse_reverse errors, hsplit]
    simp
  · intro other hother
    have hne := hlater other (List.mem_reverse.1 hother)
    rw [hcode]
    simpa using hne

theorem keeps_of_find? {r : Registry} {errors : List CodedError}
    (hfind : ∀ code, r.find? code = errors.reverse.find? (·.code == code)) : r.Keeps errors := by
  have hcontains : ∀ code, r.contains code = (r.find? code).isSome :=
    fun code => r.catalog.contains_eq_isSome code
  have hmem : ∀ code, r.contains code = true ↔ ∃ e ∈ errors, e.code = code := by
    intro code
    rw [hcontains, hfind, List.find?_isSome]
    simp only [List.mem_reverse, beq_iff_eq]
  constructor
  case contains => exact hmem
  case known =>
    intro code hknown
    rw [hcontains] at hknown
    obtain ⟨e, he⟩ := Option.isSome_iff_exists.1 hknown
    obtain ⟨hlast, hcode⟩ := lastOf_of_find? ((hfind code).symm.trans he)
    refine ⟨e, hlast, hcode, ?_⟩
    rw [perform, lookup, he]
  case unknown =>
    intro code hunknown
    rw [hcontains, Option.isSome_eq_false_iff, Option.isNone_iff_eq_none] at hunknown
    rw [perform, lookup, hunknown]
  case size =>
    show r.catalog.size = _
    rw [← r.catalog.card_codes]
    congr 1
    ext code
    rw [List.mem_toFinset, List.mem_toFinset, Catalog.mem_codes, List.mem_map]
    exact hmem code

/-! ## From the beginning -/

/-- A new registry, with the built-in errors or with none. -/
def fresh (builtins : Bool) : Registry := if builtins then standard else empty

/-- The errors that a new registry comes with. -/
def preset (builtins : Bool) : List CodedError := if builtins then Builtin.all else []

theorem find?_fresh (builtins : Bool) (code : Code) :
    (fresh builtins).find? code = (preset builtins).reverse.find? (·.code == code) := by
  cases builtins with
  | false => rfl
  | true =>
    show (empty.registerFrom ⟨Builtin.all, false⟩).1.catalog.find? code = _
    rw [registerFrom, catalog_write, Catalog.find?_registerMany]
    exact Option.or_none

theorem keeps_run (builtins : Bool) (history : List Request) :
    ((fresh builtins).run history).1.Keeps
      (preset builtins ++ history.flatMap Request.errors) := by
  apply keeps_of_find?
  intro code
  rw [find?_run, find?_fresh, List.reverse_append, List.find?_append]

/-- An error of the same code as the general failure is no answer to unknown
codes. -/
example :
    (empty.run [.registerFrom ⟨[.bare "general_failure" "try again"], true⟩,
      .lookup ⟨"general_failure"⟩, .lookup ⟨"nobody_knows"⟩]).2 =
      [⟨.brokenOff, []⟩, ⟨.error (.bare "general_failure" "try again"), []⟩,
        ⟨.error Builtin.generalFailure, [.unknown ⟨"nobody_knows"⟩]⟩] := by
  decide

/-- After any history a registry answers with the last registration of each
code, and each registration has brought a new code or a warning.  A source that
breaks off then has the same notices, and all later requests the same
responses, as a source of the same errors that comes to its end. -/
theorem last_registration_wins (builtins : Bool) (history : List Request) :
    let reached := (fresh builtins).run history
    let registered := history.flatMap Request.errors
    reached.1.Keeps (preset builtins ++ registered) ∧
      reached.1.size + warnings (reached.2.flatMap (·.notices)) =
        (fresh builtins).size + registered.length ∧
      ∀ yielded later,
        let broken := reached.1.perform (.registerFrom ⟨yielded, true⟩)
        let complete := reached.1.perform (.registerFrom ⟨yielded, false⟩)
        broken.2.notices = complete.2.notices ∧
          (broken.1.run later).2 = (complete.1.run later).2 := by
  refine ⟨keeps_run builtins history, size_run _ history, ?_⟩
  intro yielded later
  refine ⟨rfl, run_congr ?_ later⟩
  rw [catalog_perform, catalog_perform]
  rfl

end Registry

end Recourse
