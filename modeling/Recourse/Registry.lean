import Recourse.Fault.Builtin
import Recourse.Lock
import Recourse.Log

/-!
# The registry of coded errors

A registry finds the full error for a code.  It holds one error per code; a
later registration replaces an earlier one, and says so.  A lookup never
fails: a code that nobody registered is answered with the general failure.

The errors are filed in a `Catalog`, and the registry keeps its catalog behind
a lock.  A group of errors is registered while the lock is held once, so a
source of errors that breaks off poisons the lock; the registry goes on with
what was filed by then.

Each operation gives the new registry together with the notices it emitted.
-/

namespace Recourse

/-- Coded errors, filed under codes. -/
structure Catalog where
  rows : List (Code × CodedError)
  /-- There is one row for each code. -/
  distinct : (rows.map (·.1)).Nodup
  /-- Each error is filed under its own code. -/
  filed : ∀ row ∈ rows, row.2.code = row.1

/-- What a registry reports while it works. -/
inductive RegistryNotice where
  /-- A registration replaced the earlier error with this code. -/
  | replaced (code : Code)
  /-- A lookup did not know this code. -/
  | unknown (code : Code)
  deriving DecidableEq, Repr

/-- The log entry of a notice. -/
def RegistryNotice.logEntry : RegistryNotice → LogEntry
  | replaced code =>
    ⟨.warn, "error code registered twice; keeping the later registration",
      [("code", code.text)]⟩
  | unknown code =>
    ⟨.debug, "unknown error code; falling back to general failure", [("code", code.text)]⟩

namespace Catalog

/-- Nothing filed. -/
def empty : Catalog := ⟨[], List.nodup_nil, fun _ h => absurd h List.not_mem_nil⟩

/-- The error filed under a code. -/
def find? (c : Catalog) (code : Code) : Option CodedError :=
  (c.rows.find? (·.1 == code)).map (·.2)

/-- The number of codes. -/
def size (c : Catalog) : Nat := c.rows.length

/-- Whether a code has a row. -/
def contains (c : Catalog) (code : Code) : Bool := c.rows.any (·.1 == code)

/-! ## Filing -/

/-- The rows with `e` in the place of the error under `code`. -/
def replace (rows : List (Code × CodedError)) (code : Code) (e : CodedError) :
    List (Code × CodedError) :=
  rows.map fun row => if row.1 = code then (row.1, e) else row

theorem replace_codes (rows : List (Code × CodedError)) (code : Code) (e : CodedError) :
    (replace rows code e).map (·.1) = rows.map (·.1) := by
  simp only [replace, List.map_map]
  apply List.map_congr_left
  intro row _
  by_cases h : row.1 = code <;> simp [h]

theorem filed_replace {rows : List (Code × CodedError)} {e : CodedError}
    (hfiled : ∀ row ∈ rows, row.2.code = row.1) :
    ∀ row ∈ replace rows e.code e, row.2.code = row.1 := by
  intro row hrow
  obtain ⟨old, hold, rfl⟩ := List.mem_map.1 hrow
  split
  case isTrue h => exact h.symm
  case isFalse => exact hfiled old hold

theorem nodup_append_row {c : Catalog} {e : CodedError} (hnew : ¬c.contains e.code) :
    ((c.rows ++ [(e.code, e)]).map (·.1)).Nodup := by
  rw [List.map_append, List.nodup_append]
  refine ⟨c.distinct, by simp, ?_⟩
  intro code hcode other hother heq
  simp only [List.map_cons, List.map_nil, List.mem_singleton] at hother
  obtain ⟨row, hrow, rfl⟩ := List.mem_map.1 hcode
  exact hnew (List.any_eq_true.2 ⟨row, hrow, by simp [heq, hother]⟩)

theorem filed_append_row {c : Catalog} {e : CodedError} :
    ∀ row ∈ c.rows ++ [(e.code, e)], row.2.code = row.1 := by
  intro row hrow
  rcases List.mem_append.1 hrow with hold | hnew
  · exact c.filed row hold
  · rw [List.mem_singleton.1 hnew]

/-- Files an error under its own code. -/
def insert (c : Catalog) (e : CodedError) : Catalog :=
  if h : c.contains e.code then
    ⟨replace c.rows e.code e, by rw [replace_codes]; exact c.distinct, filed_replace c.filed⟩
  else
    ⟨c.rows ++ [(e.code, e)], nodup_append_row h, filed_append_row⟩

theorem contains_eq_isSome (c : Catalog) (code : Code) :
    c.contains code = (c.find? code).isSome := by
  rw [Bool.eq_iff_iff, find?, Option.isSome_map, List.find?_isSome, contains, List.any_eq_true]

theorem find?_replace (rows : List (Code × CodedError)) (e : CodedError) (code : Code) :
    (replace rows e.code e).find? (·.1 == code) =
      if e.code = code then (rows.find? (·.1 == code)).map fun row => (row.1, e)
      else rows.find? (·.1 == code) := by
  induction rows with
  | nil => simp [replace]
  | cons old rest ih =>
    simp only [replace, List.map_cons] at ih ⊢
    by_cases hold : old.1 = e.code <;> by_cases hcode : e.code = code <;>
      by_cases hfound : old.1 = code <;> simp_all

/-- An error is found under its own code, and the others where they were. -/
theorem find?_insert (c : Catalog) (e : CodedError) (code : Code) :
    (c.insert e).find? code = if e.code = code then some e else c.find? code := by
  unfold insert
  split
  case isTrue h =>
    rw [find?, find?_replace]
    split
    case isTrue heq =>
      subst heq
      rw [contains_eq_isSome, find?, Option.isSome_map] at h
      obtain ⟨row, hrow⟩ := Option.isSome_iff_exists.1 h
      rw [hrow]
      rfl
    case isFalse => rfl
  case isFalse h =>
    rw [find?, List.find?_append]
    split
    case isTrue heq =>
      subst heq
      rw [contains_eq_isSome, find?, Option.isSome_map, Bool.not_eq_true,
        Option.isSome_eq_false_iff, Option.isNone_iff_eq_none] at h
      simp [h]
    case isFalse hne => simp [find?, hne]

theorem contains_insert (c : Catalog) (e : CodedError) (code : Code) :
    (c.insert e).contains code = (e.code == code || c.contains code) := by
  rw [contains_eq_isSome, contains_eq_isSome, find?_insert]
  by_cases hcode : e.code = code <;> simp [hcode]

/-- Only a new code makes the catalog larger. -/
theorem size_insert (c : Catalog) (e : CodedError) :
    (c.insert e).size = if c.contains e.code then c.size else c.size + 1 := by
  unfold insert
  split <;> simp_all [size, replace]

/-- Whatever is found under a code has that code. -/
theorem code_of_find? {c : Catalog} {code : Code} {e : CodedError}
    (h : c.find? code = some e) : e.code = code := by
  obtain ⟨row, hrow, rfl⟩ := Option.map_eq_some_iff.1 h
  have hkey : row.1 = code := by simpa using List.find?_some hrow
  rw [c.filed row (List.mem_of_find?_eq_some hrow), hkey]

/-- Files an error; a notice about the error that it replaces is emitted. -/
def register (c : Catalog) (e : CodedError) : Catalog × List RegistryNotice :=
  (c.insert e, ((c.find? e.code).map fun previous => .replaced previous.code).toList)

/-- Files errors one after the other. -/
def registerMany : Catalog → List CodedError → Catalog × List RegistryNotice
  | c, [] => (c, [])
  | c, e :: rest =>
    let (c, first) := c.register e
    let (c, later) := c.registerMany rest
    (c, first ++ later)

end Catalog

/-- A catalog of errors that is shared. -/
structure Registry where
  lock : Lock Catalog

/-- Errors to register: what the source yields, and whether it then breaks off
instead of coming to its end. -/
structure Supply where
  yielded : List CodedError
  breaksOff : Bool

namespace Registry

/-- Nothing registered. -/
def empty : Registry := ⟨.around .empty⟩

/-- The catalog as it is.  A poisoned lock is not minded, since a writer that
breaks off leaves whole entries behind. -/
def catalog (r : Registry) : Catalog := Lock.recover r.lock.take

/-- The error registered under a code. -/
def find? (r : Registry) (code : Code) : Option CodedError := r.catalog.find? code

/-- Whether a code is registered. -/
def contains (r : Registry) (code : Code) : Bool := r.catalog.contains code

/-- The number of registered codes. -/
def size (r : Registry) : Nat := r.catalog.size

/-- Whether nothing is registered. -/
def isEmpty (r : Registry) : Bool := r.size == 0

/-! ## Registering -/

/-- Changes the catalog under the lock. -/
def write (r : Registry) (breaksOff : Bool)
    (change : Catalog → Catalog × List RegistryNotice) : Registry × List RegistryNotice :=
  let (catalog, notices) := change r.catalog
  (⟨r.lock.release catalog breaksOff⟩, notices)

theorem catalog_write (r : Registry) (breaksOff : Bool)
    (change : Catalog → Catalog × List RegistryNotice) :
    (r.write breaksOff change).1.catalog = (change r.catalog).1 := Lock.recover_take _

/-- Registers an error. -/
def register (r : Registry) (e : CodedError) : Registry × List RegistryNotice :=
  r.write false (·.register e)

/-- Registers what a source yields, while the lock is held once.  If the source
breaks off, what it has yielded stays registered. -/
def registerFrom (r : Registry) (s : Supply) : Registry × List RegistryNotice :=
  r.write s.breaksOff (·.registerMany s.yielded)

/-- The registry of the built-in errors. -/
def standard : Registry := (empty.registerFrom ⟨Builtin.all, false⟩).1

/-! ## Looking up -/

/-- The error for a code: the registered one, or the general failure together
with a notice. -/
def lookup (r : Registry) (code : Code) : CodedError × List RegistryNotice :=
  match r.find? code with
  | some e => (e, [])
  | none => (Builtin.generalFailure, [.unknown code])

/-- The error for a code. -/
def resolve (r : Registry) (code : Code) : CodedError := (r.lookup code).1

end Registry

end Recourse
