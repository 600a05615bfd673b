import Recourse.Proofs.Registrations

/-!
# Histories that register the same errors

What a registry answers for a code depends on the registrations of this code
alone, so registrations of different codes may change places.  Writers of
different codes therefore cannot disturb each other, in whatever order their
requests come in.

* `find?_run_eq` and `warningsAbout_run` bring the error that is found for a
  code, and the number of warnings about it, down to its registrations.
* `Agree` relates registries that nobody can tell apart, and `agree_run` says
  that histories with the same registrations of each code lead to such ones.
* `Interleaves` merges the histories of several writers in any order.
  `registrations_of_interleaves` is the induction over it: a code that one
  writer alone registers has the registrations of that writer.
-/

namespace Recourse

namespace Registry

/-! ## One code -/

/-- The registrations of a code, in order. -/
def registrations (history : List Request) (code : Code) : List CodedError :=
  (history.flatMap Request.errors).filter (·.code == code)

theorem registrations_cons (request : Request) (rest : List Request) (code : Code) :
    registrations (request :: rest) code =
      request.errors.filter (·.code == code) ++ registrations rest code := by
  rw [registrations, List.flatMap_cons, List.filter_append, registrations]

/-- The last registration of a code is found, and what was there before if there
is none. -/
theorem find?_run_eq (r : Registry) (history : List Request) (code : Code) :
    (r.run history).1.find? code = (registrations history code).getLast?.or (r.find? code) := by
  rw [find?_run, ← List.head?_filter, List.filter_reverse, List.head?_reverse, registrations]

/-- How many of the notices are logged as warnings about a code. -/
def warningsAbout (code : Code) (notices : List RegistryNotice) : Nat :=
  (warned notices).countP fun notice => notice.logEntry.fields == [("code", code.text)]

theorem countP_register (c : Catalog) (e : CodedError) (code : Code) :
    (c.register e).2.countP (fun notice => notice.logEntry.fields == [("code", code.text)]) =
      if e.code = code ∧ c.contains code = true then 1 else 0 := by
  rw [Catalog.register_notices]
  by_cases hcode : e.code = code
  · subst hcode
    by_cases hknown : c.contains e.code = true <;> simp [RegistryNotice.logEntry, hknown]
  · have htext : e.code.text ≠ code.text := fun heq => hcode (congrArg Code.mk heq)
    by_cases hknown : c.contains e.code = true <;>
      simp [RegistryNotice.logEntry, hknown, hcode, htext]

/-- Each registration of a code is warned about, except the first one if the
code is new. -/
theorem countP_registerMany (c : Catalog) (errors : List CodedError) (code : Code) :
    (c.registerMany errors).2.countP
        (fun notice => notice.logEntry.fields == [("code", code.text)]) =
      (errors.filter (·.code == code)).length - if c.contains code then 0 else 1 := by
  induction errors generalizing c with
  | nil => exact (Nat.zero_sub _).symm
  | cons e rest ih =>
    rw [Catalog.registerMany_cons, List.countP_append, countP_register, ih,
      Catalog.contains_insert]
    by_cases hcode : e.code = code
    · by_cases hknown : c.contains code = true
      · simp [hcode, hknown, Nat.add_comm]
      · simp [hcode, hknown]
    · simp [hcode]

theorem warningsAbout_run (r : Registry) (history : List Request) (code : Code) :
    warningsAbout code ((r.run history).2.flatMap (·.notices)) =
      (registrations history code).length - if r.contains code then 0 else 1 := by
  rw [warningsAbout, warned_run, countP_registerMany]
  rfl

/-! ## The same registrations of each code -/

/-- Two registries that answer alike, now and ever after. -/
structure Agree (r s : Registry) : Prop where
  lookup : ∀ code, r.lookup code = s.lookup code
  contains : ∀ code, r.contains code = s.contains code
  size : r.size = s.size
  later : ∀ requests, (r.run requests).2 = (s.run requests).2

theorem agree_iff {r s : Registry} : r.Agree s ↔ r.catalog.Alike s.catalog := by
  constructor
  · intro h code
    have hlookup := h.lookup code
    rw [Registry.lookup, Registry.lookup] at hlookup
    show r.find? code = s.find? code
    cases hr : r.find? code <;> cases hs : s.find? code <;> simp_all
  · intro h
    constructor
    case lookup =>
      intro code
      rw [Registry.lookup, Registry.lookup, find?, find?, h code]
    case contains => exact h.contains
    case size => exact h.size
    case later => exact run_congr h

theorem Agree.refl (r : Registry) : r.Agree r := agree_iff.2 fun _ => rfl

/-- Histories with the same registrations of each code leave registries that
agree, and bring the same warnings about each code. -/
theorem agree_run {r s : Registry} (hstart : r.Agree s) {xs ys : List Request}
    (hsame : ∀ code, registrations xs code = registrations ys code) :
    (r.run xs).1.Agree (s.run ys).1 ∧
      ∀ code, warningsAbout code ((r.run xs).2.flatMap (·.notices)) =
        warningsAbout code ((s.run ys).2.flatMap (·.notices)) := by
  constructor
  · rw [agree_iff]
    intro code
    show (r.run xs).1.find? code = (s.run ys).1.find? code
    rw [find?_run_eq, find?_run_eq, hsame, find?, find?, agree_iff.1 hstart code]
  · intro code
    rw [warningsAbout_run, warningsAbout_run, hsame, hstart.contains]

/-! ## Writers -/

/-- The history is made of the histories of the writers, each in its own order,
and the writers take turns in any way. -/
inductive Interleaves : List (List Request) → List Request → Prop
  | done {writers} (hdone : ∀ writer ∈ writers, writer = []) : Interleaves writers []
  | step {writers k request rest history} (hnext : writers[k]? = some (request :: rest))
      (hrest : Interleaves (writers.set k rest) history) :
      Interleaves writers (request :: history)

theorem Interleaves.nil_cons {writers : List (List Request)} {history : List Request}
    (h : Interleaves writers history) : Interleaves ([] :: writers) history := by
  induction h with
  | done hdone => exact .done (List.forall_mem_cons.2 ⟨rfl, hdone⟩)
  | @step writers k request rest history hnext _ ih => exact .step (k := k + 1) hnext ih

/-- The writers may come one after the other. -/
theorem interleaves_flatten (writers : List (List Request)) :
    Interleaves writers writers.flatten := by
  induction writers with
  | nil => exact .done fun _ hmem => absurd hmem List.not_mem_nil
  | cons writer others ih =>
    induction writer with
    | nil => exact ih.nil_cons
    | cons request rest ihrest => exact .step (k := 0) rfl ihrest

/-- No code is registered in both histories. -/
def Apart (v w : List Request) : Prop :=
  ∀ d ∈ v.flatMap Request.errors, ∀ e ∈ w.flatMap Request.errors, d.code ≠ e.code

instance (v w : List Request) : Decidable (Apart v w) :=
  inferInstanceAs (Decidable (∀ d ∈ v.flatMap Request.errors, ∀ e ∈ w.flatMap Request.errors, _))

theorem Apart.symm {v w : List Request} (h : Apart v w) : Apart w v :=
  fun e he d hd heq => h d hd e he heq.symm

theorem registrations_eq_nil {history : List Request} {code : Code} :
    registrations history code = [] ↔ ∀ e ∈ history.flatMap Request.errors, e.code ≠ code := by
  rw [registrations, List.filter_eq_nil_iff]
  simp only [beq_iff_eq, ne_eq]

theorem apart_of_ne {writers : List (List Request)} (hapart : writers.Pairwise Apart) {j k : Nat}
    {v w : List Request} (hj : writers[j]? = some v) (hk : writers[k]? = some w) (hne : j ≠ k) :
    Apart v w := by
  obtain ⟨hjlt, rfl⟩ := List.getElem?_eq_some_iff.1 hj
  obtain ⟨hklt, rfl⟩ := List.getElem?_eq_some_iff.1 hk
  rw [List.pairwise_iff_getElem] at hapart
  rcases Nat.lt_or_gt_of_ne hne with hlt | hgt
  · exact hapart j k hjlt hklt hlt
  · exact (hapart k j hklt hjlt hgt).symm

/-- A code is registered by one writer at most. -/
theorem exists_owner {writers : List (List Request)} (hapart : writers.Pairwise Apart)
    (code : Code) :
    ∃ k : Nat, ∀ (j : Nat) (writer : List Request), writers[j]? = some writer → j ≠ k →
      registrations writer code = [] := by
  by_cases howned : ∃ (k : Nat) (owner : List Request),
      writers[k]? = some owner ∧ registrations owner code ≠ []
  · obtain ⟨k, owner, hk, howner⟩ := howned
    refine ⟨k, fun j writer hj hne => ?_⟩
    rw [registrations_eq_nil]
    intro e he hcode
    refine howner (registrations_eq_nil.2 fun d hd hsame => ?_)
    exact apart_of_ne hapart hj hk hne e he d hd (hcode.trans hsame.symm)
  · refine ⟨0, fun j writer hj _ => ?_⟩
    by_contra hregistered
    exact howned ⟨j, writer, hj, hregistered⟩

/-- A code that no other writer registers has the registrations of this one. -/
theorem registrations_of_interleaves {writers : List (List Request)} {history : List Request}
    (h : Interleaves writers history) {code : Code} {k : Nat}
    (hothers : ∀ j writer, writers[j]? = some writer → j ≠ k → registrations writer code = []) :
    registrations history code = registrations (writers[k]?.getD []) code := by
  induction h with
  | @done writers hdone =>
    cases hk : writers[k]? with
    | none => rfl
    | some writer => rw [hdone writer (List.mem_of_getElem? hk), Option.getD_some]
  | @step writers j request rest history hnext _ ih =>
    have hlt := (List.getElem?_eq_some_iff.1 hnext).1
    by_cases hj : j = k
    -- It is the turn of the writer of the code.
    · subst hj
      have hrest := ih fun i writer hi hne => by
        rw [List.getElem?_set_ne hne.symm] at hi
        exact hothers i writer hi hne
      rw [registrations_cons, hrest, List.getElem?_set_self hlt, hnext, Option.getD_some,
        Option.getD_some, registrations_cons]
    -- Another writer has nothing to do with the code, neither now nor later.
    · have hnone := hothers j _ hnext hj
      rw [registrations_cons, List.append_eq_nil_iff] at hnone
      have hrest := ih fun i writer hi hne => by
        by_cases hij : i = j
        · subst hij
          rw [List.getElem?_set_self hlt] at hi
          rw [← Option.some.inj hi]
          exact hnone.2
        · rw [List.getElem?_set_ne (Ne.symm hij)] at hi
          exact hothers i writer hi hne
      rw [registrations_cons, hnone.1, List.nil_append, hrest, List.getElem?_set_ne hj]

theorem getLast?_registrations {history : List Request} {e : CodedError}
    (hlast : LastOf (history.flatMap Request.errors) e) :
    (registrations history e.code).getLast? = some e := by
  obtain ⟨earlier, later, hsplit, hlater⟩ := hlast
  have hnone : later.filter (·.code == e.code) = [] := by
    rw [List.filter_eq_nil_iff]
    simpa using hlater
  rw [registrations, hsplit, List.filter_append, List.filter_cons, if_pos (beq_self_eq_true _),
    hnone, List.getLast?_concat]

/-- What becomes of the registrations of several writers in one history. -/
structure Undisturbed (r : Registry) (writers : List (List Request))
    (history : List Request) : Prop where
  /-- The last registration of a code by its writer is not lost. -/
  kept : ∀ writer ∈ writers, ∀ e, LastOf (writer.flatMap Request.errors) e →
    (r.run history).1.lookup e.code = (e, [])
  others : ∀ code, (∀ writer ∈ writers, ∀ e ∈ writer.flatMap Request.errors, e.code ≠ code) →
    (r.run history).1.lookup code = r.lookup code
  /-- It is as if the writers had come one after the other. -/
  serial : (r.run history).1.Agree (r.run writers.flatten).1
  warnings : ∀ code, warningsAbout code ((r.run history).2.flatMap (·.notices)) =
    warningsAbout code ((r.run writers.flatten).2.flatMap (·.notices))

theorem lookup_run_of_some {r : Registry} {history : List Request} {code : Code} {e : CodedError}
    (hlast : (registrations history code).getLast? = some e) :
    (r.run history).1.lookup code = (e, []) := by
  rw [lookup, find?_run_eq, hlast, Option.some_or]

theorem undisturbed (r : Registry) {writers : List (List Request)}
    (hapart : writers.Pairwise Apart) {history : List Request}
    (h : Interleaves writers history) : r.Undisturbed writers history := by
  have hsame : ∀ code, registrations history code = registrations writers.flatten code := by
    intro code
    obtain ⟨k, hothers⟩ := exists_owner hapart code
    rw [registrations_of_interleaves h hothers,
      registrations_of_interleaves (interleaves_flatten writers) hothers]
  obtain ⟨hagree, hwarnings⟩ := agree_run (.refl r) hsame
  constructor
  case kept =>
    intro writer hwriter e hlast
    obtain ⟨k, hothers⟩ := exists_owner hapart e.code
    obtain ⟨j, hj⟩ := List.getElem?_of_mem hwriter
    have hown := getLast?_registrations hlast
    have howner : j = k := by
      by_contra hne
      rw [hothers j writer hj hne] at hown
      cases hown
    apply lookup_run_of_some
    rwa [registrations_of_interleaves h hothers, ← howner, hj, Option.getD_some]
  case others =>
    intro code hnobody
    obtain ⟨k, hothers⟩ := exists_owner hapart code
    have hnone : registrations history code = [] := by
      rw [registrations_of_interleaves h hothers]
      cases hk : writers[k]? with
      | none => rfl
      | some writer => exact registrations_eq_nil.2 (hnobody writer (List.mem_of_getElem? hk))
    rw [lookup, lookup, find?_run_eq, hnone]
    rfl
  case serial => exact hagree
  case warnings => exact hwarnings

/-! ## Any order -/

/-- Registrations of different codes may change places, in groups or one by one,
with anything in between that registers nothing.  So writers of different codes
may take turns in any way: it is as if they had come one after the other, and
each registration is found as if its writer had been alone. -/
theorem registrations_commute {r s : Registry} (hstart : r.Agree s) :
    (∀ xs ys : List Request, (∀ code, registrations xs code = registrations ys code) →
      (r.run xs).1.Agree (s.run ys).1 ∧
        ∀ code, warningsAbout code ((r.run xs).2.flatMap (·.notices)) =
          warningsAbout code ((s.run ys).2.flatMap (·.notices))) ∧
    ∀ writers : List (List Request), writers.Pairwise Apart →
      ∀ history, Interleaves writers history → r.Undisturbed writers history := by
  constructor
  · intro xs ys hsame
    exact agree_run hstart hsame
  · intro writers hapart history h
    exact r.undisturbed hapart h

/-- A writer who registers one code twice, a writer whose group breaks off, and
someone who only looks. -/
def twoWriters : List (List Request) :=
  [[.register (.bare "leaked" "once"), .register (.bare "leaked" "again")],
    [.registerFrom ⟨[.bare "sealed" "shut", .bare "rotated" "done"], true⟩],
    [.lookup ⟨"leaked"⟩, .size]]

/-- The group may come between the two registrations of the other code, and its
errors may be registered one by one. -/
theorem twoWriters_commute :
    standard.Undisturbed twoWriters
      [.register (.bare "leaked" "once"), .lookup ⟨"leaked"⟩,
        .registerFrom ⟨[.bare "sealed" "shut", .bare "rotated" "done"], true⟩,
        .register (.bare "leaked" "again"), .size] ∧
    (standard.run
      [.registerFrom ⟨[.bare "sealed" "shut", .bare "rotated" "done"], true⟩]).1.Agree
      (standard.run
        [.register (.bare "sealed" "shut"), .isEmpty, .register (.bare "rotated" "done")]).1 := by
  obtain ⟨hsame, hwriters⟩ := registrations_commute (.refl standard)
  constructor
  · refine hwriters twoWriters (by decide) _ ?_
    exact .step (k := 0) rfl <| .step (k := 2) rfl <| .step (k := 1) rfl <|
      .step (k := 0) rfl <| .step (k := 2) rfl <| .done (by decide)
  · refine (hsame _ _ ?_).1
    intro code
    rfl

end Registry

end Recourse
