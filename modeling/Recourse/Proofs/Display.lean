import Mathlib.Data.List.Forall2
import Recourse.Fault.Text
import Recourse.Proofs.Chain

/-!
# What the texts of an error show

Both texts of a coded error are texts of its chain.  One line shows the front of
the chain, down to the first member that is no coded error and speaks for
whatever is below it.  A report shows every member.

* `text_eq_intercalate` is the induction over the layers of a fault that gives the
  one line.
* `report_eq_intercalate` takes a report apart into its lines, of which there is
  one for each member of the chain.
* `Shows` is what both come to, told along a walk through the sources.
-/

namespace Recourse

namespace Fault

/-! ## One line -/

/-- A chain is its coded members up to the first other one, and the rest. -/
structure Leads (leading : List CodedError) (rest : List Fault) (chain : List Fault) : Prop where
  split : chain = leading.map CodedError.toFault ++ rest
  /-- The rest begins with another kind of member, if it is not empty. -/
  ends : ∀ f ∈ rest.head?, f.asCoded? = none

/-- What is joined to one line: the messages of the leading members, and the text
of the member that ends them. -/
def shown (leading : List CodedError) (rest : List Fault) : List String :=
  leading.map (·.message) ++ (rest.head?.map text).toList

theorem Leads.shown_ne_nil {leading : List CodedError} {rest : List Fault} {f : Fault}
    (h : Leads leading rest f.chain) : shown leading rest ≠ [] := by
  intro hnil
  obtain ⟨hleading, hrest⟩ := List.append_eq_nil_iff.1 hnil
  rw [Option.toList_eq_nil_iff, Option.map_eq_none_iff, List.head?_eq_none_iff] at hrest
  refine f.chain_ne_nil ?_
  rw [h.split, List.map_eq_nil_iff.1 hleading, hrest]
  rfl

/-- Nothing leads a chain whose outermost layer is not coded. -/
theorem leads_of_uncoded {f : Fault} (h : f.asCoded? = none) : Leads [] f.chain f.chain := by
  refine ⟨rfl, ?_⟩
  intro g hg
  obtain rfl := Option.some.inj hg
  exact h

theorem Leads.cons {leading : List CodedError} {rest : List Fault} {cause : Fault}
    (h : Leads leading rest cause.chain) (code : Code) (message : String) :
    Leads (⟨code, message, some cause⟩ :: leading) rest (codedOver code message cause).chain :=
  ⟨congrArg (List.cons _) h.split, h.ends⟩

theorem text_eq_intercalate (f : Fault) :
    ∃ leading rest, Leads leading rest f.chain ∧
      f.text = ": ".intercalate (shown leading rest) := by
  induction f with
  | coded code message =>
    refine ⟨[⟨code, message, none⟩], [], ⟨rfl, fun _ hg => nomatch hg⟩, ?_⟩
    exact String.intercalate_singleton.symm
  | codedOver code message cause ih =>
    obtain ⟨leading, rest, hleads, htext⟩ := ih
    refine ⟨_, rest, hleads.cons code message, ?_⟩
    have hshown : shown (⟨code, message, some cause⟩ :: leading) rest =
        message :: shown leading rest := rfl
    rw [hshown, String.intercalate_cons_of_ne_nil hleads.shown_ne_nil, ← htext]
    rfl
  | foreign | foreignOver | io | note | expired =>
    exact ⟨[], _, leads_of_uncoded rfl, String.intercalate_singleton.symm⟩

end Fault

/-! ## Reports -/

/-- The entry of a member of a chain: message and code of a coded error without
what caused it, and the one line of any other fault. -/
inductive Fault.Enters : Fault → String → Prop
  | coded (e : CodedError) : Enters e.toFault (e.message ++ " (code: " ++ e.code.text ++ ")")
  | other {f : Fault} (huncoded : f.asCoded? = none) : Enters f f.text

theorem Fault.enters_entry (f : Fault) : f.Enters f.entry := by
  unfold entry
  cases hcoded : f.asCoded? with
  | some e =>
    obtain rfl := toFault_of_asCoded? hcoded
    exact .coded e
  | none => exact .other hcoded

theorem Fault.enters_map_entry (below : List Fault) :
    List.Forall₂ Enters below (below.map entry) := by
  induction below with
  | nil => exact .nil
  | cons f below ih => exact .cons f.enters_entry ih

theorem intercalate_cons_eq (separator first : String) (rest : List String) :
    separator.intercalate (first :: rest) = first ++ String.join (rest.map (separator ++ ·)) := by
  induction rest generalizing first with
  | nil => simp
  | cons second rest ih =>
    rw [String.intercalate_cons_cons, ih]
    simp [String.append_assoc]

/-- The mark of a line in the middle of a report. -/
theorem newline_append (mark text : String) : "\n" ++ (mark ++ text) = "\n" ++ mark ++ text :=
  String.append_assoc.symm

namespace CodedError

/-- The lines of a report with these entries. -/
def reportLines (e : CodedError) (entries : List String) : List String :=
  ("Error: " ++ e.message ++ " (code: " ++ e.code.text ++ ")") ::
    if entries = [] then [] else "Caused by:" :: entries.map ("  - " ++ ·)

theorem report_eq_intercalate (e : CodedError) :
    e.report = "\n".intercalate (e.reportLines (e.toFault.sources.map Fault.entry)) := by
  have hhead : "Error: " ++ e.headline =
      "Error: " ++ e.message ++ " (code: " ++ e.code.text ++ ")" := by
    simp only [headline, String.append_assoc]
  have hreport : e.report = "Error: " ++ e.headline ++
      (if (e.toFault.sources.map fun f => "\n  - " ++ f.entry).isEmpty then ""
        else "\nCaused by:") ++
      String.join (e.toFault.sources.map fun f => "\n  - " ++ f.entry) := rfl
  rw [hreport, hhead, reportLines]
  cases e.toFault.sources with
  | nil => rw [List.map_nil, List.map_nil, if_pos rfl, List.isEmpty_nil, if_pos rfl,
      String.intercalate_singleton, String.append_empty, String.join_nil, String.append_empty]
  | cons f below =>
    have hentries : (((f :: below).map Fault.entry).map ("  - " ++ ·)).map ("\n" ++ ·) =
        (f :: below).map fun g => "\n  - " ++ g.entry := by
      rw [List.map_map, List.map_map]
      exact List.map_congr_left fun g _ => newline_append "  - " g.entry
    have hheaded : (("Caused by:" :: ((f :: below).map Fault.entry).map ("  - " ++ ·)).map
        ("\n" ++ ·)) = "\nCaused by:" :: (f :: below).map fun g => "\n  - " ++ g.entry := by
      rw [List.map_cons, hentries]
      rfl
    have hsome : (f :: below).map Fault.entry ≠ [] := List.cons_ne_nil _ _
    rw [if_neg hsome, intercalate_cons_eq, hheaded, String.join_cons, String.append_assoc]
    rfl

/-- The texts of an error below whose outermost layer there are these members. -/
structure Shows (e : CodedError) (below : List Fault) : Prop where
  line : ∃ leading rest, Fault.Leads leading rest (e.toFault :: below) ∧
    e.text = ": ".intercalate (leading.map (·.message) ++ (rest.head?.map Fault.text).toList)
  /-- There is one entry for each member, in order, and the lines are found again
  if none of them is broken within. -/
  report : ∃ entries, List.Forall₂ Fault.Enters below entries ∧
    e.report = "\n".intercalate (e.reportLines entries) ∧
    ((∀ line ∈ e.reportLines entries, '\n' ∉ line.toList) →
      (e.report.split '\n').toList.map (·.copy) = e.reportLines entries)

theorem shows_sources (e : CodedError) : e.Shows e.toFault.sources := by
  constructor
  case line => exact e.toFault.text_eq_intercalate
  case report =>
    refine ⟨_, Fault.enters_map_entry _, e.report_eq_intercalate, ?_⟩
    intro hunbroken
    rw [report_eq_intercalate]
    exact (String.toList_split_intercalate hunbroken).trans (if_neg (List.cons_ne_nil _ _))

/-- The texts of an error cover its chain, which one meets on the way through the
sources.  One line shows the members down to the first that is not coded, and a
report has an entry for each member below the error, none of them left out, shown
twice or moved. -/
theorem texts_cover_chain (e : CodedError) :
    e.toFault.Walk (e.toFault :: e.toFault.sources) ∧ e.Shows e.toFault.sources :=
  ⟨e.toFault.walk_chain, e.shows_sources⟩

/-- An input or output failure ends the line with the text of its payload, whose
cause has an entry of its own in the report. -/
example :
    let e := Builtin.readFailure.wrap
      (.io .other (Builtin.timeout.wrap (Builtin.peerConnection.wrapText "reset").toFault).toFault)
    e.text = "read failure: operation timed out: peer connection failed: reset" ∧
      e.report = "Error: read failure (code: read_failure)\nCaused by:\n" ++
        "  - operation timed out: peer connection failed: reset\n" ++
        "  - peer connection failed (code: peer_connection)\n  - reset" := by
  decide +kernel

end CodedError

end Recourse
