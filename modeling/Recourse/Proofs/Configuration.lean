import Recourse.Backoff.Configuration
import Recourse.Proofs.NumberText

/-!
# Policies in documents

What a document says about a policy.

* `Counts` and `Span.Written` are the values that stand for a count and for a span.
  `Span.ofJson?_eq_some_iff` says that these are read and no others.
* `Given` is a setting with its value, and `Assigns` are fields that give some
  settings, among fields of other names.
* `ofFieldsFrom` reads fields over any policy in place of the standard one, so that
  they are taken one by one.  `ofFieldsFrom_known` and `ofFieldsFrom_unknown` are
  the steps, and `ofFieldsFrom_of_assigns` is the induction.
* `assigns_written` and `stable_toJson` are about what is written for a policy, which
  is an object of the same kind.
-/

namespace Recourse

attribute [local irreducible] Binary64.one Binary64.overflow

/-! ## Counts and spans -/

/-- A literal that stands for a count of at most `most`. -/
structure NumberLiteral.Counts (most value : Nat) (n : NumberLiteral) : Prop where
  sign : n.negative = false
  decimals : n.decimals = []
  exponent : n.exponent = none
  digits : ofDigits n.whole = value
  bound : value ≤ most

theorem NumberLiteral.word?_eq_some_iff {most value : Nat} {n : NumberLiteral} :
    n.word? most = some value ↔ n.Counts most value := by
  rw [word?]
  constructor
  · intro h
    split at h
    case isTrue hform =>
      simp only [isWhole, Bool.and_eq_true, List.isEmpty_iff, Option.isNone_iff_eq_none,
        Bool.not_eq_true', decide_eq_true_eq] at hform
      obtain ⟨⟨⟨hdecimals, hexponent⟩, hsign⟩, hbound⟩ := hform
      have hdigits := Option.some.inj h
      exact ⟨hsign, hdecimals, hexponent, hdigits, hdigits ▸ hbound⟩
    case isFalse => cases h
  · rintro ⟨hsign, hdecimals, hexponent, rfl, hbound⟩
    refine if_pos ?_
    simp only [isWhole, hdecimals, hexponent, hsign, hbound]
    rfl

theorem NumberLiteral.counts_ofNat {most value : Nat} (h : value ≤ most) :
    (ofNat value).Counts most value :=
  ⟨rfl, rfl, rfl, ofDigits_toDigits value, h⟩

namespace Span

/-- Two values that stand for the seconds and the nanoseconds of a span. -/
inductive Parts : Json → Json → Span → Prop
  | numbers {a b : NumberLiteral} {seconds nanos : Nat} {s : Span}
      (hseconds : a.Counts maxSecondsField seconds) (hnanos : b.Counts maxNanosField nanos)
      (hspan : s.nanos = seconds * secondNanos + nanos) :
      Parts (.number a) (.number b) s

/-- A value that stands for a span. -/
inductive Written : Json → Span → Prop
  | record {fields : List (List Piece × Json)} {seconds nanos : Json} {s : Span}
      (hnames : Json.named? fields = some [("secs", seconds), ("nanos", nanos)])
      (hparts : Parts seconds nanos s) : Written (.object fields) s
  | reversed {fields : List (List Piece × Json)} {seconds nanos : Json} {s : Span}
      (hnames : Json.named? fields = some [("nanos", nanos), ("secs", seconds)])
      (hparts : Parts seconds nanos s) : Written (.object fields) s
  | pair {seconds nanos : Json} {s : Span} (hparts : Parts seconds nanos s) :
      Written (.array [seconds, nanos]) s

theorem ofNanos?_eq_some_iff {nanos : Nat} {s : Span} :
    ofNanos? nanos = some s ↔ s.nanos = nanos := by
  rw [ofNanos?]
  constructor
  · intro h
    split at h
    case isTrue => rw [← Option.some.inj h]
    case isFalse => cases h
  · rintro rfl
    exact dif_pos s.le_most

theorem ofFields?_eq_some_iff {seconds nanos : Json} {s : Span} :
    ofFields? seconds nanos = some s ↔ Parts seconds nanos s := by
  simp only [ofFields?, Option.bind_eq_bind, Option.bind_eq_some_iff, ofNanos?_eq_some_iff]
  constructor
  · rintro ⟨a, ha, b, hb, hspan⟩
    match seconds, nanos with
    | .number m, .number n =>
      exact .numbers (NumberLiteral.word?_eq_some_iff.1 ha) (NumberLiteral.word?_eq_some_iff.1 hb)
        hspan
  · rintro ⟨hseconds, hnanos, hspan⟩
    exact ⟨_, NumberLiteral.word?_eq_some_iff.2 hseconds, _,
      NumberLiteral.word?_eq_some_iff.2 hnanos, hspan⟩

/-- The values that are read as spans are those that stand for one. -/
theorem ofJson?_eq_some_iff {v : Json} {s : Span} : ofJson? v = some s ↔ Written v s := by
  constructor
  · intro h
    unfold ofJson? at h
    split at h
    case h_1 fields =>
      rw [Option.bind_eq_bind, Option.bind_eq_some_iff] at h
      obtain ⟨named, hnames, hread⟩ := h
      split at hread
      case h_1 => exact .record hnames (ofFields?_eq_some_iff.1 hread)
      case h_2 => exact .reversed hnames (ofFields?_eq_some_iff.1 hread)
      case h_3 => cases hread
    case h_2 => exact .pair (ofFields?_eq_some_iff.1 h)
    case h_3 => cases h
  · intro h
    cases h with
    | record hnames hparts =>
      show (Json.named? _).bind _ = _
      rw [hnames]
      exact ofFields?_eq_some_iff.2 hparts
    | reversed hnames hparts =>
      show (Json.named? _).bind _ = _
      rw [hnames]
      exact ofFields?_eq_some_iff.2 hparts
    | pair hparts => exact ofFields?_eq_some_iff.2 hparts

theorem written_toJson (s : Span) : Written s.toJson s := by
  have hpos : 0 < secondNanos := by decide
  have hmost : s.nanos < (maxSecondsField + 1) * secondNanos :=
    Nat.lt_of_le_of_lt s.le_most (by decide)
  have hseconds : s.seconds ≤ maxSecondsField :=
    Nat.le_of_lt_succ ((Nat.div_lt_iff_lt_mul hpos).2 hmost)
  have hsubsecond : s.subsecond ≤ maxNanosField :=
    Nat.le_trans (Nat.le_of_lt (Nat.mod_lt s.nanos hpos)) (by decide)
  exact .record rfl (.numbers (NumberLiteral.counts_ofNat hseconds)
    (NumberLiteral.counts_ofNat hsubsecond) (Nat.div_add_mod' s.nanos secondNanos).symm)

end Span

/-! ## Fields -/

namespace Json

theorem named?_record (fields : List (String × Json)) :
    named? (fields.map fun (name, value) => (Piece.ofText name, value)) = some fields := by
  induction fields with
  | nil => rfl
  | cons field fields ih =>
    rw [named?] at ih ⊢
    rw [List.map_cons, List.mapM_cons, ih]
    simp

variable {α : Type} {fields : List (String × Json)} {name : String}

theorem field?_cons_of_ne {other : String} (hother : other ≠ name) (value : Json)
    (read : Json → Option α) (absent : Option α) :
    field? ((other, value) :: fields) name read absent = field? fields name read absent := by
  rw [field?, field?, List.filter_cons_of_neg (by simpa using hother)]

theorem filter_eq_nil_of_not_mem (hname : name ∉ fields.map Prod.fst) :
    fields.filter (·.1 == name) = [] := by
  rw [List.filter_eq_nil_iff]
  intro field hfield hsame
  exact hname (List.mem_map.2 ⟨field, hfield, beq_iff_eq.1 hsame⟩)

theorem field?_of_not_mem (hname : name ∉ fields.map Prod.fst) (read : Json → Option α)
    (absent : Option α) : field? fields name read absent = absent := by
  rw [field?, filter_eq_nil_of_not_mem hname]

/-- A field that is read counts as the value that is kept without it. -/
theorem field?_cons_self (hname : name ∉ fields.map Prod.fst) {value : Json}
    {read : Json → Option α} {a : α} (hread : read value = some a) (absent : Option α) :
    field? ((name, value) :: fields) name read absent = field? fields name read (some a) := by
  have hfilter : ((name, value) :: fields).filter (·.1 == name) = [(name, value)] := by
    rw [List.filter_cons, if_pos (beq_self_eq_true name), filter_eq_nil_of_not_mem hname]
  rw [field?_of_not_mem hname, field?, hfilter]
  exact hread

end Json

namespace Policy

/-! ## Settings -/

/-- A setting with its value. -/
inductive Given where
  | initial (value : Span)
  | ceiling (value : Span)
  | budget (value : Option Span)
  | multiplier (value : Binary64)
  | jitter (value : Binary64)

namespace Given

/-- The name of its field. -/
def name : Given → String
  | initial _ => "initial_interval"
  | ceiling _ => "max_interval"
  | budget _ => "max_elapsed_time"
  | multiplier _ => "multiplier"
  | jitter _ => "randomization_factor"

/-- The policy with this setting replaced. -/
def replace (p : Policy) : Given → Policy
  | initial value => { p with initial := value }
  | ceiling value => { p with ceiling := value }
  | budget value => { p with budget := value }
  | multiplier value => { p with multiplier := value }
  | jitter value => { p with jitter := value }

/-- A JSON value that stands for the value of the setting. -/
inductive Written : Given → Json → Prop
  | initial {v : Json} {s : Span} (h : Span.Written v s) : Written (.initial s) v
  | ceiling {v : Json} {s : Span} (h : Span.Written v s) : Written (.ceiling s) v
  | unlimited : Written (.budget none) .null
  | budget {v : Json} {s : Span} (h : Span.Written v s) : Written (.budget (some s)) v
  | multiplier {n : NumberLiteral} {x : Binary64} (h : n.binary64? = some x) :
    Written (.multiplier x) (.number n)
  | jitter {n : NumberLiteral} {x : Binary64} (h : n.binary64? = some x) :
    Written (.jitter x) (.number n)

theorem name_mem (g : Given) : g.name ∈ fieldNames := by
  cases g <;> simp [name, fieldNames]

theorem replace_comm (p : Policy) {x y : Given} (hnames : x.name ≠ y.name) :
    replace (replace p x) y = replace (replace p y) x := by
  cases x <;> cases y <;> first | rfl | exact absurd rfl hnames

/-- Settings of different names may be replaced in any order. -/
theorem foldl_replace_perm {given order : List Given} (horder : order.Perm given)
    (hdistinct : (given.map name).Nodup) (p : Policy) :
    order.foldl replace p = given.foldl replace p := by
  refine horder.foldl_eq' ?_ p
  intro x hx y hy p
  by_cases hsame : x = y
  · rw [hsame]
  · refine replace_comm p fun hnames => hsame ?_
    exact List.inj_on_of_nodup_map hdistinct (horder.subset hx) (horder.subset hy) hnames

end Given

/-! ## Reading field by field -/

/-- The policy of the fields that are given; the others are those of `p`. -/
def ofFieldsFrom (p : Policy) (fields : List (String × Json)) : Option Policy := do
  let initial ← Json.field? fields "initial_interval" Span.ofJson? (some p.initial)
  let ceiling ← Json.field? fields "max_interval" Span.ofJson? (some p.ceiling)
  let budget ← Json.field? fields "max_elapsed_time" (Json.nullable? Span.ofJson?) (some p.budget)
  let multiplier ← Json.field? fields "multiplier" Json.binary64? (some p.multiplier)
  let jitter ← Json.field? fields "randomization_factor" Json.binary64? (some p.jitter)
  return { initial, ceiling, budget, multiplier, jitter }

theorem ofFields?_eq (fields : List (String × Json)) :
    ofFields? fields = ofFieldsFrom standard fields := rfl

theorem ofFieldsFrom_nil (p : Policy) : ofFieldsFrom p [] = some p := rfl

theorem ofFieldsFrom_unknown (p : Policy) {other : String} (hother : other ∉ fieldNames)
    (value : Json) (fields : List (String × Json)) :
    ofFieldsFrom p ((other, value) :: fields) = ofFieldsFrom p fields := by
  have hne : ∀ name ∈ fieldNames, other ≠ name := by
    rintro name hname rfl
    exact hother hname
  rw [ofFieldsFrom, ofFieldsFrom, Json.field?_cons_of_ne (hne _ (by decide)),
    Json.field?_cons_of_ne (hne _ (by decide)), Json.field?_cons_of_ne (hne _ (by decide)),
    Json.field?_cons_of_ne (hne _ (by decide)), Json.field?_cons_of_ne (hne _ (by decide))]

theorem nullable?_of_written {v : Json} {s : Span} (h : Span.Written v s) :
    Json.nullable? Span.ofJson? v = some (some s) := by
  have hread := Span.ofJson?_eq_some_iff.2 h
  cases h <;> exact congrArg (Option.map some) hread

theorem ofFieldsFrom_known (p : Policy) {g : Given} {value : Json} (hvalue : g.Written value)
    {fields : List (String × Json)} (hname : g.name ∉ fields.map Prod.fst) :
    ofFieldsFrom p ((g.name, value) :: fields) = ofFieldsFrom (g.replace p) fields := by
  cases hvalue <;>
    simp only [ofFieldsFrom, Given.replace, Given.name, Json.field?_cons_of_ne, ne_eq,
      String.reduceEq, not_false_eq_true] at hname ⊢
  case initial h => rw [Json.field?_cons_self hname (Span.ofJson?_eq_some_iff.2 h)]
  case ceiling h => rw [Json.field?_cons_self hname (Span.ofJson?_eq_some_iff.2 h)]
  case unlimited =>
    have hread : Json.nullable? Span.ofJson? .null = some none := rfl
    rw [Json.field?_cons_self hname hread]
  case budget h => rw [Json.field?_cons_self hname (nullable?_of_written h)]
  case multiplier n x h =>
    have hread : Json.binary64? (.number n) = some x := h
    rw [Json.field?_cons_self hname hread]
  case jitter n x h =>
    have hread : Json.binary64? (.number n) = some x := h
    rw [Json.field?_cons_self hname hread]

/-- Fields that give these settings, among fields of other names. -/
inductive Assigns : List (String × Json) → List Given → Prop
  | nil : Assigns [] []
  | known {g : Given} {value : Json} {fields : List (String × Json)} {given : List Given}
      (hvalue : g.Written value) (rest : Assigns fields given) :
      Assigns ((g.name, value) :: fields) (g :: given)
  | unknown {other : String} {value : Json} {fields : List (String × Json)} {given : List Given}
      (hother : other ∉ fieldNames) (rest : Assigns fields given) :
      Assigns ((other, value) :: fields) given

/-- A field of a setting gives it. -/
theorem Assigns.mem_of_name {fields : List (String × Json)} {given : List Given}
    (h : Assigns fields given) {name : String} (hname : name ∈ fieldNames)
    (hmem : name ∈ fields.map Prod.fst) : name ∈ given.map Given.name := by
  induction h with
  | nil => exact hmem
  | known _ _ ih =>
    rcases List.mem_cons.1 hmem with rfl | hmem
    · exact List.mem_cons_self
    · exact List.mem_cons_of_mem _ (ih hmem)
  | unknown hother _ ih =>
    rcases List.mem_cons.1 hmem with rfl | hmem
    · exact absurd hname hother
    · exact ih hmem

theorem ofFieldsFrom_of_assigns {fields : List (String × Json)} {given : List Given}
    (h : Assigns fields given) (hdistinct : (given.map Given.name).Nodup) (p : Policy) :
    ofFieldsFrom p fields = some (given.foldl Given.replace p) := by
  induction h generalizing p with
  | nil => exact ofFieldsFrom_nil p
  | @known g value fields given hvalue rest ih =>
    rw [List.map_cons, List.nodup_cons] at hdistinct
    have hname : g.name ∉ fields.map Prod.fst :=
      fun hmem => hdistinct.1 (rest.mem_of_name g.name_mem hmem)
    rw [ofFieldsFrom_known p hvalue hname, ih hdistinct.2]
    rfl
  | unknown hother _ ih => rw [ofFieldsFrom_unknown p hother, ih hdistinct]

/-! ## Written policies -/

/-- All the settings of a policy. -/
def settings (p : Policy) : List Given :=
  [.initial p.initial, .ceiling p.ceiling, .budget p.budget, .multiplier p.multiplier,
    .jitter p.jitter]

theorem written_budget (budget : Option Span) :
    (Given.budget budget).Written ((budget.map Span.toJson).getD .null) := by
  cases budget with
  | none => exact .unlimited
  | some s => exact .budget s.written_toJson

/-- The fields that are written for a policy. -/
def written (p : Policy) : List (String × Json) :=
  [("initial_interval", p.initial.toJson), ("max_interval", p.ceiling.toJson),
    ("max_elapsed_time", (p.budget.map Span.toJson).getD .null),
    ("multiplier", .ofBinary64 p.multiplier), ("randomization_factor", .ofBinary64 p.jitter)]

theorem toJson_eq (p : Policy) : p.toJson = .record p.written := rfl

theorem ofJson?_of_named {fields : List (List Piece × Json)} {named : List (String × Json)}
    (hnames : Json.named? fields = some named) :
    ofJson? (.object fields) = ofFieldsFrom standard named := by
  show (Json.named? fields).bind ofFields? = _
  rw [hnames]
  exact ofFields?_eq named

theorem assigns_written {p : Policy} (hmultiplier : p.multiplier.isFinite = true)
    (hjitter : p.jitter.isFinite = true) : Assigns p.written p.settings := by
  obtain ⟨m, hm, _, hmread⟩ := Json.ofBinary64_of_finite hmultiplier
  obtain ⟨j, hj, _, hjread⟩ := Json.ofBinary64_of_finite hjitter
  rw [written, hm, hj]
  exact .known (.initial p.initial.written_toJson) <| .known (.ceiling p.ceiling.written_toJson) <|
    .known (written_budget p.budget) <| .known (.multiplier hmread) <| .known (.jitter hjread) .nil

theorem foldl_settings (p q : Policy) : p.settings.foldl Given.replace q = p := rfl

theorem ofJson?_toJson {p : Policy} (hmultiplier : p.multiplier.isFinite = true)
    (hjitter : p.jitter.isFinite = true) : ofJson? p.toJson = some p := by
  have hdistinct : (p.settings.map Given.name).Nodup := by
    show fieldNames.Nodup
    decide
  rw [toJson_eq, Json.record, ofJson?_of_named (Json.named?_record _),
    ofFieldsFrom_of_assigns (assigns_written hmultiplier hjitter) hdistinct, foldl_settings]

theorem stable_span (s : Span) : Json.Stable s.toJson := by
  refine Json.stable_record ?_ ?_
  · show ∀ name ∈ ["secs", "nanos"], _
    decide
  · intro field hfield
    simp only [List.mem_cons, List.not_mem_nil, or_false] at hfield
    rcases hfield with rfl | rfl <;> exact .number (NumberLiteral.written_ofNat _)

theorem stable_ofBinary64 (x : Binary64) : Json.Stable (.ofBinary64 x) := by
  cases hfinite : x.isFinite with
  | true =>
    obtain ⟨n, hn, hwritten, _⟩ := Json.ofBinary64_of_finite hfinite
    rw [hn]
    exact .number hwritten
  | false =>
    rw [Json.ofBinary64_of_not_finite hfinite]
    exact .null

theorem stable_toJson (p : Policy) : Json.Stable p.toJson := by
  have hbudget : Json.Stable ((p.budget.map Span.toJson).getD .null) := by
    cases p.budget with
    | none => exact .null
    | some s => exact stable_span s
  refine Json.stable_record ?_ ?_
  · show ∀ name ∈ fieldNames, _
    decide
  · simpa only [List.forall_mem_cons, List.not_mem_nil, false_implies, implies_true, and_true] using
      ⟨stable_span p.initial, stable_span p.ceiling, hbudget, stable_ofBinary64 p.multiplier,
        stable_ofBinary64 p.jitter⟩

/-! ## What is not finite -/

theorem ofFieldsFrom_eq_none {p : Policy} {fields : List (String × Json)} {given : String}
    (hgiven : given = "multiplier" ∨ given = "randomization_factor")
    (hrefused : ∀ absent, Json.field? fields given Json.binary64? absent = none) :
    ofFieldsFrom p fields = none := by
  rw [Option.eq_none_iff_forall_ne_some]
  intro q hq
  simp only [ofFieldsFrom, Option.bind_eq_bind, Option.bind_eq_some_iff] at hq
  obtain ⟨_, _, _, _, _, _, _, hmultiplier, _, hjitter, _⟩ := hq
  rcases hgiven with rfl | rfl
  · cases (hrefused _).symm.trans hmultiplier
  · cases (hrefused _).symm.trans hjitter

theorem ofJson?_toJson_of_not_finite {p : Policy}
    (h : p.multiplier.isFinite = false ∨ p.jitter.isFinite = false) : ofJson? p.toJson = none := by
  rw [toJson_eq, Json.record, ofJson?_of_named (Json.named?_record _)]
  rcases h with h | h
  · refine ofFieldsFrom_eq_none (Or.inl rfl) fun absent => ?_
    rw [written, Json.ofBinary64_of_not_finite h]
    rfl
  · refine ofFieldsFrom_eq_none (Or.inr rfl) fun absent => ?_
    rw [written, Json.ofBinary64_of_not_finite h]
    rfl

theorem read?_of_read? {document : String} {v : Json} (h : Json.read? document = some v) :
    read? document = ofJson? v := by
  rw [read?, h]
  rfl

/-- What a document says about a policy.

A policy with finite numbers is read back as it was written, whether it is valid or
not.  A number that is not finite is written as null, and the policy is refused.

An object that gives some of the settings, each of them once, is read as the
standard policy with these replaced, whatever their order and whatever other fields
there are.  An array of values is read as the object that gives them the names of
the settings in order. -/
theorem documents_read :
    (∀ p : Policy, p.multiplier.isFinite = true → p.jitter.isFinite = true →
      read? p.toJson.render = some p) ∧
    (∀ p : Policy, ∃ fields, p.toJson = .record fields ∧ fields.map Prod.fst = fieldNames ∧
      (p.multiplier.isFinite = false → ("multiplier", .null) ∈ fields) ∧
      (p.jitter.isFinite = false → ("randomization_factor", .null) ∈ fields)) ∧
    (∀ p : Policy, p.multiplier.isFinite = false ∨ p.jitter.isFinite = false →
      read? p.toJson.render = none) ∧
    (∀ (document : String) (fields : List (List Piece × Json)) (named : List (String × Json))
      (given order : List Given),
      Json.read? document = some (.object fields) → Json.named? fields = some named →
      Assigns named given → (given.map Given.name).Nodup → order.Perm given →
      read? document = some (order.foldl Given.replace standard)) ∧
    ∀ (inOrder byName : String) (values : List Json) (fields : List (List Piece × Json)),
      Json.read? inOrder = some (.array values) → Json.read? byName = some (.object fields) →
      values.length ≤ fieldNames.length →
      Json.named? fields = some (fieldNames.zip values) → read? inOrder = read? byName := by
  refine ⟨?_, ?_, ?_, ?_, ?_⟩
  · intro p hmultiplier hjitter
    rw [read?_of_read? (Json.read?_render (stable_toJson p)), ofJson?_toJson hmultiplier hjitter]
  · intro p
    refine ⟨p.written, rfl, rfl, fun h => ?_, fun h => ?_⟩
    · rw [written, Json.ofBinary64_of_not_finite h]
      simp
    · rw [written, Json.ofBinary64_of_not_finite h]
      simp
  · intro p h
    rw [read?_of_read? (Json.read?_render (stable_toJson p)), ofJson?_toJson_of_not_finite h]
  · intro document fields named given order hread hnames hgiven hdistinct horder
    rw [read?_of_read? hread, ofJson?_of_named hnames,
      Given.foldl_replace_perm horder hdistinct standard]
    exact ofFieldsFrom_of_assigns hgiven hdistinct standard
  · intro inOrder byName values fields harray hobject hlength hnames
    rw [read?_of_read? harray, read?_of_read? hobject, ofJson?_of_named hnames]
    exact (if_pos hlength).trans (ofFields?_eq _)

/-- A factor of two and no limit, with a note between them. -/
def noted : List (String × Json) :=
  [("multiplier", .number ⟨false, ['2'], ['0'], none⟩), ("note", .array []),
    ("max_elapsed_time", .null)]

theorem assigns_noted : Assigns noted [.multiplier (.ofNat 2), .budget none] := by
  refine .known (.multiplier ?_) (.unknown (by decide) (.known .unlimited .nil))
  decide +kernel

theorem stable_noted : Json.Stable (.record noted) := by
  refine Json.stable_record (by decide) ?_
  simp only [noted, List.forall_mem_cons, List.not_mem_nil, false_implies, implies_true, and_true]
  exact ⟨.number ⟨.digits (by decide) (List.forall_mem_singleton.2 rfl),
    List.forall_mem_singleton.2 rfl, fun _ _ h => nomatch h⟩,
    .array fun _ h => absurd h List.not_mem_nil, .null⟩

/-- The first two settings: a second and a minute. -/
def intervals : List Json := [(Span.ofSeconds 1).toJson, (Span.ofSeconds 60).toJson]

theorem stable_intervals :
    Json.Stable (.array intervals) ∧ Json.Stable (.record (fieldNames.zip intervals)) := by
  have hitems : ∀ item ∈ intervals, Json.Stable item := by
    simp only [intervals, List.forall_mem_cons, List.not_mem_nil, false_implies, implies_true,
      and_true]
    exact ⟨stable_span _, stable_span _⟩
  refine ⟨.array hitems, Json.stable_record ?_ fun field hfield => ?_⟩
  · show ∀ name ∈ ["initial_interval", "max_interval"], _
    decide
  · exact hitems field.2 (List.of_mem_zip hfield).2

theorem sampleDocuments_read :
    read? "\x7b\"multiplier\":2.0,\"note\":[],\"max_elapsed_time\":null\x7d" =
        some { standard with multiplier := .ofNat 2, budget := none } ∧
      read? (Json.array intervals).render =
        read? (Json.record (fieldNames.zip intervals)).render ∧
      read? standard.toJson.render = some standard ∧
      read? { standard with jitter := .nan }.toJson.render = none := by
  obtain ⟨hfinite, _, hnull, hobject, harray⟩ := documents_read
  refine ⟨?_, ?_, ?_, ?_⟩
  · have htext : (Json.record noted).render =
        "\x7b\"multiplier\":2.0,\"note\":[],\"max_elapsed_time\":null\x7d" := by decide +kernel
    rw [← htext]
    exact hobject _ _ noted _ _ (Json.read?_render stable_noted) (Json.named?_record noted)
      assigns_noted (by decide) (List.Perm.refl _)
  · exact harray _ _ intervals _ (Json.read?_render stable_intervals.1)
      (Json.read?_render stable_intervals.2) (by decide) (Json.named?_record _)
  · exact hfinite standard (by decide +kernel) (by decide +kernel)
  · exact hnull { standard with jitter := .nan } (Or.inr rfl)

end Policy

end Recourse
