import Recourse.Proofs.Exponential
import Recourse.Retry.Presets

/-!
# Settings from a list of changes

Changes are applied in order, so each field of the settings ends up with the
value of the last change that touches it.

* `Settings.Field` is a field together with the kind of change that touches it,
  the value that such a change gives it, and the law of one change.
* `Field.read_apply` is the induction over the changes, and `apply_eq` puts the
  fields together again.
* `apply_swap` follows from the fields: changes of different kinds never touch
  the same one.
* `apply_policy` compares the changes with the builders of a policy, of which
  there is one for each kind of change that is about the policy.

The last part is about the presets without a time limit, which apply a change
of their own before those that they are given.
-/

namespace Recourse

/-- What a change is about. -/
inductive Setting.Kind where
  | initial
  | ceiling
  | budget
  | multiplier
  | jitter
  | observer
  deriving DecidableEq

def Setting.kind : Setting → Setting.Kind
  | initial _ => .initial
  | ceiling _ => .ceiling
  | budget _ => .budget
  | multiplier _ => .multiplier
  | jitter _ => .jitter
  | observer _ => .observer

/-- The budget that a change gives. -/
def Setting.budget? : Setting → Option Span
  | budget given => some given
  | _ => none

/-- The limit that a given budget stands for; no time stands for no limit. -/
def Span.limit (given : Span) : Option Span := if given.isZero then none else some given

theorem Span.isZero_iff (s : Span) : s.isZero = true ↔ s = .zero := by
  rw [isZero, beq_iff_eq]
  constructor
  · intro hnanos
    obtain ⟨nanos, hle⟩ := s
    obtain rfl : nanos = 0 := hnanos
    rfl
  · rintro rfl
    rfl

theorem Span.limit_eq_none_iff (given : Span) : given.limit = none ↔ given = .zero := by
  rw [limit, ← isZero_iff]
  split <;> simp_all

theorem Span.limit_of_ne_zero {given : Span} (h : given ≠ .zero) : given.limit = some given := by
  rw [limit, if_neg (mt given.isZero_iff.1 h)]

namespace Settings

/-! ## Field by field -/

/-- A field of the settings, and how a change touches it. -/
structure Field (α : Type) where
  read : Settings → α
  /-- The kind of change that touches the field. -/
  kind : Setting.Kind
  /-- The value that a change gives the field, if it touches it. -/
  value? : Setting → Option α
  touches : ∀ change, (value? change).isSome = true ↔ change.kind = kind := by
    intro change
    cases change <;> simp [Setting.kind, Setting.budget?]
  /-- What one change does to the field. -/
  read_set : ∀ s change, read (s.set change) = (value? change).getD (read s) := by
    intro s change
    cases change <;> rfl

namespace Field

variable {α : Type}

def initial : Field Span where
  read s := s.policy.initial
  kind := .initial
  value?
    | .initial interval => some interval
    | _ => none

def ceiling : Field Span where
  read s := s.policy.ceiling
  kind := .ceiling
  value?
    | .ceiling interval => some interval
    | _ => none

def budget : Field (Option Span) where
  read s := s.policy.budget
  kind := .budget
  value? change := change.budget?.map Span.limit

def multiplier : Field Binary64 where
  read s := s.policy.multiplier
  kind := .multiplier
  value?
    | .multiplier factor => some factor
    | _ => none

def jitter : Field Binary64 where
  read s := s.policy.jitter
  kind := .jitter
  value?
    | .jitter fraction => some fraction
    | _ => none

def observer : Field (Option Observer) where
  read s := s.observer
  kind := .observer
  value?
    | .observer observer => some (some observer)
    | _ => none

/-- The value from the last of the changes that touches the field, and the value
in the settings to start from if none does. -/
def settled (field : Field α) (s : Settings) (changes : List Setting) : α :=
  (changes.filterMap field.value?).getLast?.getD (field.read s)

theorem read_apply (field : Field α) (s : Settings) (changes : List Setting) :
    field.read (s.apply changes) = field.settled s changes := by
  induction changes generalizing s with
  | nil => rfl
  | cons change rest ih =>
    have hrest : field.read (s.apply (change :: rest)) = field.settled (s.set change) rest :=
      ih (s.set change)
    rw [hrest, settled, settled, field.read_set, List.filterMap_cons]
    cases field.value? change with
    | none => rfl
    | some value => rw [List.getLast?_cons, Option.getD_some, Option.getD_some]

/-- Of two changes of different kinds, one leaves the field alone. -/
theorem untouched_of_ne (field : Field α) {x y : Setting} (hkinds : x.kind ≠ y.kind) :
    field.value? x = none ∨ field.value? y = none := by
  by_cases hx : x.kind = field.kind
  · right
    rw [← Option.not_isSome_iff_eq_none, field.touches]
    exact fun hy => hkinds (hx.trans hy.symm)
  · left
    rwa [← Option.not_isSome_iff_eq_none, field.touches]

theorem settled_swap (field : Field α) (s : Settings) {x y : Setting} (hkinds : x.kind ≠ y.kind)
    (earlier later : List Setting) :
    field.settled s (earlier ++ x :: y :: later) =
      field.settled s (earlier ++ y :: x :: later) := by
  rw [settled, settled, List.filterMap_append, List.filterMap_append]
  rcases field.untouched_of_ne hkinds with hx | hy
  · simp only [List.filterMap_cons, hx]
  · simp only [List.filterMap_cons, hy]

end Field

/-- Every field with the value that it ends up with. -/
def settled (s : Settings) (changes : List Setting) : Settings where
  policy :=
    { initial := Field.initial.settled s changes
      ceiling := Field.ceiling.settled s changes
      budget := Field.budget.settled s changes
      multiplier := Field.multiplier.settled s changes
      jitter := Field.jitter.settled s changes }
  observer := Field.observer.settled s changes

theorem apply_eq (s : Settings) (changes : List Setting) :
    s.apply changes = s.settled changes := by
  simp only [settled, ← Field.read_apply]
  rfl

theorem apply_append (s : Settings) (changes more : List Setting) :
    s.apply (changes ++ more) = (s.apply changes).apply more := List.foldl_append

theorem apply_swap (s : Settings) {x y : Setting} (hkinds : x.kind ≠ y.kind)
    (earlier later : List Setting) :
    s.apply (earlier ++ x :: y :: later) = s.apply (earlier ++ y :: x :: later) := by
  simp only [apply_eq, settled, Field.settled_swap _ s hkinds]

end Settings

/-! ## The builders of a policy -/

/-- Changes a policy by the builder for the change; an observer is no part of
it. -/
def Policy.build (p : Policy) : Setting → Policy
  | .initial interval => p.withInitial interval
  | .ceiling interval => p.withCeiling interval
  | .budget given => p.withBudget given
  | .multiplier factor => p.withMultiplier factor
  | .jitter fraction => p.withJitter fraction
  | .observer _ => p

theorem Settings.apply_policy (s : Settings) (changes : List Setting) :
    (s.apply changes).policy = changes.foldl Policy.build s.policy := by
  refine (List.foldl_hom Settings.policy ?_).symm
  intro s change
  cases change <;> rfl

/-! ## Series without a time limit -/

namespace Preset

/-- The settings of a series without a time limit: the limit is lifted first, and
the changes come after. -/
def endless (changes : List Setting) : Settings :=
  Settings.standard.apply (.budget .zero :: changes)

def lastBudget? (changes : List Setting) : Option Span :=
  (changes.filterMap Setting.budget?).getLast?

theorem budget_endless (changes : List Setting) :
    (endless changes).policy.budget = (lastBudget? changes).bind Span.limit := by
  have hsettled := Settings.Field.budget.read_apply .standard (.budget .zero :: changes)
  have hvalues : changes.filterMap Settings.Field.budget.value? =
      (changes.filterMap Setting.budget?).map Span.limit := List.map_filterMap.symm
  refine hsettled.trans ?_
  rw [Settings.Field.settled, List.filterMap_cons, hvalues, lastBudget?]
  show ((Span.limit .zero :: _).getLast?).getD _ = _
  rw [List.getLast?_cons, Option.getD_some, List.getLast?_map]
  cases (changes.filterMap Setting.budget?).getLast? <;> rfl

theorem lastBudget?_eq_none_iff (changes : List Setting) :
    lastBudget? changes = none ↔ ∀ change ∈ changes, change.kind ≠ .budget := by
  rw [lastBudget?, List.getLast?_eq_none_iff, List.filterMap_eq_nil_iff]
  refine forall₂_congr fun change _ => ?_
  cases change <;> simp [Setting.budget?, Setting.kind]

/-- The runner for settings that are used without being checked. -/
def endlessRunner (changes : List Setting) (now : Instant) : Runner Exponential :=
  ⟨.start (endless changes).policy now, (endless changes).observer⟩

theorem unending_of_refusal {changes : List Setting} {refusal : Refusal}
    (hrefusal : (endless changes).policy.refusal? = some refusal) (now : Instant) :
    unending changes now = .error refusal := by
  show (Exponential.checked (endless changes).policy now).map _ = _
  rw [Exponential.checked, hrefusal]
  rfl

theorem unending_of_valid {changes : List Setting} (hvalid : (endless changes).policy.Valid)
    (now : Instant) : unending changes now = .ok (endlessRunner changes now) := by
  show (Exponential.checked (endless changes).policy now).map _ = _
  rw [Exponential.checked, hvalid]
  rfl

/-- A run that answers with a refusal, and has touched neither the operation nor
the clock, the token or the observer. -/
structure Untouched {σ α : Type} (scene : Scene) (state : σ) (refusal : Refusal)
    (run : Run σ (Except CodedError α)) : Prop where
  answer : run.answer = .error ⟨Builtin.invalidInput.code, Builtin.invalidInput.message,
    some (.note refusal.message)⟩
  clock : run.clock = scene.clock
  token : run.token = scene.token
  state : run.state = state
  asked : run.asked = 0
  trace : run.trace = []

theorem untouched_refused {σ α : Type} (scene : Scene) (state : σ) (refusal : Refusal) :
    Untouched scene state refusal (refused (α := α) scene state refusal) :=
  ⟨rfl, rfl, rfl, rfl, rfl, rfl⟩

/-- What the presets without a time limit make of the changes that they are
given. -/
structure Follows (changes : List Setting) : Prop where
  /-- There is no limit unless the last budget that is given sets one. -/
  unlimited : (endless changes).policy.budget = none ↔
    (∀ change ∈ changes, change.kind ≠ .budget) ∨ lastBudget? changes = some .zero
  limited : ∀ given, lastBudget? changes = some given → given ≠ .zero →
    (endless changes).policy.budget = some given
  /-- Without a limit every wait is granted. -/
  always : (endless changes).policy.budget = none →
    ∀ {σ : Type} (scene : Scene) (operation : Operation σ Unit) (state : σ) (k : Nat),
      let s : Series Exponential σ :=
        ⟨endlessRunner changes scene.clock, scene, operation, state⟩
      s.grant k = some (s.delayAt k)
  /-- With a limit a wait is granted if and only if it ends within it. -/
  within : ∀ given, (endless changes).policy.budget = some given →
    ∀ {σ : Type} (scene : Scene) (operation : Operation σ Unit) (state : σ) (k : Nat),
      let s : Series Exponential σ :=
        ⟨endlessRunner changes scene.clock, scene, operation, state⟩
      s.grant k =
        if ((s.returns k).since scene.clock).addClamped (s.delayAt k) ≤ given then
          some (s.delayAt k)
        else none
  runs : (endless changes).policy.Valid →
    ∀ {σ : Type} (fuel : Nat) (scene : Scene) (operation : Operation σ Unit) (state : σ),
      forever? fuel changes scene operation state =
        ((endlessRunner changes scene.clock).run? fuel scene operation state).map
          (·.map Outcome.result)
  runsValued : (endless changes).policy.Valid →
    ∀ {σ α : Type} (fuel : Nat) (scene : Scene) (operation : Operation σ α) (state : σ),
      foreverValue? fuel changes scene operation state =
        ((endlessRunner changes scene.clock).runValue? fuel scene operation state).map
          (·.map Outcome.result)
  /-- The operation is not invoked under a policy that is refused. -/
  refused : ∀ refusal, (endless changes).policy.refusal? = some refusal →
    ∀ {σ : Type} (fuel : Nat) (scene : Scene) (operation : Operation σ Unit) (state : σ),
      ∃ run, forever? fuel changes scene operation state = some run ∧
        Untouched scene state refusal run
  refusedValued : ∀ refusal, (endless changes).policy.refusal? = some refusal →
    ∀ {σ α : Type} (fuel : Nat) (scene : Scene) (operation : Operation σ α) (state : σ),
      ∃ run, foreverValue? fuel changes scene operation state = some run ∧
        Untouched scene state refusal run

theorem follows (changes : List Setting) : Follows changes := by
  have hlimit : ∀ given, lastBudget? changes = some given →
      (endless changes).policy.budget = given.limit := by
    intro given hlast
    rw [budget_endless, hlast, Option.bind_some]
  constructor
  case unlimited =>
    rw [← lastBudget?_eq_none_iff]
    cases hlast : lastBudget? changes with
    | none => simp [budget_endless, hlast]
    | some given => simp [hlimit given hlast, Span.limit_eq_none_iff]
  case limited =>
    intro given hlast hgiven
    rw [hlimit given hlast, Span.limit_of_ne_zero hgiven]
  case always =>
    intro hbudget σ scene operation state k
    exact Series.grant_of_unlimited hbudget k
  case within =>
    intro given hbudget σ scene operation state k s
    have hbudget' : s.runner.backoff.policy.budget = some given := hbudget
    rw [Series.grant_eq, Policy.affords, hbudget']
    simp only [decide_eq_true_eq]
    rfl
  case runs =>
    intro hvalid σ fuel scene operation state
    rw [forever?, unending_of_valid hvalid]
    rfl
  case runsValued =>
    intro hvalid σ α fuel scene operation state
    rw [foreverValue?, unending_of_valid hvalid]
    rfl
  case refused =>
    intro refusal hrefusal σ fuel scene operation state
    refine ⟨_, ?_, untouched_refused scene state refusal⟩
    rw [forever?, unending_of_refusal hrefusal]
    rfl
  case refusedValued =>
    intro refusal hrefusal σ α fuel scene operation state
    refine ⟨_, ?_, untouched_refused scene state refusal⟩
    rw [foreverValue?, unending_of_refusal hrefusal]
    rfl

end Preset

/-! ## The last change counts -/

/-- Changes leave each field with the value of the last one that touches it, the
same that the builders of a policy leave one after the other.  A list of changes
may be cut in two, and changes of different kinds may change places.  So the
presets without a time limit have one only if the last budget they are given is
more than no time, and then they have exactly this one. -/
theorem Settings.last_change_counts (s : Settings) (changes more : List Setting) :
    s.apply changes = s.settled changes ∧
    (s.apply changes).policy = changes.foldl Policy.build s.policy ∧
    s.apply (changes ++ more) = (s.apply changes).apply more ∧
    (∀ x y : Setting, x.kind ≠ y.kind →
      s.apply (changes ++ x :: y :: more) = s.apply (changes ++ y :: x :: more)) ∧
    Preset.Follows changes := by
  refine ⟨s.apply_eq changes, s.apply_policy changes, s.apply_append changes more, ?_,
    Preset.follows changes⟩
  intro x y hkinds
  exact s.apply_swap hkinds changes more

/-- A budget that is given and then taken back. -/
def takenBack : List Setting :=
  [.budget (.ofSeconds 30), .initial (.ofMillis 1), .budget .zero]

/-- The budget is gone at the end of the list, and there is one when another is
given.  A first interval of no time is refused, even if the token has been
fired. -/
theorem takenBack_counts :
    (Preset.endless takenBack).policy.budget = none ∧
    (Preset.endless (takenBack ++ [.budget (.ofSeconds 45)])).policy.budget =
      some (.ofSeconds 45) ∧
    Settings.standard.apply takenBack =
      Settings.standard.apply [.budget (.ofSeconds 30), .budget .zero, .initial (.ofMillis 1)] ∧
    ∃ run, Preset.forever? 1 (takenBack ++ [.initial .zero])
        ⟨.start, ⟨true, none⟩, fun _ => .least⟩ (Script.operation ⟨.lost, []⟩) 0 = some run ∧
      Preset.Untouched ⟨.start, ⟨true, none⟩, fun _ => .least⟩ 0 .zeroInitial run := by
  obtain ⟨_, _, _, hswap, _⟩ :=
    Settings.last_change_counts .standard [.budget (.ofSeconds 30)] []
  have hfollows := fun changes => (Settings.last_change_counts .standard changes []).2.2.2.2
  refine ⟨?_, ?_, ?_, ?_⟩
  · exact (hfollows takenBack).unlimited.2 (Or.inr rfl)
  · exact (hfollows _).limited _ rfl (by decide)
  · exact hswap (.initial (.ofMillis 1)) (.budget .zero) (by decide)
  · exact (hfollows _).refused .zeroInitial (by decide) 1 _ _ 0

end Recourse
