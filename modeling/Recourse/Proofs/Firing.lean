import Recourse.Proofs.Series

/-!
# The token along the rounds

The runner carries the token along and looks at it now and then.
`Series.firedBefore` and `Series.firedReturning` are what it sees, as a
recursion over the rounds; `firedBefore_iff` and `firedReturning_iff` say that
this is what happened to the token by then.  An attempt that began with the token
not fired has seen it fired meanwhile if and only if it is found fired on its
return (`not_firedDuring`, `firedDuring_of_firedReturning`).
-/

namespace Recourse

/-! ## The choice between a token and a wait -/

namespace Runtime

/-- A wait is cut short at once if the token has been fired, and else when its
timer is due. -/
theorem choose_eq_some (runtime : Runtime) (token : Token) {begun ends cut : Instant} :
    runtime.choose token begun ends = some cut ↔
      token.fired = true ∧ cut = begun ∨
        token.fired = false ∧ ∃ due, token.due = some due ∧ due < ends ∧ cut = max due begun := by
  cases hfired : token.fired with
  | true => simp [runtime.choose_of_fired begun ends hfired, eq_comm]
  | false =>
    by_cases hdue : ∃ due, token.due = some due ∧ due < ends
    · obtain ⟨due, hdue, hlt⟩ := hdue
      simp [runtime.choose_of_due begun hfired hdue hlt, hdue, hlt, eq_comm]
    · have hquiet : ∀ due, token.due = some due → ¬due < ends :=
        fun due hsome hlt => hdue ⟨due, hsome, hlt⟩
      rw [runtime.choose_of_quiet begun hfired hquiet]
      constructor
      · intro h
        cases h
      · rintro (⟨h, _⟩ | ⟨_, due, hsome, hlt, _⟩)
        · cases h
        · exact absurd hlt (hquiet due hsome)

/-- A wait is not cut short if the token has not been fired and its timer is
not due before the end. -/
theorem choose_eq_none (runtime : Runtime) (token : Token) {begun ends : Instant} :
    runtime.choose token begun ends = none ↔
      token.fired = false ∧ ∀ due, token.due = some due → ¬due < ends := by
  constructor
  · intro hnone
    have hopen : token.fired = false := by
      rw [Bool.eq_false_iff]
      intro hfired
      rw [runtime.choose_of_fired begun ends hfired] at hnone
      cases hnone
    refine ⟨hopen, fun due hdue hlt => ?_⟩
    rw [runtime.choose_of_due begun hopen hdue hlt] at hnone
    cases hnone
  · rintro ⟨hopen, hquiet⟩
    exact runtime.choose_of_quiet begun hopen hquiet

/-- What a task finds, as a test. -/
theorem finds_eq (runtime : Runtime) (token : Token) (now : Instant) :
    runtime.finds token now = (token.fired || token.due.any (· < now)) := by
  rw [Bool.eq_iff_iff, finds_iff, Bool.or_eq_true, Option.any_eq_true]
  simp only [decide_eq_true_eq]

theorem findsAfterYield_eq (runtime : Runtime) (token : Token) (now : Instant) :
    runtime.findsAfterYield token now = (token.fired || token.due.any (· ≤ now)) := by
  rw [Bool.eq_iff_iff, findsAfterYield_iff, Bool.or_eq_true, Option.any_eq_true]
  simp only [decide_eq_true_eq]

end Runtime

namespace Series

variable {β σ : Type} [Backoff β]

/-! ## The token along the rounds -/

/-- Whether the token has been fired when round `k` begins. -/
def firedBefore (s : Series β σ) : Nat → Bool
  | 0 => s.scene.runtime.finds s.scene.token s.scene.clock
  | k + 1 =>
    s.firedBefore k || (s.made k).cancels || s.observerCancels ||
      s.scene.token.due.any (· ≤ s.begins (k + 1))

/-- Whether the token has been fired when the attempt of round `k` has
returned. -/
def firedReturning (s : Series β σ) (k : Nat) : Bool :=
  s.firedBefore k || (s.made k).cancels || s.scene.token.due.any (· < s.returns k)

theorem firedBefore_zero_iff (s : Series β σ) :
    s.firedBefore 0 = true ↔ s.FiredBefore 0 := by
  rw [firedBefore, s.scene.runtime.finds_iff]
  constructor
  · rintro (hfired | ⟨due, hdue, hlt⟩)
    · exact .atStart hfired
    · exact .byTimer due hdue hlt
  · intro h
    cases h with
    | atStart hfired => exact Or.inl hfired
    | byTimer due hdue hlt => exact Or.inr ⟨due, hdue, hlt⟩
    | onTick _ hpos => exact absurd hpos (Nat.lt_irrefl 0)
    | byAttempt _ hi _ => exact absurd hi (Nat.not_lt_zero _)
    | byObserver hpos _ => exact absurd hpos (Nat.lt_irrefl 0)

theorem FiredBefore.succ {s : Series β σ} {k : Nat} (h : s.FiredBefore k) :
    s.FiredBefore (k + 1) := by
  have hle := s.begins_le_begins_succ k
  rw [Instant.le_iff] at hle
  cases h with
  | atStart hfired => exact .atStart hfired
  | byTimer due hdue hlt =>
    rw [Instant.lt_iff] at hlt
    exact .byTimer due hdue (Nat.lt_of_lt_of_le hlt hle)
  | onTick hdue hpos =>
    rcases Nat.lt_or_ge (s.begins k).nanos (s.begins (k + 1)).nanos with hlt | hge
    · exact .byTimer _ hdue hlt
    · have hsame : s.begins k = s.begins (k + 1) := Instant.ext_nanos (by omega)
      exact .onTick (hsame ▸ hdue) (Nat.succ_pos k)
  | byAttempt i hi hcancels => exact .byAttempt i (Nat.lt_succ_of_lt hi) hcancels
  | byObserver _ hcancels => exact .byObserver (Nat.succ_pos k) hcancels

/-- The ways in which the token can be fired, against the token that is carried
along. -/
theorem firedBefore_iff (s : Series β σ) (k : Nat) :
    s.firedBefore k = true ↔ s.FiredBefore k := by
  induction k with
  | zero => exact s.firedBefore_zero_iff
  | succ k ih =>
    rw [firedBefore, Bool.or_eq_true, Bool.or_eq_true, Bool.or_eq_true, ih,
      Option.any_eq_true]
    constructor
    · rintro (((hbefore | hcancels) | hobserver) | ⟨due, hdue, hle⟩)
      · exact hbefore.succ
      · exact .byAttempt k (Nat.lt_succ_self k) hcancels
      · exact .byObserver (Nat.succ_pos k) hobserver
      · have hle : due ≤ s.begins (k + 1) := of_decide_eq_true hle
        rw [Instant.le_iff] at hle
        rcases Nat.lt_or_ge due.nanos (s.begins (k + 1)).nanos with hlt | hge
        · exact .byTimer due hdue hlt
        · have hsame : due = s.begins (k + 1) := Instant.ext_nanos (by omega)
          exact .onTick (hsame ▸ hdue) (Nat.succ_pos k)
    · intro h
      cases h with
      | atStart hfired => exact Or.inl (Or.inl (Or.inl (.atStart hfired)))
      | byTimer due hdue hlt =>
        exact Or.inr ⟨due, hdue, decide_eq_true (Nat.le_of_lt hlt)⟩
      | onTick hdue _ => exact Or.inr ⟨_, hdue, decide_eq_true (Nat.le_refl _)⟩
      | byAttempt i hi hcancels =>
        rcases Nat.lt_succ_iff_lt_or_eq.1 hi with hlt | rfl
        · exact Or.inl (Or.inl (Or.inl (.byAttempt i hlt hcancels)))
        · exact Or.inl (Or.inl (Or.inr hcancels))
      | byObserver _ hcancels => exact Or.inl (Or.inr hcancels)

theorem firedReturning_iff (s : Series β σ) (k : Nat) :
    s.firedReturning k = true ↔ s.FiredBefore k ∨ s.FiredDuring k := by
  rw [firedReturning, Bool.or_eq_true, Bool.or_eq_true, firedBefore_iff, Option.any_eq_true]
  constructor
  · rintro ((hbefore | hcancels) | ⟨due, hdue, hlt⟩)
    · exact Or.inl hbefore
    · exact Or.inr (.byAttempt hcancels)
    · have hlt : due < s.returns k := of_decide_eq_true hlt
      rcases Nat.lt_or_ge due.nanos (s.begins k).nanos with hearly | hfrom
      · exact Or.inl (.byTimer due hdue hearly)
      · exact Or.inr (.byTimer due hdue hfrom hlt)
  · rintro (hbefore | hduring)
    · exact Or.inl (Or.inl hbefore)
    · cases hduring with
      | byTimer due hdue _ hlt => exact Or.inr ⟨due, hdue, decide_eq_true hlt⟩
      | byAttempt hcancels => exact Or.inl (Or.inr hcancels)

theorem cancels_of_quiet {s : Series β σ} {k : Nat} (hquiet : s.firedReturning k = false) :
    (s.made k).cancels = false := by
  rw [firedReturning, Bool.or_eq_false_iff, Bool.or_eq_false_iff] at hquiet
  exact hquiet.1.2

theorem not_firedDuring {s : Series β σ} {k : Nat} (hquiet : s.firedReturning k = false) :
    ¬s.FiredDuring k := by
  intro hfired
  have hreturning := (s.firedReturning_iff k).2 (Or.inr hfired)
  exact Bool.false_ne_true (hquiet.symm.trans hreturning)

theorem firedDuring_of_firedReturning {s : Series β σ} {k : Nat}
    (hopen : s.firedBefore k = false) (hfired : s.firedReturning k = true) :
    s.FiredDuring k := by
  rcases (s.firedReturning_iff k).1 hfired with hbefore | hduring
  · have hopened := (s.firedBefore_iff k).2 hbefore
    exact absurd (hopen.symm.trans hopened) Bool.false_ne_true
  · exact hduring

end Series

end Recourse
