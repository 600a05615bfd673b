import Recourse.Proofs.Delays
import Recourse.Proofs.Overshoot

/-!
# The growth of delays

The delays of an exponential backoff without jitter and without a budget are the
intervals of its policy, one after the other.

* `delay?_eq` reads the delays off the policy, and `grow_mono` is the step that
  keeps them from falling.
* `lt_stretched_of_le` says that an interval that grows goes on to grow; what is
  lost to rounding is lost in the first step.
* `delays_neverFall_iff` and `delays_climb_iff` say which policies have delays
  that never fall, and which have delays that grow until they are at the ceiling.

Not all valid policies do.  Below a ceiling of about six and a half days the
delays of all of them rise, and they grow if the first step does.
-/

namespace Recourse

open Binary64

attribute [local irreducible] Binary64.one Binary64.overflow

/-! ## Steps that grow -/

namespace Span

theorem half_one : ∃ k, one = 2 * 2 ^ k := by
  obtain ⟨e, he, _, hone⟩ := one_eq_two_pow
  refine ⟨e - 1, ?_⟩
  rw [hone, ← Nat.pow_succ']
  congr 1
  omega

/-- An interval grows if the product comes within half a nanosecond of the next
whole number. -/
theorem lt_stretched_iff {nanos factor : Nat} (hword : nanos < maxWord) :
    nanos < stretched nanos factor ↔
      2 * nanos * one + one ≤ 2 * nearestUnits (wholeUnits nanos * factor) one := by
  have hnext : nanos.succ ≤ stretched nanos factor ↔
      2 * nanos.succ * one ≤ 2 * nearestUnits (wholeUnits nanos * factor) one + one :=
    le_stretched_iff (Nat.succ_le_of_lt hword)
  have hshift : 2 * nanos.succ * one = 2 * nanos * one + 2 * one := by
    rw [Nat.succ_eq_add_one]
    ring
  rw [← Nat.succ_le_iff, hnext]
  omega

/-- No interval that binary64 holds falls. -/
theorem le_stretched {nanos factor : Nat} (hexact : nanos ≤ 2 ^ 53) (hfactor : one ≤ factor) :
    nanos ≤ stretched nanos factor := by
  have hproduct : nanos * one ≤ nearestUnits (nanos * factor) 1 := by
    refine le_nearestUnits Nat.one_pos (spacing_whole_dvd hexact) ?_
    rw [Nat.mul_one]
    exact Nat.mul_le_mul_left nanos hfactor
  rw [le_stretched_iff (Nat.le_trans hexact (by decide)), nearestUnits_product hexact,
    Nat.mul_assoc]
  omega

/-- If an interval grows then so does one that is a nanosecond longer, whose
product is larger by more than a nanosecond. -/
theorem succ_lt_stretched_succ {nanos factor : Nat} (hexact : nanos + 1 < 2 ^ 52)
    (hfactor : one < factor) (hgrows : nanos < stretched nanos factor) :
    nanos + 1 < stretched (nanos + 1) factor := by
  have hword : 2 ^ 52 ≤ maxWord := by decide
  obtain ⟨k, hhalf⟩ := half_one
  have hhalves (n : Nat) : 2 * n * one + one = 2 * ((2 * n + 1) * 2 ^ k) := by
    rw [hhalf]
    ring
  have hround := (lt_stretched_iff (by omega)).1 hgrows
  rw [hhalves, nearestUnits_product (by omega)] at hround
  rw [lt_stretched_iff (by omega), hhalves, nearestUnits_product (by omega)]
  refine Nat.mul_le_mul_left 2 ?_
  refine nearestUnits_carry (spacing_mul_two_pow_dvd _ k (by rw [two_pow_eq]; omega))
    (Nat.le_of_mul_le_mul_left hround (by omega)) (Nat.mul_le_mul_right factor (by omega)) ?_
  have hproducts : (nanos + 1) * factor = nanos * factor + factor := Nat.succ_mul _ _
  have hnext : (2 * (nanos + 1) + 1) * 2 ^ k = (2 * nanos + 1) * 2 ^ k + 2 * 2 ^ k := by ring
  omega

/-- A factor above one takes a number to the next one that can be held at
least: it exceeds one by a spacing of one, and so does the product the number by
one of its own. -/
theorem add_spacing_le_product {u factor : Nat} (hlarge : 2 ^ 52 ≤ u) (hu : spacing u ∣ u)
    (hheld : spacing factor ∣ factor) (hfactor : one < factor) :
    u + spacing u ≤ nearestUnits (u * factor) one := by
  have hstep : one + spacing one ≤ factor :=
    add_le_of_dvd_of_lt spacing_one_dvd
      (Nat.dvd_trans (spacing_dvd_spacing (Nat.le_of_lt hfactor)) hheld) hfactor
  have hone : 2 ^ 52 * spacing one = one := by
    simpa only [Nat.pow_zero, Nat.one_mul] using two_pow_mul_spacing_two_pow 0
  refine le_nearestUnits pos_one (spacing_add_spacing_dvd hu) ?_
  calc (u + spacing u) * one = u * one + 2 ^ 52 * spacing u * spacing one := by
        rw [Nat.add_mul]
        nth_rewrite 2 [← hone]
        ring
    _ ≤ u * one + u * spacing one :=
        Nat.add_le_add_left (Nat.mul_le_mul_right _ (two_pow_mul_spacing_le hlarge)) _
    _ = u * (one + spacing one) := (Nat.mul_add _ _ _).symm
    _ ≤ u * factor := Nat.mul_le_mul_left _ hstep

/-- A whole number is rounded by half a spacing at most. -/
theorem two_mul_le_wholeUnits {nanos : Nat} (hpos : 0 < nanos) :
    2 * (nanos * one) ≤ 2 * wholeUnits nanos + spacing (wholeUnits nanos) := by
  have hnear := (nearestUnits_near (nanos * one) Nat.one_pos).2
  have hunits := Nat.mul_pos hpos pos_one
  have hspacing : spacing (nanos * one / 1) ≤ spacing (wholeUnits nanos) := by
    have hlead : 2 ^ (nanos * one / 1).log2 ≤ wholeUnits nanos :=
      two_pow_log2_le_nearestUnits Nat.one_pos (by rw [Nat.div_one]; omega)
    have hlog := log2_le_log2 hlead
    rw [Nat.log2_two_pow] at hlog
    exact Nat.pow_le_pow_right (by omega) (Nat.sub_le_sub_right hlog 52)
  unfold wholeUnits at *
  omega

/-- From `2 ^ 52` on all numbers of binary64 are whole, so that the next one is
longer by a nanosecond at least. -/
theorem lt_stretched_of_large {nanos factor : Nat} (hlarge : 2 ^ 52 ≤ nanos)
    (hword : nanos < maxWord) (hheld : spacing factor ∣ factor) (hfactor : one < factor) :
    nanos < stretched nanos factor := by
  have hlow : 2 ^ 52 * one ≤ wholeUnits nanos := by
    have hmono := wholeUnits_mono hlarge
    rwa [wholeUnits_of_le (by omega)] at hmono
  have hwhole : one ≤ spacing (wholeUnits nanos) := by
    have hspacing := two_pow_mul_spacing_two_pow 52
    have hmono := spacing_le_spacing hlow
    omega
  have hround := add_spacing_le_product
    (Nat.le_trans (Nat.le_mul_of_pos_right _ pos_one) hlow) (spacing_nearestUnits_dvd _ _)
    hheld hfactor
  have hnear := two_mul_le_wholeUnits (show 0 < nanos by omega)
  rw [lt_stretched_iff hword, Nat.mul_assoc]
  unfold wholeUnits at *
  omega

/-- An interval that grows goes on to grow, up to 64 bits. -/
theorem lt_stretched_of_le {a b factor : Nat} (hheld : spacing factor ∣ factor)
    (hfactor : one < factor) (hgrows : a < stretched a factor) (hle : a ≤ b)
    (hword : b < maxWord) : b < stretched b factor := by
  induction b, hle using Nat.le_induction with
  | base => exact hgrows
  | succ b hle ih =>
    by_cases hlarge : 2 ^ 52 ≤ b + 1
    · exact lt_stretched_of_large hlarge hword hheld hfactor
    · exact succ_lt_stretched_succ (by omega) hfactor (ih (by omega))

end Span

/-! ## Intervals that rise -/

namespace Policy

open Recourse.Span

variable {p : Policy}

theorem grow_of_nextIsCeiling (hvalid : p.Valid) {current : Span}
    (h : p.NextIsCeiling current.nanos) : p.grow current = p.ceiling := by
  apply Span.ext_nanos
  rw [grow_nanos hvalid, if_pos h]

theorem grow_nanos_of_not (hvalid : p.Valid) {current : Span}
    (h : ¬p.NextIsCeiling current.nanos) :
    (p.grow current).nanos = stretched current.nanos p.factor := by
  rw [grow_nanos hvalid, if_neg h]

/-- The longer interval has the longer next one, unless the shorter one passes
the ceiling and the longer one is replaced by it. -/
theorem grow_mono (hvalid : p.Valid) {a b : Span} (hle : a ≤ b) (hbelow : p.grow a ≤ p.ceiling) :
    p.grow a ≤ p.grow b := by
  by_cases hb : p.NextIsCeiling b.nanos
  · rwa [grow_of_nextIsCeiling hvalid hb]
  · have ha : ¬p.NextIsCeiling a.nanos := fun ha => hb (ha.mono hle)
    show (p.grow a).nanos ≤ (p.grow b).nanos
    rw [grow_nanos_of_not hvalid ha, grow_nanos_of_not hvalid hb]
    exact stretched_mono hle

/-- After an interval at the ceiling or beyond comes the ceiling. -/
theorem interval_succ_eq_ceiling (hvalid : p.Valid) {k : Nat} (h : p.ceiling ≤ p.interval k) :
    p.interval (k + 1) = p.ceiling :=
  grow_of_nextIsCeiling hvalid (nextIsCeiling_of_ceiling_le hvalid h)

/-- No interval is shorter than the one before exactly if the second is not, and
none is beyond the ceiling, to which it would fall back. -/
theorem rises_iff (hvalid : p.Valid) :
    (∀ k, p.interval k ≤ p.interval (k + 1)) ↔
      p.initial ≤ p.grow p.initial ∧ ∀ k, p.interval k ≤ p.ceiling := by
  constructor
  · intro hrises
    refine ⟨hrises 0, fun k => Nat.le_of_not_lt fun hover => ?_⟩
    have hle := hrises k
    rw [interval_succ_eq_ceiling hvalid (Nat.le_of_lt hover)] at hle
    exact Nat.not_le_of_lt hover hle
  · rintro ⟨hfirst, hbelow⟩ k
    induction k with
    | zero => exact hfirst
    | succ k ih => exact grow_mono hvalid ih (hbelow (k + 1))

/-- Below six and a half days no interval passes the ceiling. -/
theorem interval_le_ceiling (hvalid : p.Valid) (hceiling : p.ceiling.nanos < 2 ^ 49) (k : Nat) :
    p.interval k ≤ p.ceiling := by
  cases k with
  | zero => exact (valid_iff.1 hvalid).2.1
  | succ k =>
    rw [interval]
    by_cases hnext : p.NextIsCeiling (p.interval k).nanos
    · rw [grow_of_nextIsCeiling hvalid hnext]
      exact Nat.le_refl _
    · show (p.grow (p.interval k)).nanos ≤ p.ceiling.nanos
      rw [grow_nanos_of_not hvalid hnext]
      exact stretched_le_ceiling hvalid hceiling hnext

theorem initial_le_grow (hvalid : p.Valid) (hceiling : p.ceiling.nanos < 2 ^ 49) :
    p.initial ≤ p.grow p.initial := by
  have hbelow := (valid_iff.1 hvalid).2.1
  show p.initial.nanos ≤ (p.grow p.initial).nanos
  rw [grow_nanos hvalid]
  split
  · exact hbelow
  · exact le_stretched (by omega) hvalid.multiplier.1

theorem initial_le_interval (hrises : ∀ k, p.interval k ≤ p.interval (k + 1)) (k : Nat) :
    p.initial ≤ p.interval k := by
  induction k with
  | zero => exact Nat.le_refl _
  | succ k ih => exact Nat.le_trans ih (hrises k)

/-! ## Intervals that grow -/

/-- At the ceiling the interval stays. -/
theorem interval_of_le (hvalid : p.Valid) {j k : Nat} (hle : j ≤ k)
    (h : p.interval j = p.ceiling) : p.interval k = p.ceiling := by
  induction k, hle using Nat.le_induction with
  | base => exact h
  | succ k _ ih => exact interval_succ_eq_ceiling hvalid (Nat.le_of_eq (congrArg nanos ih.symm))

/-- An interval within 64 bits stays there unless the ceiling follows one of
them. -/
theorem interval_le_maxWord (hvalid : p.Valid) (hinitial : p.initial.nanos ≤ maxWord)
    (hnever : ¬p.NextIsCeiling maxWord) (k : Nat) : (p.interval k).nanos ≤ maxWord := by
  induction k with
  | zero => exact hinitial
  | succ k ih =>
    have hnext : ¬p.NextIsCeiling (p.interval k).nanos := fun h => hnever (h.mono ih)
    rw [interval, grow_nanos_of_not hvalid hnext]
    exact stretched_le_maxWord _ _

/-- The ceiling that the intervals grow up to is reached. -/
theorem nextIsCeiling_maxWord (hvalid : p.Valid) (hinitial : p.initial.nanos ≤ maxWord)
    (hgrows : ∀ k, p.interval k ≠ p.ceiling → p.interval k < p.interval (k + 1)) :
    p.NextIsCeiling maxWord := by
  by_contra hnever
  have hword := interval_le_maxWord hvalid hinitial hnever
  have hceiling : maxWord < p.ceiling.nanos :=
    Nat.lt_of_not_le fun hle => hnever (nextIsCeiling_of_ceiling_le hvalid hle)
  -- Otherwise there would be more intervals below the ceiling than numbers of 64 bits.
  have hmany (k : Nat) : k ≤ (p.interval k).nanos := by
    induction k with
    | zero => exact Nat.zero_le _
    | succ k ih =>
      have hne : p.interval k ≠ p.ceiling := by
        intro heq
        have hle := hword k
        rw [heq] at hle
        omega
      exact Nat.lt_of_le_of_lt ih (hgrows k hne)
  have hlast := hmany (maxWord + 1)
  have hle := hword (maxWord + 1)
  omega

/-- What a policy must promise so that its intervals grow until they are at the
ceiling: the first step grows, no step passes the ceiling, and the step from the
last number of 64 bits leads to it. -/
structure Climbs (p : Policy) : Prop where
  first : p.initial = p.ceiling ∨ p.initial < p.grow p.initial
  below : ∀ k, p.interval k ≤ p.ceiling
  reached : p.initial.nanos ≤ maxWord → p.grow (.clamp maxWord) = p.ceiling

theorem climbs_of_grows (hvalid : p.Valid)
    (hgrows : ∀ k, p.interval k ≠ p.ceiling → p.interval k < p.interval (k + 1)) :
    p.Climbs := by
  constructor
  case first => exact or_iff_not_imp_left.2 (hgrows 0)
  case below =>
    intro k
    refine Nat.le_of_not_lt fun hover => ?_
    have hne : p.interval k ≠ p.ceiling := by
      intro heq
      rw [heq] at hover
      exact Nat.lt_irrefl _ hover
    have hlt := hgrows k hne
    rw [interval_succ_eq_ceiling hvalid (Nat.le_of_lt hover)] at hlt
    exact Nat.lt_asymm hover hlt
  case reached =>
    intro hinitial
    refine grow_of_nextIsCeiling hvalid ?_
    rw [clamp_maxWord]
    exact nextIsCeiling_maxWord hvalid hinitial hgrows

theorem Climbs.nextIsCeiling_maxWord (h : p.Climbs) (hvalid : p.Valid)
    (hinitial : p.initial.nanos ≤ maxWord) : p.NextIsCeiling maxWord := by
  by_contra hnever
  have hstep : (p.grow (.clamp maxWord)).nanos = stretched (Span.clamp maxWord).nanos p.factor :=
    grow_nanos_of_not hvalid (by rwa [clamp_maxWord])
  rw [h.reached hinitial] at hstep
  refine hnever (nextIsCeiling_of_ceiling_le hvalid ?_)
  rw [hstep]
  exact stretched_le_maxWord _ _

theorem Climbs.grows (h : p.Climbs) (hvalid : p.Valid) (hfactor : one < p.factor) (k : Nat)
    (hne : p.interval k ≠ p.ceiling) :
    p.initial ≤ p.interval k ∧ p.interval k < p.interval (k + 1) := by
  obtain ⟨_, hfits, _⟩ := hvalid.multiplier
  induction k with
  | zero => exact ⟨Nat.le_refl _, h.first.resolve_left hne⟩
  | succ k ih =>
    have hbefore : ¬p.NextIsCeiling (p.interval k).nanos :=
      fun hnext => hne (grow_of_nextIsCeiling hvalid hnext)
    have hstep : (p.interval (k + 1)).nanos = stretched (p.interval k).nanos p.factor :=
      grow_nanos_of_not hvalid hbefore
    obtain ⟨hinitial, hlt⟩ := ih fun hat => hne (interval_of_le hvalid (Nat.le_succ k) hat)
    refine ⟨Nat.le_trans hinitial (Nat.le_of_lt hlt), ?_⟩
    by_cases hnext : p.NextIsCeiling (p.interval (k + 1)).nanos
    · have hceiling : p.interval (k + 1 + 1) = p.ceiling := grow_of_nextIsCeiling hvalid hnext
      rw [hceiling]
      exact Nat.lt_of_le_of_ne (h.below (k + 1)) fun heq => hne (Span.ext_nanos heq)
    · have hword : (p.interval (k + 1)).nanos ≤ maxWord := by
        rw [hstep]
        exact stretched_le_maxWord _ _
      have hstart : p.initial.nanos ≤ maxWord :=
        Nat.le_trans hinitial (Nat.le_trans (Nat.le_of_lt hlt) hword)
      have hbelow : (p.interval (k + 1)).nanos < maxWord :=
        Nat.lt_of_not_le fun hle => hnext ((h.nextIsCeiling_maxWord hvalid hstart).mono hle)
      show (p.interval (k + 1)).nanos < (p.grow (p.interval (k + 1))).nanos
      rw [grow_nanos_of_not hvalid hnext]
      refine lt_stretched_of_le hfits.2 hfactor ?_ (Nat.le_of_lt hlt) hbelow
      rw [← hstep]
      exact hlt

/-- The intervals grow until they are at the ceiling exactly if the policy
promises that. -/
theorem climbs_iff (hvalid : p.Valid) (hfactor : one < p.factor) :
    (∀ k, (∀ j ≤ k, p.interval j ≠ p.ceiling) → p.interval k < p.interval (k + 1)) ↔
      p.Climbs := by
  constructor
  · intro hclimbs
    refine climbs_of_grows hvalid fun k hne => ?_
    exact hclimbs k fun j hj hat => hne (interval_of_le hvalid hj hat)
  · intro hpromise k hbefore
    exact (hpromise.grows hvalid hfactor k (hbefore k (Nat.le_refl k))).2

/-- Below six and a half days only the first step matters. -/
theorem climbs_iff_first (hvalid : p.Valid) (hceiling : p.ceiling.nanos < 2 ^ 49) :
    p.Climbs ↔ p.initial = p.ceiling ∨ p.initial < p.grow p.initial := by
  constructor
  · exact Climbs.first
  · intro hfirst
    refine ⟨hfirst, interval_le_ceiling hvalid hceiling, fun _ => ?_⟩
    have hword : 2 ^ 49 ≤ maxWord := by decide
    refine grow_of_nextIsCeiling hvalid (nextIsCeiling_of_ceiling_le hvalid ?_)
    rw [clamp_maxWord]
    omega

theorem one_lt_factor (hvalid : p.Valid) (h : (ofNat 1).less p.multiplier = true) :
    one < p.factor := by
  obtain ⟨_, _, hmultiplier⟩ := hvalid.multiplier
  obtain ⟨_, hone⟩ := ofNat_one
  rw [hmultiplier, hone] at h
  exact finite_less_finite.1 h

/-! ## Delays -/

section Delays

variable {b : Exponential}

/-- Without jitter and without a budget the delays of a backoff never fall
exactly if the second is not below the first and none passes the ceiling, and
then none is below the initial interval.  The first step may fall from beyond 64
bits of nanoseconds, or from beyond the precision of binary64.  Below a ceiling
of about six and a half days no valid policy has delays that fall. -/
theorem delays_neverFall_iff (hvalid : p.Valid) (hsteady : p.Steady) (hbudget : p.budget = none)
    (hfresh : b.Fresh p) (times : Nat → Instant) (draws : Nat → Draw) :
    (NeverFall (Backoff.delay? b times draws) ↔
      p.initial ≤ p.grow p.initial ∧
        ∀ k delay, Backoff.delay? b times draws k = some delay → delay ≤ p.ceiling) ∧
    (NeverFall (Backoff.delay? b times draws) →
      ∀ k delay, Backoff.delay? b times draws k = some delay → p.initial ≤ delay) ∧
    (p.ceiling.nanos < 2 ^ 49 → NeverFall (Backoff.delay? b times draws)) := by
  have hdelays := Exponential.delay?_eq hsteady hbudget hfresh times draws
  simp only [hdelays, neverFall_iff, rises_iff hvalid, Option.some.injEq, forall_eq']
  refine ⟨trivial, ?_, ?_⟩
  · intro hrises
    exact initial_le_interval ((rises_iff hvalid).2 hrises)
  · intro hceiling
    exact ⟨initial_le_grow hvalid hceiling, interval_le_ceiling hvalid hceiling⟩

/-- From one millisecond to eight. -/
def oneToEight : Policy where
  initial := .ofMillis 1
  ceiling := .ofMillis 8
  budget := none
  multiplier := .ofNat 2
  jitter := .ofNat 0

theorem oneToEight_valid : oneToEight.Valid ∧ oneToEight.Steady := by decide +kernel

/-- The delays of a backoff that is new at the start of the clock. -/
def delays (p : Policy) : Nat → Option Span :=
  Backoff.delay? (Exponential.start p .start) (fun _ => .start) (fun _ => .least)

theorem oneToEight_neverFall :
    NeverFall oneToEight.delays ∧
      ∀ k delay, oneToEight.delays k = some delay → .ofMillis 1 ≤ delay ∧ delay ≤ .ofMillis 8 := by
  obtain ⟨hiff, hinitial, hsmall⟩ := delays_neverFall_iff (p := oneToEight) oneToEight_valid.1
    oneToEight_valid.2 rfl (.built .start) (fun _ => .start) (fun _ => .least)
  have hrises := hsmall (by decide)
  exact ⟨hrises, fun k delay hdelay =>
    ⟨hinitial hrises k delay hdelay, (hiff.1 hrises).2 k delay hdelay⟩⟩

/-- Six hundred years, doubled. -/
def centuries : Policy where
  initial := .clamp 20000000000000000000
  ceiling := .longest
  budget := none
  multiplier := .ofNat 2
  jitter := .ofNat 0

/-- From 38 days to 49, with a multiplier close to their quotient. -/
def weeks : Policy where
  initial := .clamp 3347456283747175
  ceiling := .clamp 4287227741597382
  budget := none
  multiplier := .nearest false (1280741965896032 * Binary64.one) 1000000000000000
  jitter := .ofNat 0

/-- Delays of centuries fall to what 64 bits of nanoseconds hold, and delays of
weeks pass the ceiling by a nanosecond and fall back to it. -/
theorem delays_of_valid_fall :
    (centuries.Valid ∧ centuries.Steady ∧ centuries.budget = none ∧
      centuries.delays 0 = some (.clamp 20000000000000000000) ∧
      centuries.delays 1 = some (.clamp 18446744073709551615) ∧ ¬NeverFall centuries.delays) ∧
    weeks.Valid ∧ weeks.Steady ∧ weeks.budget = none ∧
      weeks.delays 1 = some (.clamp 4287227741597383) ∧
      weeks.delays 2 = some (.clamp 4287227741597382) ∧ ¬NeverFall weeks.delays := by
  have hcenturies : centuries.Valid ∧ centuries.Steady ∧
      centuries.delays 0 = some (.clamp 20000000000000000000) ∧
      centuries.delays 1 = some (.clamp 18446744073709551615) := by decide +kernel
  have hweeks : weeks.Valid ∧ weeks.Steady ∧ weeks.delays 1 = some (.clamp 4287227741597383) ∧
      weeks.delays 2 = some (.clamp 4287227741597382) := by decide +kernel
  obtain ⟨hvalid, hsteady, hfirst, hsecond⟩ := hcenturies
  obtain ⟨hvalid', hsteady', hover, hback⟩ := hweeks
  exact ⟨⟨hvalid, hsteady, rfl, hfirst, hsecond, not_neverFall hfirst hsecond (by decide)⟩,
    hvalid', hsteady', rfl, hover, hback, not_neverFall hover hback (by decide)⟩

/-- Without jitter and without a budget, and with a multiplier above one, the
delays of a backoff grow until one of them is the ceiling exactly if the policy
promises that.  Below a ceiling of about six and a half days this is a matter of
the first step alone: an interval that is so short that the step is rounded away
never grows. -/
theorem delays_climb_iff (hvalid : p.Valid) (hsteady : p.Steady) (hbudget : p.budget = none)
    (hmultiplier : (Binary64.ofNat 1).less p.multiplier = true) (hfresh : b.Fresh p)
    (times : Nat → Instant) (draws : Nat → Draw) :
    (ClimbTo p.ceiling (Backoff.delay? b times draws) ↔ p.Climbs) ∧
    (p.ceiling.nanos < 2 ^ 49 →
      (ClimbTo p.ceiling (Backoff.delay? b times draws) ↔
        p.initial = p.ceiling ∨ p.initial < p.grow p.initial)) := by
  have hclimbs : ClimbTo p.ceiling (Backoff.delay? b times draws) ↔ p.Climbs := by
    rw [Exponential.delay?_eq hsteady hbudget hfresh, climbTo_iff]
    exact climbs_iff hvalid (one_lt_factor hvalid hmultiplier)
  exact ⟨hclimbs, fun hceiling => hclimbs.trans (climbs_iff_first hvalid hceiling)⟩

theorem oneToEight_climbs : ClimbTo (.ofMillis 8) oneToEight.delays := by
  have hclimb := delays_climb_iff (p := oneToEight) oneToEight_valid.1 oneToEight_valid.2 rfl
    (by decide +kernel) (.built .start) (fun _ => .start) (fun _ => .least)
  exact (hclimb.2 (by decide)).2 (.inr (by decide +kernel))

/-- A nanosecond, two fifths longer each time. -/
def nanosecond : Policy where
  initial := .clamp 1
  ceiling := .ofSeconds 1
  budget := none
  multiplier := .nearest false (14 * Binary64.one) 10
  jitter := .ofNat 0

/-- The longest delay of 64 bits of nanoseconds, doubled. -/
def lastWord : Policy where
  initial := .clamp 18446744073709551615
  ceiling := .longest
  budget := none
  multiplier := .ofNat 2
  jitter := .ofNat 0

/-- A nanosecond is rounded back to a nanosecond, and the longest delay of 64
bits is held where it is. -/
theorem delays_of_valid_stall :
    (nanosecond.Valid ∧ nanosecond.Steady ∧ nanosecond.budget = none ∧
      (Binary64.ofNat 1).less nanosecond.multiplier = true ∧
      nanosecond.delays 0 = some (.clamp 1) ∧ nanosecond.delays 1 = some (.clamp 1) ∧
      ¬ClimbTo nanosecond.ceiling nanosecond.delays) ∧
    lastWord.Valid ∧ lastWord.Steady ∧ lastWord.budget = none ∧
      (Binary64.ofNat 1).less lastWord.multiplier = true ∧
      lastWord.delays 0 = some lastWord.initial ∧ lastWord.delays 1 = some lastWord.initial ∧
      ¬ClimbTo lastWord.ceiling lastWord.delays := by
  have hnanosecond : nanosecond.Valid ∧ nanosecond.Steady ∧
      (Binary64.ofNat 1).less nanosecond.multiplier = true ∧
      nanosecond.delays 0 = some (.clamp 1) ∧ nanosecond.delays 1 = some (.clamp 1) := by
    decide +kernel
  have hlast : lastWord.Valid ∧ lastWord.Steady ∧
      (Binary64.ofNat 1).less lastWord.multiplier = true ∧
      lastWord.delays 0 = some lastWord.initial ∧ lastWord.delays 1 = some lastWord.initial := by
    decide +kernel
  obtain ⟨hvalid, hsteady, hmultiplier, hfirst, hsecond⟩ := hnanosecond
  obtain ⟨hvalid', hsteady', hmultiplier', hfirst', hsecond'⟩ := hlast
  exact ⟨⟨hvalid, hsteady, rfl, hmultiplier, hfirst, hsecond,
      not_climbTo hfirst hsecond (by decide) (by decide)⟩,
    hvalid', hsteady', rfl, hmultiplier', hfirst', hsecond',
      not_climbTo hfirst' hsecond' (by decide) (by decide)⟩

end Delays

end Policy

end Recourse
