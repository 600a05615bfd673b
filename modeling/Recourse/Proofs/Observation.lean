import Recourse.Proofs.Rounds

/-!
# What can be observed of a series

The trace of a series shows when its attempts began, what the observer was told
and which waits were granted.  Here these lists are read off the timeline:
first for the rounds that a series goes through, then for its exits.

`makes_iff` and `waits_iff` are the bridge between the two sides.  An attempt
shows on the trace if and only if the series comes to its round and the token
has not been fired by then, and a wait if and only if the attempt before it
fails, with the token still not fired, and the backoff grants the wait.
-/

namespace Recourse

def Event.wait? : Event → Option Span
  | .retrying _ delay _ => some delay
  | _ => none

def Trace.waits (t : Trace) : List Span := t.filterMap Event.wait?

/-- The members of a list that is known round by round. -/
theorem List.getElem?_of_map_some {α : Type} {xs : List α} {n : Nat} {f : Nat → Option α}
    (hxs : xs.map some = (List.range n).map f) (k : Nat) (x : α) :
    xs[k]? = some x ↔ k < n ∧ f k = some x := by
  have hat : xs[k]?.map some = (List.range n)[k]?.map f := by
    rw [← List.getElem?_map, ← List.getElem?_map, hxs]
  rcases Nat.lt_or_ge k n with hlt | hge
  · rw [List.getElem?_range hlt, Option.map_some] at hat
    cases hk : xs[k]? with
    | none =>
      rw [hk] at hat
      cases hat
    | some given =>
      rw [hk, Option.map_some, Option.some.injEq] at hat
      rw [← hat]
      exact ⟨fun h => ⟨hlt, h⟩, fun h => h.2⟩
  · have hbeyond : (List.range n)[k]? = none := List.getElem?_eq_none (by simpa using hge)
    rw [hbeyond, Option.map_none, Option.map_eq_none_iff] at hat
    rw [hat]
    exact ⟨fun h => (by cases h), fun h => absurd h.1 (Nat.not_lt_of_le hge)⟩

namespace Trace

theorem beginnings_append (t u : Trace) :
    beginnings (t ++ u) = t.beginnings ++ u.beginnings := List.filterMap_append

theorem notifications_append (t u : Trace) :
    notifications (t ++ u) = t.notifications ++ u.notifications := List.filterMap_append

theorem waits_append (t u : Trace) : waits (t ++ u) = t.waits ++ u.waits :=
  List.filterMap_append

end Trace

namespace Series

variable {β σ : Type} [Backoff β]

/-! ## Rounds that are gone through -/

theorem beginnings_roundEvents {s : Series β σ} {k : Nat} {fault : Fault} {delay : Span}
    (hfail : s.outcome k = .error (.transient fault)) (hgrant : s.grant k = some delay) :
    Trace.beginnings (s.roundEvents k) = [s.begins k] := by
  have hsilent : List.filterMap (Event.beginning? ∘ Event.notified)
      (s.notices k fault.toCoded delay) = [] := by simp [Function.comp_def, Event.beginning?]
  simp [Trace.beginnings, roundEvents_of_granted hfail hgrant, Event.beginning?, hsilent]

theorem waits_roundEvents {s : Series β σ} {k : Nat} {fault : Fault} {delay : Span}
    (hfail : s.outcome k = .error (.transient fault)) (hgrant : s.grant k = some delay) :
    Trace.waits (s.roundEvents k) = [delay] := by
  have hsilent : List.filterMap (Event.wait? ∘ Event.notified)
      (s.notices k fault.toCoded delay) = [] := by simp [Function.comp_def, Event.wait?]
  simp [Trace.waits, roundEvents_of_granted hfail hgrant, List.filterMap_cons, Event.wait?,
    hsilent]

theorem beginnings_events {s : Series β σ} {k : Nat} (hreach : s.Reaches k) :
    Trace.beginnings (s.events k) = (List.range k).map s.begins := by
  induction k with
  | zero => rfl
  | succ k ih =>
    obtain ⟨fault, hfail⟩ := (hreach k (Nat.lt_succ_self k)).failed
    obtain ⟨delay, hgrant⟩ := (hreach k (Nat.lt_succ_self k)).granted
    rw [events_succ, Trace.beginnings_append, ih (hreach.of_le (Nat.le_succ k)),
      beginnings_roundEvents hfail hgrant, List.range_succ, List.map_append, List.map_singleton]

theorem length_beginnings_events {s : Series β σ} {k : Nat} (hreach : s.Reaches k) :
    (Trace.beginnings (s.events k)).length = k := by
  rw [beginnings_events hreach, List.length_map, List.length_range]

theorem waits_events {s : Series β σ} {k : Nat} (hreach : s.Reaches k) :
    (Trace.waits (s.events k)).map some = (List.range k).map s.grant := by
  induction k with
  | zero => rfl
  | succ k ih =>
    obtain ⟨fault, hfail⟩ := (hreach k (Nat.lt_succ_self k)).failed
    obtain ⟨delay, hgrant⟩ := (hreach k (Nat.lt_succ_self k)).granted
    rw [events_succ, Trace.waits_append, List.map_append, ih (hreach.of_le (Nat.le_succ k)),
      waits_roundEvents hfail hgrant, List.range_succ, List.map_append, List.map_singleton,
      List.map_singleton, hgrant]

/-! ## Exits -/

/-- An exit comes before the attempt of its round if the token has been fired
by then, and after it otherwise. -/
theorem Exit.made_eq {s : Series β σ} {k : Nat} {c : Conclusion} (hexit : s.Exit k c) :
    c.made = k ∧ s.firedBefore k = true ∨ c.made = k + 1 ∧ s.firedBefore k = false := by
  cases hexit with
  | before hfired => exact Or.inl ⟨rfl, hfired⟩
  | succeeded hopen _ => exact Or.inr ⟨rfl, hopen⟩
  | failed hopen _ _ => exact Or.inr ⟨rfl, hopen⟩
  | during hopen _ _ _ => exact Or.inr ⟨rfl, hopen⟩
  | spent hopen _ _ _ _ => exact Or.inr ⟨rfl, hopen⟩
  | cut hopen _ _ _ _ _ _ _ _ => exact Or.inr ⟨rfl, hopen⟩

theorem Exit.beginnings {s : Series β σ} {k : Nat} {c : Conclusion} (hreach : s.Reaches k)
    (hexit : s.Exit k c) :
    (s.conclude c).trace.beginnings = (List.range c.made).map s.begins := by
  have hlast : (List.range (k + 1)).map s.begins = (List.range k).map s.begins ++ [s.begins k] := by
    rw [List.range_succ, List.map_append, List.map_singleton]
  have hrounds := beginnings_events hreach
  simp only [conclude, Trace.beginnings_append]
  cases hexit with
  | before hfired => rw [hrounds]; exact List.append_nil _
  | succeeded hopen hok =>
    rw [hlast, hrounds]
    split <;> rfl
  | failed hopen fault hfail => rw [hlast, hrounds]; rfl
  | during hopen fault hfail hfired => rw [hlast, hrounds]; rfl
  | spent hopen fault hfail hquiet hgrant => rw [hlast, hrounds]; rfl
  | cut hopen fault hfail hquiet delay hgrant c hfires hcut =>
    rw [hlast, events_succ, Trace.beginnings_append, hrounds, beginnings_roundEvents hfail hgrant]
    exact List.append_nil _

theorem length_beginnings_head {s : Series β σ} {k : Nat} (hreach : s.Reaches k) :
    (Step.goOn (s.head k)).trace.beginnings.length = k := by
  rw [Step.trace, head, List.reverse_reverse, length_beginnings_events hreach]

theorem Exit.length_beginnings {s : Series β σ} {k : Nat} {c : Conclusion}
    (hreach : s.Reaches k) (hexit : s.Exit k c) :
    (s.conclude c).trace.beginnings.length = c.made := by
  rw [hexit.beginnings hreach, List.length_map, List.length_range]

theorem Exit.made_le {s : Series β σ} {k n : Nat} {c : Conclusion} (hexit : s.Exit k c)
    (hk : k < n) : c.made ≤ n := by
  rcases hexit.made_eq with ⟨hmade, _⟩ | ⟨hmade, _⟩ <;> omega

/-- A series that does not come to round `n` makes no more than `n` attempts. -/
theorem length_beginnings_after_le {s : Series β σ} {n : Nat}
    (hbound : ∀ k, s.Reaches k → k < n) (m : Nat) :
    (s.after m).trace.beginnings.length ≤ n := by
  rcases s.after_cases m with ⟨hreach, hafter⟩ | ⟨k, c, _, hreach, hexit, hafter⟩
  · rw [hafter, length_beginnings_head hreach]
    exact Nat.le_of_lt (hbound m hreach)
  · rw [hafter, Step.trace, hexit.length_beginnings hreach]
    exact hexit.made_le (hbound k hreach)

/-! ## What the observer is told -/

/-- What the observer is told in a round that comes to its wait. -/
def told (s : Series β σ) (k : Nat) : List Notification :=
  match s.outcome k, s.grant k with
  | .error failure, some delay => s.notices k failure.report delay
  | _, _ => []

theorem length_told_le (s : Series β σ) (k : Nat) : (s.told k).length ≤ 1 := by
  unfold told
  split
  · rw [notices, List.length_map]
    cases s.runner.observer <;> simp
  · exact Nat.zero_le 1

theorem notifications_roundEvents (s : Series β σ) (k : Nat) :
    Trace.notifications (s.roundEvents k) = s.told k := by
  rw [roundEvents, told]
  cases s.outcome k with
  | ok => rfl
  | error failure =>
    cases s.grant k with
    | none => rfl
    | some delay =>
      have hnotices : List.filterMap (Event.notification? ∘ Event.notified)
          (s.notices k failure.report delay) = s.notices k failure.report delay :=
        List.filterMap_some
      simp [Trace.notifications, List.filterMap_cons, Event.notification?, hnotices]

theorem notifications_events (s : Series β σ) (k : Nat) :
    Trace.notifications (s.events k) = (List.range k).flatMap s.told := by
  induction k with
  | zero => rfl
  | succ k ih =>
    rw [events_succ, Trace.notifications_append, ih, notifications_roundEvents, List.range_succ,
      List.flatMap_append, List.flatMap_singleton]

/-- The observer is told nothing after the last wait has begun. -/
theorem Exit.notifications {s : Series β σ} {k : Nat} {c : Conclusion} (hexit : s.Exit k c) :
    (s.conclude c).trace.notifications = (List.range c.rounds).flatMap s.told := by
  rw [conclude, Trace.notifications_append, notifications_events]
  cases hexit with
  | succeeded hopen hok => split <;> exact List.append_nil _
  | _ => exact List.append_nil _

/-- One notification at most for each round that comes to its wait. -/
theorem length_flatMap_told_le (s : Series β σ) (n : Nat) :
    ((List.range n).flatMap s.told).length ≤ n := by
  induction n with
  | zero => exact Nat.le_refl 0
  | succ n ih =>
    have hlast := s.length_told_le n
    rw [List.range_succ, List.flatMap_append, List.flatMap_singleton, List.length_append]
    omega

/-! ## Attempts that are made -/

/-- A series makes the attempt of a round if and only if it comes to the round
and the token has not been fired by then. -/
theorem makes_iff (s : Series β σ) (k : Nat) :
    s.Makes k ↔ s.Reaches k ∧ s.firedBefore k = false := by
  constructor
  · rintro ⟨n, hk⟩
    rcases s.after_cases n with ⟨hreach, hafter⟩ | ⟨j, c, _, hreach, hexit, hafter⟩
    · rw [hafter, length_beginnings_head hreach] at hk
      exact ⟨hreach.of_le (Nat.le_of_lt hk), (hreach k hk).opened⟩
    · rw [hafter, Step.trace, hexit.length_beginnings hreach] at hk
      rcases Nat.lt_or_ge k j with hlt | hge
      · exact ⟨hreach.of_le (Nat.le_of_lt hlt), (hreach k hlt).opened⟩
      · rcases hexit.made_eq with ⟨hmade, _⟩ | ⟨hmade, hopen⟩
        · omega
        · have hsame : k = j := by omega
          rw [hsame]
          exact ⟨hreach, hopen⟩
  · rintro ⟨hreach, hopen⟩
    refine ⟨k + 1, ?_⟩
    rw [after_succ (after_of_reaches hreach)]
    rcases s.step_head k with ⟨c, hexit, hstep⟩ | ⟨hretried, hstep⟩
    · rw [hstep, Step.trace, hexit.length_beginnings hreach]
      rcases hexit.made_eq with ⟨_, hfired⟩ | ⟨hmade, _⟩
      · exact absurd (hopen.symm.trans hfired) Bool.false_ne_true
      · omega
    · rw [hstep, length_beginnings_head (hreach.succ hretried)]
      exact Nat.lt_succ_self k

theorem Makes.reaches {s : Series β σ} {k : Nat} (h : s.Makes k) : s.Reaches k :=
  ((s.makes_iff k).1 h).1

theorem Makes.opened {s : Series β σ} {k : Nat} (h : s.Makes k) : s.firedBefore k = false :=
  ((s.makes_iff k).1 h).2

theorem Makes.not_firedBefore {s : Series β σ} {k : Nat} (h : s.Makes k) :
    ¬s.FiredBefore k := by
  rw [← firedBefore_iff, h.opened]
  exact Bool.false_ne_true

/-! ## Waits that begin -/

/-- The series waits for `delay` in round `k`: its trace shows that wait at
some step. -/
def Waits (s : Series β σ) (k : Nat) (delay : Span) : Prop :=
  ∃ n, (s.after n).trace.waits[k]? = some delay

/-- An exit comes in the wait of its round, or no wait has begun in it. -/
theorem Exit.rounds_eq {s : Series β σ} {k : Nat} {c : Conclusion} (hexit : s.Exit k c) :
    c.rounds = k ∨ c.rounds = k + 1 ∧ s.firedBefore k = false ∧
      (∃ fault, s.outcome k = .error (.transient fault)) ∧ s.firedReturning k = false := by
  cases hexit with
  | cut hopen fault hfail hquiet _ _ _ _ _ => exact Or.inr ⟨rfl, hopen, ⟨fault, hfail⟩, hquiet⟩
  | _ => exact Or.inl rfl

theorem Exit.waits {s : Series β σ} {k : Nat} {c : Conclusion} (hreach : s.Reaches k)
    (hexit : s.Exit k c) :
    (s.conclude c).trace.waits.map some = (List.range c.rounds).map s.grant := by
  have hrounds := waits_events hreach
  simp only [conclude, Trace.waits_append, List.map_append]
  cases hexit with
  | before hfired => rw [hrounds]; exact List.append_nil _
  | succeeded hopen hok =>
    rw [hrounds]
    split <;> exact List.append_nil _
  | failed hopen fault hfail => rw [hrounds]; exact List.append_nil _
  | during hopen fault hfail hfired => rw [hrounds]; exact List.append_nil _
  | spent hopen fault hfail hquiet hgrant => rw [hrounds]; exact List.append_nil _
  | cut hopen fault hfail hquiet delay hgrant c hfires hcut =>
    rw [events_succ, Trace.waits_append, List.map_append, hrounds, waits_roundEvents hfail hgrant,
      List.range_succ, List.map_append, List.map_singleton, List.map_singleton, hgrant]
    exact List.append_nil _

/-- A series waits in a round if and only if it makes the attempt of the round,
the attempt fails with the token not fired, and the backoff grants the wait. -/
theorem waits_iff (s : Series β σ) (k : Nat) (delay : Span) :
    s.Waits k delay ↔
      s.Makes k ∧ (∃ fault, s.outcome k = .error (.transient fault)) ∧
        s.firedReturning k = false ∧ s.grant k = some delay := by
  rw [makes_iff]
  constructor
  · rintro ⟨n, hk⟩
    rcases s.after_cases n with ⟨hreach, hafter⟩ | ⟨j, c, _, hreach, hexit, hafter⟩
    · have hwaits := waits_events hreach
      rw [hafter, Step.trace, head, List.reverse_reverse, List.getElem?_of_map_some hwaits] at hk
      have hretried := hreach k hk.1
      exact ⟨⟨hreach.of_le (Nat.le_of_lt hk.1), hretried.opened⟩, hretried.failed,
        hretried.quiet, hk.2⟩
    · rw [hafter, Step.trace, List.getElem?_of_map_some (hexit.waits hreach)] at hk
      obtain ⟨hlt, hgrant⟩ := hk
      rcases Nat.lt_or_ge k j with hbefore | hge
      · have hretried := hreach k hbefore
        exact ⟨⟨hreach.of_le (Nat.le_of_lt hbefore), hretried.opened⟩, hretried.failed,
          hretried.quiet, hgrant⟩
      · rcases hexit.rounds_eq with hrounds | ⟨hrounds, hopen, hfail, hquiet⟩
        · omega
        · have hsame : k = j := by omega
          subst hsame
          exact ⟨⟨hreach, hopen⟩, hfail, hquiet, hgrant⟩
  · rintro ⟨⟨hreach, hopen⟩, ⟨fault, hfail⟩, hquiet, hgrant⟩
    refine ⟨k + 1, ?_⟩
    rw [after_succ (after_of_reaches hreach)]
    rcases s.step_head k with ⟨c, hexit, hstep⟩ | ⟨hretried, hstep⟩
    · rw [hstep, Step.trace, List.getElem?_of_map_some (hexit.waits hreach)]
      refine ⟨?_, hgrant⟩
      cases hexit with
      | before hfired => exact absurd (hopen.symm.trans hfired) Bool.false_ne_true
      | succeeded _ hok => cases hok.symm.trans hfail
      | failed _ _ hfor => cases hfor.symm.trans hfail
      | during _ _ _ hfired => exact absurd (hquiet.symm.trans hfired) Bool.false_ne_true
      | spent _ _ _ _ hnone => cases hnone.symm.trans hgrant
      | cut => exact Nat.lt_succ_self k
    · rw [hstep, Step.trace, head, List.reverse_reverse,
        List.getElem?_of_map_some (waits_events (hreach.succ hretried))]
      exact ⟨Nat.lt_succ_self k, hgrant⟩

end Series

end Recourse
