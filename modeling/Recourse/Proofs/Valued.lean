import Recourse.Backoff.Scripted
import Recourse.Proofs.Repetition
import Recourse.Retry.Valued

/-!
# The value of a series

A series of attempts that yield a value is the series that knows success and
failure only, with the value of its last attempt put in at the end.

* `discarding_filling` says that the slot has no part in the attempts, so the
  two series have the same course.
* `slot_of_ok` says that the slot is filled by the attempt that succeeds.  A
  success is always an exit of its round, and so the slot holds the value of
  the last attempt there.

The error of an empty slot is therefore never put in.  It can only be what an
attempt has failed with itself (`Exit.failed_of_missingValue`).
-/

namespace Recourse

/-- The error of a success that has left nothing in the slot. -/
def missingValue : CodedError :=
  Builtin.generalFailure.wrapText "operation reported success without a value"

namespace Operation

variable {σ α : Type}

/-- The slot has no part in the attempts. -/
theorem discarding_filling (operation : Operation σ α) (filled : σ × Option α) :
    operation.discarding filled.1 =
      ((operation.filling filled).1, (operation.filling filled).2.1) := by
  obtain ⟨state, slot⟩ := filled
  cases houtcome : (operation state).1.outcome <;>
    simp only [discarding, filling, Attempt.mapOutcome, houtcome] <;> rfl

/-- An attempt that succeeds leaves its value in the slot, whatever was there. -/
theorem slot_of_ok {operation : Operation σ α} {filled : σ × Option α} {value : α}
    (hok : (operation filled.1).1.outcome = .ok value) :
    (operation.filling filled).2.2 = some value := by
  obtain ⟨state, slot⟩ := filled
  simp only [filling, hok]

theorem stateAfter_filling (operation : Operation σ α) (state : σ) (slot : Option α) (k : Nat) :
    (operation.filling.stateAfter (state, slot) k).1 = operation.stateAfter state k := by
  have hstep : ∀ filled, (operation filled.1).2 = (operation.filling filled).2.1 :=
    fun filled => congrArg Prod.snd (operation.discarding_filling filled)
  exact (stateAfter_map Prod.fst hstep (state, slot) k).symm

theorem outcome_filling (operation : Operation σ α) (state : σ) (slot : Option α) (k : Nat) :
    (operation.filling.attemptAt (state, slot) k).outcome =
      (operation.attemptAt state k).outcome.map fun _ => () := by
  have hattempt := congrArg Prod.fst
    (operation.discarding_filling (operation.filling.stateAfter (state, slot) k))
  rw [stateAfter_filling] at hattempt
  exact (congrArg Attempt.outcome hattempt).symm

theorem slot_stateAfter {operation : Operation σ α} {state : σ} {slot : Option α} {k : Nat}
    {value : α} (hok : (operation.attemptAt state k).outcome = .ok value) :
    (operation.filling.stateAfter (state, slot) (k + 1)).2 = some value := by
  refine slot_of_ok ?_
  rw [stateAfter_filling]
  exact hok

end Operation

namespace Series

variable {β σ : Type} [Backoff β]

/-- Of all the errors that end a series, only the one of a permanent failure
can be over a bare text. -/
theorem Exit.failed_of_missingValue {s : Series β σ} {k : Nat} {c : Conclusion}
    (hexit : s.Exit k c) (hresult : c.result = .error missingValue) :
    ∃ fault, c.made = k + 1 ∧ s.outcome k = .error (.permanent fault) ∧
      fault.toCoded = missingValue := by
  have hcoded : ∀ e last : CodedError, e.wrap last.toFault ≠ missingValue := by
    rintro e ⟨code, message, _ | cause⟩ heq <;> cases congrArg CodedError.cause heq
  have hcancelled : ∀ last, cancellation last ≠ missingValue := by
    rintro (_ | last) heq
    · cases congrArg CodedError.cause heq
    · exact hcoded _ _ heq
  cases hexit with
  | succeeded => cases hresult
  | failed _ fault hfail => exact ⟨fault, rfl, hfail, Except.error.inj hresult⟩
  | before => exact absurd (Except.error.inj hresult) (hcancelled _)
  | during => exact absurd (Except.error.inj hresult) (hcancelled _)
  | cut => exact absurd (Except.error.inj hresult) (hcancelled _)
  | spent => exact absurd (Except.error.inj hresult) (hcoded _ _)

end Series

namespace Runner

variable {β σ α : Type}

/-- What a series that yields a value has to do with the same series without
the values. -/
structure Delivers (operation : Operation σ α) (state : σ) (valued : Run σ (Outcome α))
    (plain : Run σ (Outcome Unit)) : Prop where
  ending : valued.answer.ending = plain.answer.ending
  attempts : valued.answer.attempts = plain.answer.attempts
  elapsed : valued.answer.elapsed = plain.answer.elapsed
  lastError : valued.answer.lastError = plain.answer.lastError
  /-- The same attempts, notifications and log. -/
  trace : valued.trace = plain.trace
  clock : valued.clock = plain.clock
  token : valued.token = plain.token
  /-- The operation is left in the same state. -/
  leaves : valued.state = plain.state
  asked : valued.asked = plain.asked
  /-- A success comes with the value of the last attempt that was made. -/
  value : plain.answer.result = .ok () →
    ∃ k value, plain.trace.beginnings.length = k + 1 ∧
      (operation.attemptAt state k).outcome = .ok value ∧ valued.answer.result = .ok value
  error : ∀ e, plain.answer.result = .error e → valued.answer.result = .error e
  /-- The error of an empty slot is returned only if the last attempt has failed
  with it. -/
  missing : valued.answer.result = .error missingValue →
    ∃ k fault, plain.trace.beginnings.length = k + 1 ∧
      (operation.attemptAt state k).outcome = .error (.permanent fault) ∧
      fault.toCoded = missingValue

variable [Backoff β]

/-- The series without its values, from the one that fills the slot. -/
theorem run?_discarding (r : Runner β) (fuel : Nat) (scene : Scene) (operation : Operation σ α)
    (state : σ) :
    r.run? fuel scene operation.discarding state =
      (r.run? fuel scene operation.filling (state, none)).map (·.mapState Prod.fst) :=
  r.run?_mapState fuel scene Prod.fst operation.discarding_filling (state, none)

theorem result_collect_of_ok {run : Run (σ × Option α) (Outcome Unit)}
    (hok : run.answer.result = .ok ()) : (collect run).answer.result = slotValue run.state.2 := by
  show run.answer.result.bind _ = _
  rw [hok]
  rfl

theorem result_collect_of_error {run : Run (σ × Option α) (Outcome Unit)} {e : CodedError}
    (herror : run.answer.result = .error e) : (collect run).answer.result = .error e := by
  show run.answer.result.bind _ = _
  rw [herror]
  rfl

/-- A series that succeeds has its value in the slot. -/
theorem value_of_succeeded {s : Series β (σ × Option α)} {operation : Operation σ α} {state : σ}
    (hfilling : s.operation = operation.filling) (hstate : s.state = (state, none)) {k : Nat}
    {c : Conclusion} (hreach : s.Reaches k) (hexit : s.Exit k c) (hok : c.result = .ok ()) :
    ∃ value, (s.conclude c).trace.beginnings.length = k + 1 ∧
      (operation.attemptAt state k).outcome = .ok value ∧
      (s.conclude c).state.2 = some value := by
  have hmade := hexit.length_beginnings hreach
  cases hexit with
  | succeeded hopen hsucceeds =>
    rw [Series.outcome, Series.made, hfilling, hstate, Operation.outcome_filling] at hsucceeds
    cases hvalue : (operation.attemptAt state k).outcome with
    | error failure =>
      rw [hvalue] at hsucceeds
      cases hsucceeds
    | ok value =>
      refine ⟨value, hmade, rfl, ?_⟩
      rw [Series.conclude, hfilling, hstate]
      exact Operation.slot_stateAfter hvalue
  | _ => cases hok

theorem delivers_collect {s : Series β (σ × Option α)} {operation : Operation σ α} {state : σ}
    (hfilling : s.operation = operation.filling) (hstate : s.state = (state, none)) {fuel : Nat}
    {run : Run (σ × Option α) (Outcome Unit)} (hrun : s.run? fuel = some run) :
    Delivers operation state (collect run) (run.mapState Prod.fst) := by
  obtain ⟨k, c, hreach, hexit, rfl⟩ := Series.exit_of_run? hrun
  have hmade := hexit.length_beginnings hreach
  have hvalue : c.result = .ok () → ∃ value, c.made = k + 1 ∧
      (operation.attemptAt state k).outcome = .ok value ∧
      (collect (s.conclude c)).answer.result = .ok value := by
    intro hok
    obtain ⟨value, hlast, hsucceeds, hslot⟩ :=
      value_of_succeeded hfilling hstate hreach hexit hok
    refine ⟨value, hmade.symm.trans hlast, hsucceeds, ?_⟩
    rw [result_collect_of_ok hok, hslot]
    rfl
  constructor
  case value =>
    intro hok
    obtain ⟨value, hlast, hsucceeds, hresult⟩ := hvalue hok
    exact ⟨k, value, hmade.trans hlast, hsucceeds, hresult⟩
  case error =>
    intro e herror
    exact result_collect_of_error herror
  case missing =>
    intro hmissing
    cases hplain : c.result with
    | ok =>
      obtain ⟨value, _, _, hresult⟩ := hvalue hplain
      cases hmissing.symm.trans hresult
    | error e =>
      have herror := hmissing.symm.trans (result_collect_of_error hplain)
      rw [← Except.error.inj herror] at hplain
      obtain ⟨fault, hlast, hfail, hcoded⟩ := hexit.failed_of_missingValue hplain
      refine ⟨k, fault, hmade.trans hlast, ?_, hcoded⟩
      rw [Series.outcome, Series.made, hfilling, hstate, Operation.outcome_filling] at hfail
      cases houtcome : (operation.attemptAt state k).outcome with
      | ok value =>
        rw [houtcome] at hfail
        cases hfail
      | error failure =>
        rw [houtcome] at hfail
        exact congrArg Except.error (Except.error.inj hfail)
  all_goals rfl

theorem delivers_of_runValue? {r : Runner β} {fuel : Nat} {scene : Scene}
    {operation : Operation σ α} {state : σ} {valued : Run σ (Outcome α)}
    (hvalued : r.runValue? fuel scene operation state = some valued) :
    ∃ plain, r.run? fuel scene operation.discarding state = some plain ∧
      Delivers operation state valued plain := by
  obtain ⟨run, hrun, rfl⟩ := Option.map_eq_some_iff.1 hvalued
  refine ⟨run.mapState Prod.fst, by rw [run?_discarding, hrun, Option.map_some], ?_⟩
  exact delivers_collect (s := ⟨r, scene, operation.filling, (state, none)⟩) rfl rfl hrun

theorem Delivers.error_iff {operation : Operation σ α} {state : σ} {valued : Run σ (Outcome α)}
    {plain : Run σ (Outcome Unit)} (h : Delivers operation state valued plain) (e : CodedError) :
    valued.answer.result = .error e ↔ plain.answer.result = .error e := by
  refine ⟨fun hvalued => ?_, h.error e⟩
  cases hplain : plain.answer.result with
  | ok =>
    obtain ⟨_, value, _, _, hvalue⟩ := h.value hplain
    cases hvalued.symm.trans hvalue
  | error e' =>
    obtain rfl := Except.error.inj (hvalued.symm.trans (h.error e' hplain))
    rfl

/-- A change of the operation's state that respects its steps respects its
runs. -/
theorem runValue?_mapState {τ : Type} (r : Runner β) (fuel : Nat) (scene : Scene)
    {operation : Operation σ α} {operation' : Operation τ α} (f : σ → τ)
    (hstep : ∀ state, operation' (f state) = ((operation state).1, f (operation state).2))
    (state : σ) :
    r.runValue? fuel scene operation' (f state) =
      (r.runValue? fuel scene operation state).map (·.mapState f) := by
  have hfilling : ∀ filled, operation'.filling (Prod.map f id filled) =
      ((operation.filling filled).1, Prod.map f id (operation.filling filled).2) := by
    rintro ⟨state, slot⟩
    show operation'.filling (f state, slot) = _
    cases houtcome : (operation state).1.outcome <;>
      simp [Operation.filling, hstep, houtcome]
  have hrun := r.run?_mapState fuel scene (Prod.map f id) hfilling (state, none)
  rw [runValue?, runValue?]
  refine (congrArg (Option.map collect) hrun).trans ?_
  rw [Option.map_map, Option.map_map]
  rfl

/-! ## The last attempt -/

/-- A series of attempts that yield a value ends if and only if the same series
without the values does.  It ends in the same way, with the value of the last
attempt in place of a bare success, and with the same error otherwise. -/
theorem value_of_last_attempt (r : Runner β) (fuel : Nat) (scene : Scene)
    (operation : Operation σ α) (state : σ) :
    (r.runValue? fuel scene operation state = none ↔
      r.run? fuel scene operation.discarding state = none) ∧
    ∀ plain, r.run? fuel scene operation.discarding state = some plain →
      ∃ valued, r.runValue? fuel scene operation state = some valued ∧
        Delivers operation state valued plain := by
  have hnone : r.runValue? fuel scene operation state = none ↔
      r.run? fuel scene operation.discarding state = none := by
    rw [run?_discarding, runValue?, Option.map_eq_none_iff, Option.map_eq_none_iff]
  refine ⟨hnone, ?_⟩
  intro plain hplain
  cases hvalued : r.runValue? fuel scene operation state with
  | none => cases hplain.symm.trans (hnone.1 hvalued)
  | some valued =>
    obtain ⟨plain', hplain', hdelivers⟩ := delivers_of_runValue? hvalued
    obtain rfl := Option.some.inj (hplain.symm.trans hplain')
    exact ⟨valued, rfl, hdelivers⟩

/-- A lost connection and then a text that takes five milliseconds to come. -/
def lateText : Script String where
  first := Attempt.lost.mapOutcome fun _ => .error (.transient Builtin.peerConnection.toFault)
  rest := [⟨[.timer (.ofMillis 5)], false, .ok "s.7Hc2"⟩]

/-- The token is fired while the text is under way, and the text is delivered
all the same. -/
theorem lateText_delivered :
    ∃ plain valued, (Runner.mk (Scripted.start [.ofMillis 1]) none).run? 2
        ⟨.start, ⟨false, some ⟨3000000⟩⟩, fun _ => .least⟩ lateText.operation.discarding 0 =
          some plain ∧
      plain.token.fired = true ∧ valued.answer.result = .ok "s.7Hc2" ∧
      Delivers lateText.operation 0 valued plain := by
  have hrun : (Runner.mk (Scripted.start [.ofMillis 1]) none).run? 2
      ⟨.start, ⟨false, some ⟨3000000⟩⟩, fun _ => .least⟩ lateText.operation.discarding 0 =
        some _ := rfl
  obtain ⟨valued, hvalued, hdelivers⟩ := (value_of_last_attempt _ _ _ _ _).2 _ hrun
  obtain ⟨k, value, hlast, hvalue, hresult⟩ := hdelivers.value rfl
  obtain rfl : k = 1 := Nat.succ.inj (hlast.symm.trans rfl)
  obtain rfl : "s.7Hc2" = value := Except.ok.inj hvalue
  exact ⟨_, valued, hrun, rfl, hresult, hdelivers⟩

end Runner

end Recourse
