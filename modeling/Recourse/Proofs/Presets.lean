import Recourse.Proofs.Capped
import Recourse.Proofs.Repetition
import Recourse.Proofs.Settings

/-!
# A limited number of attempts

The preset with a limited number of attempts is the capped runner on a script.
Each attempt of the operation is an attempt of the script: an answer of true is
a success, an answer of false a failure that may be tried again, and a failure
stays what it is.

* `limited_of_zero`, `limited_of_refusal` and `limited_of_valid` are the three
  ways in which the runner is built or refused.
* `upTo?_eq` brings the preset down to the capped runner.
* `Exit.made_le_of_final` and `Exit.result_of_final` say what becomes of any
  series in which an attempt is not to be repeated, and `Exit.result_of_spent`
  what becomes of a capped series that has made its last attempt.
* `heeds_of_exit` puts these in terms of the answers of the operation.
-/

namespace Recourse

namespace Series

variable {β σ : Type} [Backoff β] {s : Series β σ} {k j : Nat} {c : Conclusion}

omit [Backoff β] in
theorem final_of_ok (hok : s.outcome j = .ok ()) : s.failsTransiently j = false := by
  rw [failsTransiently, hok]

omit [Backoff β] in
theorem final_of_permanent {fault : Fault} (hfail : s.outcome j = .error (.permanent fault)) :
    s.failsTransiently j = false := by
  rw [failsTransiently, hfail]

/-- No attempt follows one that does not fail, or fails for good. -/
theorem Reaches.le_of_final (hreach : s.Reaches k) (hfinal : s.failsTransiently j = false) :
    k ≤ j := by
  refine Nat.le_of_not_lt fun hlt => ?_
  have hfails := failsTransiently_iff.2 (hreach j hlt).failed
  exact Bool.false_ne_true (hfinal.symm.trans hfails)

theorem Exit.made_le_of_final (hreach : s.Reaches k) (hexit : s.Exit k c)
    (hfinal : s.failsTransiently j = false) : c.made ≤ j + 1 :=
  hexit.made_le (Nat.lt_succ_of_le (hreach.le_of_final hfinal))

theorem Exit.outcome_of_ok (hexit : s.Exit k c) (hok : c.result = .ok ()) :
    c.made = k + 1 ∧ s.outcome k = .ok () := by
  cases hexit with
  | succeeded _ hsucceeds => exact ⟨rfl, hsucceeds⟩
  | _ => cases hok

/-- If the last attempt is not to be repeated, its outcome is the result. -/
theorem Exit.result_of_final (hreach : s.Reaches k) (hexit : s.Exit k c)
    (hfinal : s.failsTransiently j = false) (hmade : c.made = j + 1) :
    s.outcome j = .ok () ∧ c.result = .ok () ∨
      ∃ fault, s.outcome j = .error (.permanent fault) ∧ c.result = .error fault.toCoded := by
  obtain rfl : k = j := by
    have hle := hreach.le_of_final hfinal
    have hge := hexit.made_le (Nat.lt_succ_self k)
    omega
  have htransient : ∀ fault, s.outcome k ≠ .error (.transient fault) := by
    intro fault hfail
    exact Bool.false_ne_true (hfinal.symm.trans (failsTransiently_iff.2 ⟨fault, hfail⟩))
  cases hexit with
  | before => exact absurd hmade (Nat.ne_of_lt (Nat.lt_succ_self k))
  | succeeded _ hok => exact Or.inl ⟨hok, rfl⟩
  | failed _ fault hfail => exact Or.inr ⟨fault, hfail, rfl⟩
  | during _ fault hfail => exact absurd hfail (htransient fault)
  | spent _ fault hfail => exact absurd hfail (htransient fault)
  | cut _ fault hfail => exact absurd hfail (htransient fault)

/-- If the token is left alone, and the last of all attempts that the cap allows
fails, the cap is blamed for its failure. -/
theorem Exit.result_of_spent {s : Series (Capped Exponential) σ} {fault : Fault}
    (hexit : s.Exit k c) (hblame : s.runner.backoff.blame = Builtin.retryAttemptsSpent)
    (hmade : s.cap ≤ c.made) (hquiet : c.fired = false)
    (hfail : s.outcome k = .error (.transient fault)) :
    c.result = .error (Builtin.retryAttemptsSpent.wrap fault.toCoded.toFault) := by
  cases hexit with
  | before => cases hquiet
  | during => cases hquiet
  | cut => cases hquiet
  | succeeded _ hok => cases hfail.symm.trans hok
  | failed _ given hgiven => cases hfail.symm.trans hgiven
  | spent _ given hgiven =>
    obtain rfl : fault = given := by
      injection hfail.symm.trans hgiven with hsame
      injection hsame
    have hall : s.cap ≤ k + 1 := hmade
    rw [reason_eq hblame, if_pos hall]

end Series

namespace Preset

variable {σ : Type}

/-! ## The script of an operation -/

/-- An answer of true is a success, and any other answer a failure. -/
def verdict : Except Failure Bool → Except Failure Unit
  | .ok true => .ok ()
  | .ok false => .error notDoneYet
  | .error failure => .error failure

theorem verdict_eq_ok {outcome : Except Failure Bool} (h : verdict outcome = .ok ()) :
    outcome = .ok true := by
  cases outcome with
  | error failure => cases h
  | ok done =>
    cases done with
    | true => rfl
    | false => cases h

/-- The attempts of an operation with the verdicts on their answers. -/
def script (operation : Operation σ Bool) (state : σ) (k : Nat) : Attempt Unit :=
  (operation.attemptAt state k).mapOutcome verdict

/-- The state of the operation goes along with the number of attempts made. -/
theorem untilDone_stateAfter (operation : Operation σ Bool) (state : σ) (k : Nat) :
    let played := Operation.ofSequence (script operation state) k
    untilDone operation (operation.stateAfter state k) =
      (played.1, operation.stateAfter state played.2) := rfl

/-! ## The runner -/

/-- The runner of at most `cap` attempts, without a check of the changes. -/
def limitedRunner (cap : UInt32) (hcap : 0 < cap) (changes : List Setting) (now : Instant) :
    Runner (Capped Exponential) :=
  ⟨.start (endlessRunner changes now).backoff cap hcap, (endlessRunner changes now).observer⟩

variable {cap : UInt32} {changes : List Setting}

theorem capped_endlessRunner (hcap : 0 < cap) (now : Instant) :
    (endlessRunner changes now).capped cap = .ok (limitedRunner cap hcap changes now) :=
  dif_pos hcap

theorem limited_of_zero (now : Instant) : limited 0 changes now = .error .zeroAttempts := rfl

theorem limited_of_refusal {refusal : Refusal} (hcap : cap ≠ 0)
    (hrefusal : (endless changes).policy.refusal? = some refusal) (now : Instant) :
    limited cap changes now = .error refusal := by
  rw [limited, if_neg hcap, unending_of_refusal hrefusal]
  rfl

theorem limited_of_valid (hcap : 0 < cap) (hvalid : (endless changes).policy.Valid)
    (now : Instant) : limited cap changes now = .ok (limitedRunner cap hcap changes now) := by
  have hne : cap ≠ 0 := (UInt32.ne_of_lt hcap).symm
  rw [limited, if_neg hne, unending_of_valid hvalid]
  exact capped_endlessRunner hcap now

/-! ## Runs -/

variable {scene : Scene} {operation : Operation σ Bool} {state : σ}

/-- The capped runner on the script. -/
def limitedSeries (cap : UInt32) (hcap : 0 < cap) (changes : List Setting) (scene : Scene)
    (operation : Operation σ Bool) (state : σ) : Series (Capped Exponential) Nat where
  runner := limitedRunner cap hcap changes scene.clock
  scene := scene
  operation := .ofSequence (script operation state)
  state := 0

theorem outcome_limitedSeries (hcap : 0 < cap) (k : Nat) :
    (limitedSeries cap hcap changes scene operation state).outcome k =
      verdict (operation.attemptAt state k).outcome :=
  congrArg Attempt.outcome (Operation.attemptAt_ofSequence (script operation state) k)

theorem upTo?_eq (hcap : 0 < cap) (hvalid : (endless changes).policy.Valid) (scene : Scene)
    (operation : Operation σ Bool) (state : σ) (fuel : Nat) :
    upTo? fuel cap changes scene operation state =
      ((limitedSeries cap hcap changes scene operation state).run? fuel).map fun run =>
        (run.map Outcome.result).mapState (operation.stateAfter state) := by
  have hrun := (limitedRunner cap hcap changes scene.clock).run?_mapState fuel scene
    (operation.stateAfter state) (untilDone_stateAfter operation state) 0
  rw [upTo?, limited_of_valid hcap hvalid]
  refine (congrArg (Option.map _) hrun).trans ?_
  rw [Option.map_map]
  rfl

/-- What a run of at most `cap` attempts has to do with the answers of its
operation. -/
structure Heeds (cap : Nat) (operation : Operation σ Bool) (state : σ)
    (run : Run σ (Except CodedError Unit)) : Prop where
  attempts : run.trace.beginnings.length ≤ cap
  invoked : run.state = operation.stateAfter state run.trace.beginnings.length
  /-- It succeeds if and only if its last attempt was done. -/
  ok : run.answer = .ok () ↔
    ∃ k, run.trace.beginnings.length = k + 1 ∧ (operation.attemptAt state k).outcome = .ok true
  /-- No attempt follows one that was done. -/
  done : ∀ k, (operation.attemptAt state k).outcome = .ok true →
    run.trace.beginnings.length ≤ k + 1
  /-- Nor does one follow a permanent failure, which is returned as it is. -/
  permanent : ∀ k fault, (operation.attemptAt state k).outcome = .error (.permanent fault) →
    run.trace.beginnings.length ≤ k + 1 ∧
      (run.trace.beginnings.length = k + 1 → run.answer = .error fault.toCoded)
  /-- If all attempts are made and none is done, the cap is blamed, unless the
  token has been fired. -/
  spent : run.trace.beginnings.length = cap →
    (∀ k < cap, (operation.attemptAt state k).outcome = .ok false) → run.token.fired = false →
    ∃ e, run.answer = .error e ∧
      e.codes = [Builtin.retryAttemptsSpent.code, Builtin.retryOperationFailed.code]

theorem heeds_of_exit {s : Series (Capped Exponential) Nat}
    (hscript : ∀ i, s.outcome i = verdict (operation.attemptAt state i).outcome)
    (hblame : s.runner.backoff.blame = Builtin.retryAttemptsSpent)
    (hstate : ∀ n, s.operation.stateAfter s.state n = n) {k : Nat} {c : Conclusion}
    (hreach : s.Reaches k) (hexit : s.Exit k c) :
    Heeds s.cap operation state
      (((s.conclude c).map Outcome.result).mapState (operation.stateAfter state)) := by
  have hmade : (((s.conclude c).map Outcome.result).mapState
      (operation.stateAfter state)).trace.beginnings.length = c.made :=
    hexit.length_beginnings hreach
  have hdone : ∀ j, (operation.attemptAt state j).outcome = .ok true → s.outcome j = .ok () := by
    intro j hok
    rw [hscript, hok]
    rfl
  have hpermanent : ∀ j fault, (operation.attemptAt state j).outcome = .error (.permanent fault) →
      s.outcome j = .error (.permanent fault) := by
    intro j fault hfail
    rw [hscript, hfail]
    rfl
  constructor
  case attempts =>
    rw [hmade]
    exact hexit.made_le_cap hreach
  case invoked =>
    rw [hmade]
    exact congrArg (operation.stateAfter state) (hstate c.made)
  case ok =>
    rw [hmade]
    constructor
    · intro hok
      obtain ⟨hlast, hsucceeds⟩ := hexit.outcome_of_ok hok
      exact ⟨k, hlast, verdict_eq_ok ((hscript k).symm.trans hsucceeds)⟩
    · rintro ⟨j, hlast, hok⟩
      rcases hexit.result_of_final hreach (Series.final_of_ok (hdone j hok)) hlast with
        ⟨_, hresult⟩ | ⟨fault, hfail, _⟩
      · exact hresult
      · cases (hdone j hok).symm.trans hfail
  case done =>
    intro j hok
    rw [hmade]
    exact hexit.made_le_of_final hreach (Series.final_of_ok (hdone j hok))
  case permanent =>
    intro j fault hfail
    have hfails := hpermanent j fault hfail
    rw [hmade]
    refine ⟨hexit.made_le_of_final hreach (Series.final_of_permanent hfails), ?_⟩
    intro hlast
    rcases hexit.result_of_final hreach (Series.final_of_permanent hfails) hlast with
      ⟨hok, _⟩ | ⟨given, hgiven, hresult⟩
    · cases hfails.symm.trans hok
    · injection hfails.symm.trans hgiven with hsame
      injection hsame with hsame
      rwa [← hsame] at hresult
  case spent =>
    rw [hmade]
    intro hall hfalse hquiet
    have hlast : s.outcome k = .error notDoneYet := by
      rw [hscript, hfalse k hreach.lt_cap]
      rfl
    exact ⟨_, hexit.result_of_spent hblame (Nat.le_of_eq hall.symm) hquiet hlast, rfl⟩

/-! ## As on the script -/

/-- A limited number of attempts is a capped series on the script of the answers,
and it ends.  With a cap of zero, or with changes that are refused, nothing is
done at all; the cap is looked at first. -/
theorem upTo_as_scripted (cap : UInt32) (changes : List Setting) (scene : Scene)
    (operation : Operation σ Bool) (state : σ) :
    (cap = 0 → ∀ fuel, ∃ run, upTo? fuel cap changes scene operation state = some run ∧
      Untouched scene state .zeroAttempts run) ∧
    (cap ≠ 0 → ∀ refusal, (endless changes).policy.refusal? = some refusal →
      ∀ fuel, ∃ run, upTo? fuel cap changes scene operation state = some run ∧
        Untouched scene state refusal run) ∧
    (0 < cap → (endless changes).policy.Valid →
      ∃ runner, (endlessRunner changes scene.clock).capped cap = .ok runner ∧
        (∀ fuel, upTo? fuel cap changes scene operation state =
          (runner.run? fuel scene (.ofSequence (script operation state)) 0).map fun run =>
            (run.map Outcome.result).mapState (operation.stateAfter state)) ∧
        (∃ run, ∀ fuel, cap.toNat ≤ fuel →
          upTo? fuel cap changes scene operation state = some run) ∧
        ∀ fuel run, upTo? fuel cap changes scene operation state = some run →
          Heeds cap.toNat operation state run) := by
  refine ⟨?_, ?_, ?_⟩
  · rintro rfl fuel
    refine ⟨_, ?_, untouched_refused scene state .zeroAttempts⟩
    rw [upTo?, limited_of_zero]
    rfl
  · intro hcap refusal hrefusal fuel
    refine ⟨_, ?_, untouched_refused scene state refusal⟩
    rw [upTo?, limited_of_refusal hcap hrefusal]
    rfl
  · intro hcap hvalid
    have hruns := upTo?_eq hcap hvalid scene operation state
    refine ⟨_, capped_endlessRunner hcap scene.clock, hruns, ?_, ?_⟩
    · obtain ⟨k, c, _, _, hends⟩ :=
        (limitedSeries cap hcap changes scene operation state).ends_within_cap
      exact ⟨_, fun fuel hfuel => (hruns fuel).trans (congrArg (Option.map _) (hends fuel hfuel))⟩
    · intro fuel run hrun
      rw [hruns] at hrun
      obtain ⟨ended, hended, rfl⟩ := Option.map_eq_some_iff.1 hrun
      obtain ⟨k, c, hreach, hexit, rfl⟩ := Series.exit_of_run? hended
      exact heeds_of_exit (outcome_limitedSeries hcap) rfl
        (Operation.stateAfter_ofSequence _) hreach hexit

/-- An operation that answers at once, and always the same. -/
def answering (done : Bool) : Operation Nat Bool := Script.operation ⟨⟨[], false, .ok done⟩, []⟩

/-- The cap is looked at before the changes, and neither asks whether the token
has been fired.  With nothing to refuse, the cap is blamed for the second
attempt that is not done. -/
theorem answering_limited :
    (∃ run, upTo? 1 0 [.initial .zero] ⟨.start, ⟨true, none⟩, fun _ => .least⟩
        (answering true) 0 = some run ∧
      Untouched ⟨.start, ⟨true, none⟩, fun _ => .least⟩ 0 .zeroAttempts run) ∧
    (∃ run, upTo? 1 3 [.initial .zero] ⟨.start, ⟨true, none⟩, fun _ => .least⟩
        (answering true) 0 = some run ∧
      Untouched ⟨.start, ⟨true, none⟩, fun _ => .least⟩ 0 .zeroInitial run) ∧
    ∃ run e, upTo? 2 2 [] ⟨.start, .idle, fun _ => .least⟩ (answering false) 0 =
        some run ∧ run.answer = .error e ∧
      e.codes = [Builtin.retryAttemptsSpent.code, Builtin.retryOperationFailed.code] := by
  refine ⟨?_, ?_, ?_⟩
  · exact (upTo_as_scripted 0 _ _ _ 0).1 rfl 1
  · exact (upTo_as_scripted 3 _ _ _ 0).2.1 (by decide) .zeroInitial (by decide) 1
  · have hrun : (upTo? 2 2 [] ⟨.start, .idle, fun _ => .least⟩ (answering false) 0).map
        (fun run => (run.trace.beginnings.length, run.token.fired)) = some (2, false) := by
      decide +kernel
    obtain ⟨run, hrun, hpair⟩ := Option.map_eq_some_iff.1 hrun
    obtain ⟨hmade, hquiet⟩ := Prod.mk.inj hpair
    obtain ⟨_, _, _, _, hheeds⟩ :=
      (upTo_as_scripted 2 [] _ (answering false) 0).2.2 (by decide) (by decide +kernel)
    obtain ⟨e, hanswer, hcodes⟩ := (hheeds 2 run hrun).spent hmade
      (fun k _ => by cases k <;> rfl) hquiet
    exact ⟨run, e, hrun, hanswer, hcodes⟩

end Preset

end Recourse
