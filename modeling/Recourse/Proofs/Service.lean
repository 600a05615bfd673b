import Recourse.Backoff.Scripted
import Recourse.Proofs.Valued
import Recourse.Service

/-!
# A service behind a runner

To answer a request is to run a series of attempts that yield a value.  What the
service does settles the script of that series, and the runner does the rest.

* A `Visit` is what comes of one attempt at the service.  `script` lists the
  attempts of the visits one after the other, each in the world that the one
  before has left, and `call?_eq` says that the request is answered as the
  script is.
* `Service.watched` is the service with a list of what is done to its copies.
  `visit_watched` is what one visit adds to the list, and `call?_watched` is the
  whole list at the end of a run.
* `Exit.over_last` is about series without permanent failures.  The error that
  ends one is a cancellation or the backoff's reason, and the last failure is
  below it.
-/

namespace Recourse

/-! ## Visits -/

/-- What comes of an attempt at a service. -/
inductive Visit (ι Response : Type) where
  /-- The copy does not get ready. -/
  | unready (waits : List Wait) (cancels : Bool) (fault : Fault)
  /-- The copy gets ready, with a part of its own, and gives a reply. -/
  | answered (waits : List Wait) (cancels : Bool) (own : ι) (reply : Reply Response)

/-- Something that is done to a copy of a service which has a part of its own. -/
inductive Touch (ι Request : Type) where
  /-- It is asked whether it is ready. -/
  | polled (own : ι) (ready : Bool)
  /-- It is called. -/
  | called (own : ι) (request : Request)
  deriving DecidableEq

namespace Visit

variable {ι Request Response : Type}

/-- The attempt that a visit is. -/
def attempt (classify : Classifier) : Visit ι Response → Attempt Response
  | unready waits cancels fault => ⟨waits, cancels, .error (classify fault)⟩
  | answered waits cancels _ reply =>
    { waits := waits ++ reply.waits
      cancels := cancels || reply.cancels
      outcome :=
        match reply.result with
        | .ok response => .ok response
        | .error fault => .error (classify fault) }

/-- What a visit does to a fresh copy of the stored service. -/
def touches (stored : ι) (request : Request) : Visit ι Response → List (Touch ι Request)
  | unready _ _ _ => [.polled stored false]
  | answered _ _ own _ => [.polled stored true, .called own request]

end Visit

namespace Service

variable {ι ω Request Response : Type}

def visit (service : Service ι ω Request Response) (stored : ι) (request : Request)
    (world : ω) : Visit ι Response × ω :=
  let (ready, own, world) := service.ready stored world
  match ready.result with
  | .error fault => (.unready ready.waits ready.cancels fault, world)
  | .ok () =>
    let (reply, _, world) := service.call own request world
    (.answered ready.waits ready.cancels own reply, world)

theorem operation_eq_visit (service : Service ι ω Request Response) (stored : ι)
    (classify : Classifier) (request : Request) (world : ω) :
    service.operation stored classify request world =
      ((service.visit stored request world).1.attempt classify,
        (service.visit stored request world).2) := by
  simp only [operation, once, visit]
  cases hready : (service.ready stored world).1.result with
  | error fault => rfl
  | ok =>
    simp only [Visit.attempt]
    cases (service.call _ request _).1.result <;> rfl

/-- The service, with a list of what is done to its copies. -/
def watched (service : Service ι ω Request Response) :
    Service ι (ω × List (Touch ι Request)) Request Response where
  ready own := fun (world, touches) =>
    let (reply, later, world) := service.ready own world
    (reply, later, world, touches ++ [.polled own reply.result.isOk])
  call own request := fun (world, touches) =>
    let (reply, later, world) := service.call own request world
    (reply, later, world, touches ++ [.called own request])

theorem visit_watched (service : Service ι ω Request Response) (stored : ι)
    (request : Request) (world : ω) (touches : List (Touch ι Request)) :
    service.watched.visit stored request (world, touches) =
      ((service.visit stored request world).1, (service.visit stored request world).2,
        touches ++ (service.visit stored request world).1.touches stored request) := by
  simp only [visit, watched]
  cases hready : (service.ready stored world).1.result with
  | error fault => rfl
  | ok =>
    simp only [Visit.touches, List.append_assoc]
    rfl

end Service

/-! ## Series of given attempts -/

/-- An operation that goes through given attempts, whatever it does beside. -/
theorem Runner.runValue?_ofSequence {β τ α : Type} [Backoff β] (r : Runner β) (fuel : Nat)
    (scene : Scene) {operation : Operation τ α} {attempts : Nat → Attempt α} (f : Nat → τ)
    (hstep : ∀ i, operation (f i) = (attempts i, f (i + 1))) :
    r.runValue? fuel scene operation (f 0) =
      (r.runValue? fuel scene (.ofSequence attempts) 0).map (·.mapState f) :=
  r.runValue?_mapState fuel scene f hstep 0

theorem Runner.state_of_runValue? {β α : Type} [Backoff β] {r : Runner β} {fuel : Nat}
    {scene : Scene} {attempts : Nat → Attempt α} {run : Run Nat (Outcome α)}
    (hrun : r.runValue? fuel scene (.ofSequence attempts) 0 = some run) :
    run.state = run.trace.beginnings.length := by
  obtain ⟨plain, hplain, hdelivers⟩ := delivers_of_runValue? hrun
  obtain ⟨k, c, hreach, hexit, rfl⟩ :=
    Series.exit_of_run? (s := ⟨r, scene, (Operation.ofSequence attempts).discarding, 0⟩) hplain
  rw [hdelivers.leaves, hdelivers.trace, hexit.length_beginnings hreach]
  exact Operation.stateAfter_ofSequence _ c.made

/-- Without permanent failures the last failure is always under a cancellation
or under the backoff's reason to give up. -/
theorem Series.Exit.over_last {β σ : Type} [Backoff β] {s : Series β σ} {k : Nat}
    {c : Conclusion} {e : CodedError} (hreach : s.Reaches k) (hexit : s.Exit k c)
    (htransient : ∀ i fault, s.outcome i ≠ .error (.permanent fault))
    (hresult : c.result = .error e) :
    e = Builtin.retryCanceled ∧ c.made = 0 ∨
      ∃ i fault reason, c.made = i + 1 ∧ s.outcome i = .error (.transient fault) ∧
        (reason = Builtin.retryCanceled ∨
          reason = Backoff.exhausted (s.backoffAt (i + 1))) ∧
        e = reason.wrap fault.toCoded.toFault := by
  cases hexit with
  | before hfired =>
    obtain rfl := Except.error.inj hresult
    cases k with
    | zero => exact Or.inl ⟨rfl, rfl⟩
    | succ i =>
      obtain ⟨fault, hfail⟩ := (hreach i (Nat.lt_succ_self i)).failed
      refine Or.inr ⟨i, fault, _, rfl, hfail, Or.inl rfl, ?_⟩
      rw [lastError?_succ_of_error hfail]
      rfl
  | succeeded => cases hresult
  | failed _ fault hfail => exact absurd hfail (htransient k fault)
  | during _ fault hfail =>
    exact Or.inr ⟨k, fault, _, rfl, hfail, Or.inl rfl, (Except.error.inj hresult).symm⟩
  | spent _ fault hfail =>
    exact Or.inr ⟨k, fault, _, rfl, hfail, Or.inr rfl, (Except.error.inj hresult).symm⟩
  | cut _ fault hfail =>
    exact Or.inr ⟨k, fault, _, rfl, hfail, Or.inl rfl, (Except.error.inj hresult).symm⟩

namespace RetriedService

variable {β ι ω Request Response : Type}

/-! ## The script of a request -/

/-- The world after so many visits. -/
def worldAt (s : RetriedService β ι ω Request Response) (request : Request) (world : ω) :
    Nat → ω
  | 0 => world
  | i + 1 => (s.service.visit s.stored request (s.worldAt request world i)).2

def visitAt (s : RetriedService β ι ω Request Response) (request : Request) (world : ω)
    (i : Nat) : Visit ι Response :=
  (s.service.visit s.stored request (s.worldAt request world i)).1

/-- The attempts of the visits; without a classifier every error is transient. -/
def script (s : RetriedService β ι ω Request Response) (request : Request) (world : ω)
    (i : Nat) : Attempt Response :=
  (s.visitAt request world i).attempt (s.classifier.getD .transient)

/-- What the first `n` visits do to copies of the service. -/
def touches (s : RetriedService β ι ω Request Response) (request : Request) (world : ω)
    (n : Nat) : List (Touch ι Request) :=
  (List.range n).flatMap fun i => (s.visitAt request world i).touches s.stored request

/-- The service with a list of what is done to its copies, behind the same
runner. -/
def watched (s : RetriedService β ι ω Request Response) :
    RetriedService β ι (ω × List (Touch ι Request)) Request Response :=
  ⟨s.runner, s.service.watched, s.stored, s.classifier⟩

/-- The series of the script, without its values. -/
def series (s : RetriedService β ι ω Request Response) (scene : Scene) (request : Request)
    (world : ω) : Series β Nat :=
  ⟨s.runner, scene, (Operation.ofSequence (s.script request world)).discarding, 0⟩

/-- The series fails where the script does, and with the same failure. -/
theorem outcome_of_series {s : RetriedService β ι ω Request Response} {scene : Scene}
    {request : Request} {world : ω} {i : Nat} {failure : Failure}
    (hfail : (s.series scene request world).outcome i = .error failure) :
    (s.script request world i).outcome = .error failure := by
  have hmade : (s.series scene request world).made i = _ :=
    Operation.attemptAt_ofSequence _ i
  rw [Series.outcome, hmade] at hfail
  change (s.script request world i).outcome.map (fun _ => ()) = .error failure at hfail
  cases houtcome : (s.script request world i).outcome with
  | ok response =>
    rw [houtcome] at hfail
    cases hfail
  | error failed =>
    rw [houtcome] at hfail
    exact congrArg Except.error (Except.error.inj hfail)

/-- Without a classifier no attempt fails for good. -/
theorem script_transient {s : RetriedService β ι ω Request Response}
    (hnone : s.classifier = none) (request : Request) (world : ω) (i : Nat) (fault : Fault) :
    (s.script request world i).outcome ≠ .error (.permanent fault) := by
  rw [script, hnone]
  cases s.visitAt request world i with
  | unready => exact fun heq => by cases heq
  | answered waits cancels own reply =>
    obtain ⟨_, _, _ | _⟩ := reply <;> exact fun heq => by cases heq

theorem touches_succ (s : RetriedService β ι ω Request Response) (request : Request) (world : ω)
    (n : Nat) :
    s.touches request world (n + 1) =
      s.touches request world n ++ (s.visitAt request world n).touches s.stored request := by
  rw [touches, List.range_succ, List.flatMap_append, List.flatMap_singleton, touches]

theorem operation_watched (s : RetriedService β ι ω Request Response) (request : Request)
    (world : ω) (log : List (Touch ι Request)) :
    s.watched.operation request (world, log) =
      ((s.operation request world).1, (s.operation request world).2,
        log ++ (s.service.visit s.stored request world).1.touches s.stored request) := by
  rw [operation, operation, Service.operation_eq_visit, Service.operation_eq_visit]
  exact congrArg (fun v : Visit ι Response × _ => (v.1.attempt s.inUse, v.2))
    (s.service.visit_watched s.stored request world log)

/-! ## Runs -/

variable [Backoff β]

/-- A request is answered as the script is. -/
theorem call?_eq (s : RetriedService β ι ω Request Response) (fuel : Nat) (scene : Scene)
    (request : Request) (world : ω) :
    s.call? fuel scene request world =
      (s.runner.runValue? fuel scene (.ofSequence (s.script request world)) 0).map fun run =>
        (run.map Outcome.result).mapState (s.worldAt request world) := by
  have hstep : ∀ i, s.operation request (s.worldAt request world i) =
      (s.script request world i, s.worldAt request world (i + 1)) := by
    intro i
    rw [operation, Service.operation_eq_visit]
    rfl
  have hrun := s.runner.runValue?_ofSequence fuel scene (s.worldAt request world) hstep
  refine (congrArg (Option.map _) hrun).trans ?_
  rw [Option.map_map]
  rfl

/-- The list at the end of a run is that of the visits that were made. -/
theorem call?_watched (s : RetriedService β ι ω Request Response) (fuel : Nat) (scene : Scene)
    (request : Request) (world : ω) :
    s.watched.call? fuel scene request (world, []) =
      (s.runner.runValue? fuel scene (.ofSequence (s.script request world)) 0).map fun run =>
        (run.map Outcome.result).mapState fun i =>
          (s.worldAt request world i, s.touches request world i) := by
  have hstep : ∀ i, s.watched.operation request
      (s.worldAt request world i, s.touches request world i) =
      (s.script request world i, s.worldAt request world (i + 1),
        s.touches request world (i + 1)) := by
    intro i
    rw [operation_watched, operation, Service.operation_eq_visit, touches_succ]
    rfl
  have hrun := s.runner.runValue?_ofSequence fuel scene
    (fun i => (s.worldAt request world i, s.touches request world i)) hstep
  refine (congrArg (Option.map _) hrun).trans ?_
  rw [Option.map_map]
  rfl

/-! ## The answer to a request -/

/-- What comes of a request to a retried service. -/
structure Answers (s : RetriedService β ι ω Request Response) (scene : Scene)
    (request : Request) (world : ω) : Prop where
  /-- The answer is the result of the series of the script, and the world is left
  as the visits that were made leave it. -/
  scripted : ∀ fuel, s.call? fuel scene request world =
    (s.runner.runValue? fuel scene (.ofSequence (s.script request world)) 0).map fun run =>
      (run.map Outcome.result).mapState (s.worldAt request world)
  /-- It makes no difference whether the service is watched. -/
  unaffected : ∀ fuel,
    (s.watched.call? fuel scene request (world, [])).map (·.mapState Prod.fst) =
      s.call? fuel scene request world
  /-- Every attempt asks a fresh copy of the stored service whether it is ready,
  and calls it once, with the request, if it is. -/
  visits : ∀ world log, s.watched.operation request (world, log) =
    ((s.operation request world).1, (s.operation request world).2,
      log ++ (s.service.visit s.stored request world).1.touches s.stored request)
  /-- Nothing else is done to the service in a run. -/
  touched : ∀ fuel run, s.watched.call? fuel scene request (world, []) = some run →
    run.state.2 =
      (List.range run.trace.beginnings.length).flatMap fun i =>
        (s.visitAt request world i).touches s.stored request
  /-- With a token that has been fired already nothing is done to it. -/
  untouched :
    (scene.token.fired = true ∨ ∃ due, scene.token.due = some due ∧ due < scene.clock) →
    ∀ fuel, ∃ run, s.watched.call? (fuel + 1) scene request (world, []) = some run ∧
      run.answer = .error Builtin.retryCanceled ∧ run.state = (world, [])
  /-- Without a classifier the last error is always below a cancellation or below
  the reason to give up. -/
  covered : s.classifier = none → ∀ fuel run e,
    s.call? fuel scene request world = some run → run.answer = .error e →
      e = Builtin.retryCanceled ∧ run.trace.beginnings.length = 0 ∨
        ∃ i fault reason, run.trace.beginnings.length = i + 1 ∧
          (s.script request world i).outcome = .error (.transient fault) ∧
          (reason = Builtin.retryCanceled ∨
            reason = Backoff.exhausted ((s.series scene request world).backoffAt (i + 1))) ∧
          e = reason.wrap fault.toCoded.toFault

theorem covered_of_call? {s : RetriedService β ι ω Request Response} {fuel : Nat}
    {scene : Scene} {request : Request} {world : ω} {run : Run ω (Except CodedError Response)}
    {e : CodedError} (hnone : s.classifier = none)
    (hcall : s.call? fuel scene request world = some run) (herror : run.answer = .error e) :
    e = Builtin.retryCanceled ∧ run.trace.beginnings.length = 0 ∨
      ∃ i fault reason, run.trace.beginnings.length = i + 1 ∧
        (s.script request world i).outcome = .error (.transient fault) ∧
        (reason = Builtin.retryCanceled ∨
          reason = Backoff.exhausted ((s.series scene request world).backoffAt (i + 1))) ∧
        e = reason.wrap fault.toCoded.toFault := by
  rw [call?_eq, Option.map_eq_some_iff] at hcall
  obtain ⟨valued, hvalued, rfl⟩ := hcall
  obtain ⟨plain, hplain, hdelivers⟩ := Runner.delivers_of_runValue? hvalued
  obtain ⟨k, c, hreach, hexit, rfl⟩ :=
    Series.exit_of_run? (s := s.series scene request world) hplain
  have htransient : ∀ i fault,
      (s.series scene request world).outcome i ≠ .error (.permanent fault) :=
    fun i fault hfail => script_transient hnone request world i fault (outcome_of_series hfail)
  have hmade : valued.trace.beginnings.length = c.made := by
    rw [hdelivers.trace, hexit.length_beginnings hreach]
  rcases hexit.over_last hreach htransient ((hdelivers.error_iff e).1 herror) with
    ⟨hcanceled, hzero⟩ | ⟨i, fault, reason, hlast, hfail, hwrapped⟩
  · exact Or.inl ⟨hcanceled, hmade.trans hzero⟩
  · exact Or.inr ⟨i, fault, reason, hmade.trans hlast, outcome_of_series hfail, hwrapped⟩

/-- With a token that has been fired already the series of any script ends
before its first attempt. -/
theorem call?_watched_of_fired (s : RetriedService β ι ω Request Response) {scene : Scene}
    (request : Request) (world : ω)
    (hfired : scene.runtime.finds scene.token scene.clock = true) (fuel : Nat) :
    ∃ run, s.watched.call? (fuel + 1) scene request (world, []) = some run ∧
      run.answer = .error Builtin.retryCanceled ∧ run.state = (world, []) := by
  let filling : Series β (Nat × Option Response) :=
    ⟨s.runner, scene, (Operation.ofSequence (s.script request world)).filling, (0, none)⟩
  have hexit : filling.Exit 0 _ := .before hfired
  have hrun := Series.run?_of_exit (.zero filling) hexit (fuel + 1)
  rw [if_pos (Nat.succ_pos fuel)] at hrun
  have hvalued := congrArg (Option.map Runner.collect) hrun
  rw [call?_watched]
  exact ⟨_, congrArg (Option.map _) hvalued, rfl, rfl⟩

/-- However a service behaves, a retried service answers as the series of its
visits does. -/
theorem answers_as_scripted (s : RetriedService β ι ω Request Response) (scene : Scene)
    (request : Request) (world : ω) : s.Answers scene request world := by
  constructor
  case scripted =>
    intro fuel
    exact s.call?_eq fuel scene request world
  case unaffected =>
    intro fuel
    rw [call?_watched, call?_eq, Option.map_map]
    rfl
  case visits =>
    intro world log
    exact s.operation_watched request world log
  case touched =>
    intro fuel run hrun
    rw [call?_watched, Option.map_eq_some_iff] at hrun
    obtain ⟨valued, hvalued, rfl⟩ := hrun
    show s.touches request world valued.state = _
    rw [Runner.state_of_runValue? hvalued, touches]
    rfl
  case untouched =>
    intro hfired fuel
    exact s.call?_watched_of_fired request world ((scene.runtime.finds_iff _ _).2 hfired) fuel
  case covered =>
    intro hnone fuel run e hcall herror
    exact covered_of_call? hnone hcall herror

/-- A service that is cold at first.  Once it has warmed up its first call is
lost; the world is the number of polls. -/
def slowStarter : Service String Nat String String where
  ready _ polls :=
    (⟨[.timer (.ofMillis 2)], false, if polls = 0 then .error (.note "cold") else .ok ()⟩, "warm",
      polls + 1)
  call own request polls :=
    (⟨[.other (.ofMillis 3)], false,
      if polls = 2 then .error Builtin.peerConnection.toFault else .ok (request ++ "!")⟩, own,
      polls)

/-- The cold service behind a runner, without a classifier. -/
def startingSlowly (waits : List Span) : RetriedService Scripted String Nat String String :=
  .around ⟨.start waits, none⟩ slowStarter "stored"

/-- The third visit brings the response.  With one wait only the second error is
returned under the reason to give up, and with a token that has been fired the
service is left alone. -/
theorem slowStarter_answers :
    (∃ run, (startingSlowly [.ofMillis 1, .ofMillis 1]).watched.call? 3
        ⟨.start, .idle, fun _ => .least⟩ "ping" (0, []) = some run ∧
      run.answer = .ok "ping!" ∧
      run.state.2 =
        [.polled "stored" false, .polled "stored" true, .called "warm" "ping",
          .polled "stored" true, .called "warm" "ping"]) ∧
    (∃ run e fault, (startingSlowly [.ofMillis 1]).call? 3
        ⟨.start, .idle, fun _ => .least⟩ "ping" 0 = some run ∧ run.answer = .error e ∧
      ((startingSlowly [.ofMillis 1]).script "ping" 0 1).outcome = .error (.transient fault) ∧
      e = Builtin.retryTimeSpent.wrap fault.toCoded.toFault) ∧
    ∃ run, (startingSlowly [.ofMillis 1]).watched.call? 1
        ⟨.start, ⟨true, none⟩, fun _ => .least⟩ "ping" (0, []) = some run ∧
      run.answer = .error Builtin.retryCanceled ∧ run.state = (0, []) := by
  have hserved := answers_as_scripted (startingSlowly [.ofMillis 1, .ofMillis 1])
    ⟨.start, .idle, fun _ => .least⟩ "ping" 0
  have hspent := answers_as_scripted (startingSlowly [.ofMillis 1])
    ⟨.start, .idle, fun _ => .least⟩ "ping" 0
  have hfired := answers_as_scripted (startingSlowly [.ofMillis 1])
    ⟨.start, ⟨true, none⟩, fun _ => .least⟩ "ping" 0
  refine ⟨?_, ?_, hfired.untouched (Or.inl rfl) 0⟩
  · have hrun : (startingSlowly [.ofMillis 1, .ofMillis 1]).watched.call? 3
        ⟨.start, .idle, fun _ => .least⟩ "ping" (0, []) = some _ := rfl
    exact ⟨_, hrun, rfl, hserved.touched 3 _ hrun⟩
  · have hdistinct : Builtin.retryCanceled.code ≠ Builtin.retryTimeSpent.code := by decide
    obtain ⟨run, e, hrun, herror, hcode, hmade⟩ : ∃ run e,
        (startingSlowly [.ofMillis 1]).call? 3 ⟨.start, .idle, fun _ => .least⟩ "ping" 0 =
            some run ∧
          run.answer = .error e ∧ e.code = Builtin.retryTimeSpent.code ∧
          run.trace.beginnings.length = 2 := ⟨_, _, rfl, rfl, rfl, rfl⟩
    rcases hspent.covered rfl 3 run e hrun herror with
      ⟨rfl, _⟩ | ⟨i, fault, reason, hlast, hfail, hreason, rfl⟩
    · exact absurd hcode hdistinct
    · obtain rfl : i = 1 := Nat.succ.inj (hlast.symm.trans hmade)
      refine ⟨run, _, fault, hrun, herror, hfail, ?_⟩
      rcases hreason with rfl | rfl
      · exact absurd hcode hdistinct
      · rfl

end RetriedService

end Recourse
