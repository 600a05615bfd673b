import Recourse.Retry.Valued

/-!
# Retrying a service

A service answers requests, once it is ready for them.  A `RetriedService` puts
a runner around it: each attempt takes a fresh copy of the service, waits until
the copy is ready and calls it once with the request.  An error in getting
ready and an error of the call count alike; a classifier may say which errors
are permanent, and without one none is.

Copies of a service share what lies outside of them, the world, and each has
a part of its own, which a fresh copy starts from again.
-/

namespace Recourse

/-- An answer that takes some time. -/
structure Reply (α : Type) where
  waits : List Wait
  /-- Whether the token is fired just before the answer comes. -/
  cancels : Bool
  result : Except Fault α

/-- A service with its own part `ι` in a world `ω`. -/
structure Service (ι ω Request Response : Type) where
  /-- Waits until the service is ready. -/
  ready : ι → ω → Reply Unit × ι × ω
  /-- Answers a request; the service is ready. -/
  call : ι → Request → ω → Reply Response × ι × ω

/-- Decides whether another attempt may follow an error. -/
abbrev Classifier := Fault → Failure

namespace Service

variable {ι ω Request Response : Type}

/-- Waits until the service is ready, then calls it; there is no call if it
does not get ready. -/
def once (service : Service ι ω Request Response) (own : ι) (request : Request) (world : ω) :
    Reply Response × ω :=
  let (ready, own, world) := service.ready own world
  match ready.result with
  | .error fault => (⟨ready.waits, ready.cancels, .error fault⟩, world)
  | .ok () =>
    let (reply, _, world) := service.call own request world
    (⟨ready.waits ++ reply.waits, ready.cancels || reply.cancels, reply.result⟩, world)

/-- The operation that sends a request through a fresh copy of the service. -/
def operation (service : Service ι ω Request Response) (stored : ι) (classifier : Classifier)
    (request : Request) : Operation ω Response := fun world =>
  let (reply, world) := service.once stored request world
  (⟨reply.waits, reply.cancels, reply.result.mapError classifier⟩, world)

end Service

/-- A service behind a runner. -/
structure RetriedService (β ι ω Request Response : Type) where
  runner : Runner β
  service : Service ι ω Request Response
  /-- The service's own part that every copy starts from. -/
  stored : ι
  classifier : Option Classifier

namespace RetriedService

variable {β ι ω Request Response : Type}

/-- A service behind a runner, without a classifier. -/
def around (runner : Runner β) (service : Service ι ω Request Response) (stored : ι) :
    RetriedService β ι ω Request Response :=
  ⟨runner, service, stored, none⟩

/-- The same service with a classifier. -/
def withClassifier (s : RetriedService β ι ω Request Response) (classifier : Classifier) :
    RetriedService β ι ω Request Response :=
  { s with classifier := some classifier }

/-- The classifier in use; without one every error is transient. -/
def inUse (s : RetriedService β ι ω Request Response) : Classifier :=
  s.classifier.getD Failure.ofFault

/-- The attempts that are made for a request. -/
def operation (s : RetriedService β ι ω Request Response) (request : Request) :
    Operation ω Response :=
  s.service.operation s.stored s.inUse request

/-- Answers a request. -/
def call? [Backoff β] (s : RetriedService β ι ω Request Response) (fuel : Nat) (scene : Scene)
    (request : Request) (world : ω) : Option (Run ω (Except CodedError Response)) :=
  (s.runner.runValue? fuel scene (s.operation request) world).map (·.map Outcome.result)

end RetriedService

end Recourse
