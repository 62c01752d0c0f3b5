import PubSub.Contract.Fault

/-!
# The suite of checks

Every check by itself, or all of one side, against either built-in backend, with at most one fault.
-/

namespace PubSub.Contract

inductive BuiltinBackend where
  | memory
  | files
  deriving DecidableEq, Repr

namespace BuiltinBackend

def world : BuiltinBackend → World
  | .memory => memoryWorld
  | .files => fileWorld

def publisher : BuiltinBackend → PublisherSubject World
  | .memory => memoryPublisher
  | .files => filePublisher

def subscriber : BuiltinBackend → SubscriberSubject
  | .memory => memorySubscriber
  | .files => fileSubscriber

end BuiltinBackend

inductive PublisherCheck where
  | publishes
  | publishesBatches
  | all
  deriving DecidableEq, Repr

def PublisherCheck.check {σ : Type} : PublisherCheck → PublisherSubject σ → Check σ Unit
  | .publishes, p => p.publishes 0
  | .publishesBatches, p => p.publishesBatches 0
  | .all, p => p.publisher

inductive SubscriberCheck where
  | subscribes
  | stopsOnWrappedDone
  | returnsHandlerError
  | stopsWhenCancelled
  | closesIdempotently
  | all
  deriving DecidableEq, Repr

def SubscriberCheck.check : SubscriberCheck → SubscriberSubject → Check World Unit
  | .subscribes, p => p.subscribes 0
  | .stopsOnWrappedDone, p => p.stopsOnWrappedDone 0
  | .returnsHandlerError, p => p.returnsHandlerError 0
  | .stopsWhenCancelled, p => p.stopsWhenCancelled 0
  | .closesIdempotently, p => p.closesIdempotently 0
  | .all, p => p.subscriber

/-! ## Verdicts -/

/-- Whether a check passes, or what it finds. -/
def verdict {σ : Type} (check : Check σ Unit) (s : σ) : Except String Unit :=
  (check.run s).map (·.1)

/-- A check of publishers, with a fault that strikes the message of a number. -/
def checkPublisher (backend : BuiltinBackend) (c : PublisherCheck)
    (fault : Option (PublishFault × Nat)) : Except String Unit :=
  match fault with
  | none => verdict (c.check backend.publisher) backend.world
  | some (fault, number) =>
    verdict (c.check (backend.publisher.withFault fault number)) (backend.world, 0)

def checkSubscriber (backend : BuiltinBackend) (c : SubscriberCheck)
    (fault : Option SubscribeFault) : Except String Unit :=
  let subject :=
    match fault with
    | none => backend.subscriber
    | some fault => backend.subscriber.withFault fault
  verdict (c.check subject) backend.world

end PubSub.Contract
