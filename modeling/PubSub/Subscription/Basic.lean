import PubSub.Subscription.Action
import PubSub.Subscription.Feed
import PubSub.Subscription.Options
import PubSub.World

/-!
# Subscriptions

A subscription binds one handler to one consume loop. The loop ends when the handler is done or
fails, when there are no more messages, or when a token is cancelled; what it came to is captured
once, and whoever waits for the subscription is told the same.
-/

namespace PubSub

/-- How a loop ended. -/
inductive Ending where
  | returned (r : Except Error Unit)
  | panicked (text : String)

inductive Phase (σ : Type) where
  | running (s : σ)
  /-- A message passed the first check and waits for the handler. -/
  | called (m : Message) (next : Delivery → σ)
  /-- The handler works on a message. -/
  | handling (m : Message) (next : Delivery → σ)
  | ended (e : Ending)
  /-- The result is captured. -/
  | over
  /-- Nobody will ever run the loop again. -/
  | abandoned

structure Subscription (σ : Type) where
  topic : String
  options : SubscribeOptions
  handler : Handler
  /-- Whether the handler waits for a permit before it answers a message. -/
  gated : Bool
  permits : Nat
  dispatcher : Dispatcher
  feed : Option Feed
  phase : Phase σ
  /-- The messages that the handler was given, the latest first. -/
  seen : List Message
  /-- How messages fared, the latest first. -/
  deliveries : List Delivery
  /-- Errors of the transport that were collected, the latest first. -/
  reported : List Error
  result : Option (Except Error Unit)
  /-- Whether somebody still holds the subscription. -/
  held : Bool

namespace Subscription

variable {σ : Type}

def spawn (topic : String) (options : SubscribeOptions) (handler : Handler) (gated : Bool)
    (feed : Option Feed) (s : σ) : Subscription σ :=
  ⟨topic, options, handler, gated, 0, .fresh, feed, .running s, [], [], [], none, true⟩

/-! ## Tokens -/

/-- The subscription's token is cancelled along with the one that governs it. -/
def isCancelled (s : Subscription σ) (w : World) : Bool :=
  s.dispatcher.cancelled || w.isCancelled? s.options.governor

def isStopped (s : Subscription σ) (w : World) : Bool := s.dispatcher.halted || s.isCancelled w

/-- A request to stop. -/
def cancel (s : Subscription σ) : Subscription σ :=
  { s with dispatcher := s.dispatcher.cancel }

/-- Gives the subscription up, which stops it. -/
def drop (s : Subscription σ) : Subscription σ := { s.cancel with held := false }

def release (s : Subscription σ) (n : Nat) : Subscription σ := { s with permits := s.permits + n }

/-! ## Results -/

/-- What is captured: a recorded failure comes before what the loop returned, and a cancellation
counts only if the governing token was cancelled. In the text of a panic the number of the task is
left open. -/
def conclude (governorCancelled : Bool) (failure : Option Error) : Ending → Except Error Unit
  | .panicked text => .error (.task ("task N panicked with message " ++ Quoted.quote text))
  | .returned r =>
    match failure, r with
    | some e, _ => .error e
    | none, .error .cancelled => if governorCancelled then .error .cancelled else .ok ()
    | none, r => r

def isFinished (s : Subscription σ) : Bool := s.result.isSome

/-- What whoever waits is told, once there is something to tell. -/
def outcome? (s : Subscription σ) : Option (Except Error Unit) :=
  match s.result, s.phase with
  | some r, _ => some r
  | none, .abandoned => some (.error (.task "subscription task dropped"))
  | none, _ => none

/-- The subscription in brief. -/
def shown (s : Subscription σ) : String :=
  "Subscription \x7b topic: " ++ Quoted.quote s.topic ++ ", finished: " ++
    (if s.isFinished then "true" else "false") ++ " \x7d"

/-! ## Steps -/

def goOn (s : Subscription σ) (next : σ) : Subscription σ := { s with phase := .running next }

def deliver (s : Subscription σ) (d : Delivery) (next : Delivery → σ) : Subscription σ :=
  { s with phase := .running (next d), deliveries := d :: s.deliveries }

/-- Takes what a loop that waits for a record gets. If a record is there and the token is cancelled
too, either may come first. -/
def receive (favoursCancel : Bool) (w : World) (s : Subscription σ) (next : Received → σ) :
    Option (Subscription σ) :=
  let cancelled := s.isCancelled w
  match s.feed with
  | none => if cancelled then some (s.goOn (next .cancelled)) else none
  | some feed =>
    if cancelled ∧ favoursCancel then some (s.goOn (next .cancelled))
    else
      match feed.queued with
      | r :: rest =>
        let s := { s with feed := some { feed with queued := rest } }
        match r with
        | .ok m => some (s.goOn (next (.message m)))
        | .error e => some (s.goOn (next (.broken e)))
      | [] =>
        if feed.isDry then some (s.goOn (next .finished))
        else if cancelled then some (s.goOn (next .cancelled))
        else none

/-- The handler answers the message that it works on. -/
def answer (w : World) (s : Subscription σ) (m : Message) (next : Delivery → σ) :
    World × Subscription σ :=
  let reaction := s.handler s.seen.tail m
  let w := reaction.effects.foldl World.act w
  let s := { s with permits := s.permits - 1 }
  match reaction.outcome with
  | .panic text => (w, { s with phase := .ended (.panicked text) })
  | .flow flow =>
    let (d, dispatcher) := s.dispatcher.answer flow
    (w, { s with dispatcher := dispatcher }.deliver d next)

/-- What a running loop does next, unless it has to wait. -/
def perform (favoursCancel : Bool) (w : World) (s : Subscription σ) :
    Action σ → Option (World × Subscription σ)
  | .check next => some (w, s.goOn (next (s.isCancelled w)))
  | .dispatch m next =>
    if s.isStopped w then some (w, s.deliver .discarded next)
    else some (w, { s with phase := .called m next })
  | .fail e next => some (w, { s with dispatcher := s.dispatcher.fail e }.goOn next)
  | .cancel token next => some (w.cancel token, s.goOn next)
  | .cancelOwn next => some (w, s.cancel.goOn next)
  | .awaitCancel next => if s.isCancelled w then some (w, s.goOn next) else none
  | .take n topic next =>
    let (m, w) := w.take n topic
    some (w, s.goOn (next m))
  | .putBack n topic m next => some (w.putBack n topic m, s.goOn next)
  | .receive next => (s.receive favoursCancel w next).map fun s => (w, s)
  | .report e next =>
    let (collected, events) := s.options.report e
    some (w.note events, { s with reported := collected ++ s.reported }.goOn next)
  | .log e next => some (w.note [e], s.goOn next)
  | .pause next => some (w, s.goOn next)
  | .finish r => some (w, { s with phase := .ended (.returned r) })
  | .panic text => some (w, { s with phase := .ended (.panicked text) })

/-- The next step of a subscription, unless it has to wait or is over. -/
def advance (drive : σ → Action σ) (favoursCancel : Bool) (w : World) (s : Subscription σ) :
    Option (World × Subscription σ) :=
  match s.phase with
  | .running st => s.perform favoursCancel w (drive st)
  | .called m next =>
    if s.isStopped w then some (w, s.deliver .discarded next)
    else some (w, { s with phase := .handling m next, seen := m :: s.seen })
  | .handling m next => if s.gated ∧ s.permits = 0 then none else some (s.answer w m next)
  | .ended e =>
    let r := conclude (w.isCancelled? s.options.governor) s.dispatcher.failure e
    some (w, { s with phase := .over, result := some r })
  | .over | .abandoned => none

/-- Whether others go first after the next step. -/
def givesWay (drive : σ → Action σ) (s : Subscription σ) : Bool :=
  match s.phase with
  | .running st => (drive st).isPause
  | _ => false

def isLive (s : Subscription σ) : Bool :=
  match s.phase with
  | .ended _ | .over | .abandoned => false
  | _ => true

/-- The next step of the reader of a subscription; it reads for no loop that has ended. -/
def readAhead (w : World) (s : Subscription σ) : Option (Subscription σ) :=
  match s.feed with
  | none => none
  | some feed =>
    if s.isLive then
      (feed.read? (w.files.read feed.node)).map fun feed => { s with feed := some feed }
    else none

end Subscription

end PubSub
