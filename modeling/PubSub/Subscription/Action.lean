import PubSub.Dispatcher
import PubSub.Event
import PubSub.Record.Flaw

/-!
# What a consume loop does

A consume loop is a state and, for every state, the next thing to do. What it does it does one thing
at a time, and other parties may come in between.
-/

namespace PubSub

/-- What a loop gets when it waits for the next record of a file. -/
inductive Received where
  | message (m : Message)
  | broken (e : DecodeError)
  /-- There are no more records. -/
  | finished
  /-- The subscription's token was cancelled. -/
  | cancelled
  deriving DecidableEq, Repr

/-- The next thing that a loop does, and its state after it. -/
inductive Action (σ : Type) where
  /-- Looks whether the subscription's token is cancelled. -/
  | check (next : Bool → σ)
  | dispatch (m : Message) (next : Delivery → σ)
  /-- Fails the subscription from the side of the transport. -/
  | fail (e : Error) (next : σ)
  | cancel (token : String) (next : σ)
  /-- Cancels the subscription's own token. -/
  | cancelOwn (next : σ)
  /-- Waits until the subscription's token is cancelled. -/
  | awaitCancel (next : σ)
  /-- Takes the oldest pending message of a subscriber in memory. -/
  | take (subscriber : Nat) (topic : String) (next : Option Message → σ)
  | putBack (subscriber : Nat) (topic : String) (m : Message) (next : σ)
  /-- Waits for a record that was read ahead, or for the subscription's token. -/
  | receive (next : Received → σ)
  /-- Tells an error of the transport to whom the options name. -/
  | report (e : Error) (next : σ)
  | log (e : Event) (next : σ)
  /-- Lets others go first. -/
  | pause (next : σ)
  | finish (r : Except Error Unit)
  | panic (text : String)

namespace Action

def map {σ τ : Type} (f : σ → τ) : Action σ → Action τ
  | .check next => .check fun b => f (next b)
  | .dispatch m next => .dispatch m fun d => f (next d)
  | .fail e next => .fail e (f next)
  | .cancel token next => .cancel token (f next)
  | .cancelOwn next => .cancelOwn (f next)
  | .awaitCancel next => .awaitCancel (f next)
  | .take n topic next => .take n topic fun m => f (next m)
  | .putBack n topic m next => .putBack n topic m (f next)
  | .receive next => .receive fun r => f (next r)
  | .report e next => .report e (f next)
  | .log e next => .log e (f next)
  | .pause next => .pause (f next)
  | .finish r => .finish r
  | .panic text => .panic text

def isPause {σ : Type} : Action σ → Bool
  | .pause _ => true
  | _ => false

end Action

end PubSub
