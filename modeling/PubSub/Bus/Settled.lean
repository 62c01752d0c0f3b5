import PubSub.Bus
import PubSub.Subscription.Script

/-!
# A bus at rest

How far a bus goes when it is left to itself. The number of steps is bounded by the bytes, messages
and instructions that are there to be worked on.
-/

namespace PubSub

/-- The sizes of all parts together. -/
def total {α : Type} (size : α → Nat) (l : List α) : Nat := l.foldr (fun a n => size a + n) 0

/-- The number of messages that a subscriber holds by itself. -/
def Subscriber.size : Subscriber → Nat
  | .memory pending => total (fun e => e.2.length) pending.entries
  | .files _ => 0

namespace World

def fileSize (w : World) : Nat := total w.files.size (List.range w.files.nodes.length)

def pendingSize (w : World) : Nat := total Subscriber.size w.subscribers

end World

def ScriptLoop.size : ScriptLoop → Nat
  | .next rest | .offer _ rest => rest.length + 1
  | .stop _ => 1

def Loop.size : Loop → Nat
  | .memory _ | .replay _ => 1
  | .script l => l.size

def Phase.size : Phase Loop → Nat
  | .running l => l.size
  | .called _ next | .handling _ next => (next .ack).size + (next .discarded).size
  | .ended _ | .over | .abandoned => 0

namespace Bus

/-- A bound on the steps that are left. -/
def bound (b : Bus Loop) : Nat :=
  let work := b.world.fileSize + b.world.pendingSize + total (·.phase.size) b.subscriptions
  16 * (b.subscriptions.length + 1) * (work + 16)

def settled (b : Bus Loop) : Bus Loop := b.settle Loop.act b.bound

/-! ## A bus with one subscription -/

def alone (w : World) (s : Subscription Loop) : Bus Loop := (Bus.start w).add s

/-- The messages that the first subscription handled. -/
def handled (b : Bus Loop) : List Message :=
  ((b.subscriptions.head?.map (·.seen)).getD []).reverse

/-- What the first subscription came to. -/
def outcome? (b : Bus Loop) : Option (Except Error Unit) :=
  b.subscriptions.head?.bind (·.outcome?)

def isFinished (b : Bus Loop) : Bool := b.subscriptions.head?.any (·.isFinished)

/-- Asks the first subscription to stop, and lets all parties go on. -/
def closed (b : Bus Loop) : Bus Loop := (b.change 0 .cancel).settled

end Bus

end PubSub
