import PubSub.Subscription.Basic
import PubSub.Subscription.Script

/-!
# Subscribing

Both backends start at the oldest message and refuse to start elsewhere. A file that is not there
yet has no messages, and the subscription ends at once.
-/

namespace PubSub

/-- What a new subscription needs beside its source. -/
structure Subscribing where
  topic : String
  options : SubscribeOptions
  handler : Handler
  gated : Bool

namespace Subscribing

def spawn (s : Subscribing) (feed : Option Feed) (l : Loop) : Subscription Loop :=
  .spawn s.topic s.options s.handler s.gated feed l

/-- A subscription on the pending messages of subscriber `n`. -/
def toMemory (s : Subscribing) (n : Nat) : Except Error (Subscription Loop) := do
  let _ ← s.options.resolveStart .oldest [.oldest]
  return s.spawn none (.memory (.start n s.topic))

/-- A subscription on the file of a topic in a folder. -/
def toFiles (s : Subscribing) (files : Files) (root : Bytes) : Except Error (Subscription Loop) := do
  let _ ← s.options.resolveStart .oldest [.oldest]
  match files.locate (Path.join root (Utf8.ofText s.topic)) with
  | .ok node => return s.spawn (some (.start node)) (.replay .wait)
  | .error e =>
    if e = .notFound then return s.spawn none (.replay (.stop (.ok ())))
    else throw (.system e)

def toSubscriber (s : Subscribing) (w : World) (n : Nat) : Except Error (Subscription Loop) :=
  match w.subscribers[n]? with
  | some (.files root) => s.toFiles w.files root
  | _ => s.toMemory n

end Subscribing

end PubSub
