import PubSub.Subscription.Action

/-!
# The loop on messages in memory

The loop takes the oldest pending message and offers it to the handler, until there is none. It
looks at its token before it takes, so that a cancelled loop takes nothing, and what the dispatcher
discards goes back to the front.
-/

namespace PubSub

inductive MemoryPoint where
  | look
  | take
  | offer (m : Message)
  | putBack (m : Message)
  | rest
  | stop (r : Except Error Unit)

structure MemoryLoop where
  subscriber : Nat
  topic : String
  point : MemoryPoint

namespace MemoryLoop

def start (subscriber : Nat) (topic : String) : MemoryLoop := ⟨subscriber, topic, .look⟩

def act (l : MemoryLoop) : Action MemoryLoop :=
  let go (p : MemoryPoint) : MemoryLoop := { l with point := p }
  match l.point with
  | .look => .check fun cancelled => go (if cancelled then .stop (.error .cancelled) else .take)
  | .take =>
    .take l.subscriber l.topic fun
      | none => go (.stop (.ok ()))
      | some m => go (.offer m)
  | .offer m =>
    .dispatch m fun
      | .ack => go .rest
      | .discarded => go (.putBack m)
      | .ackAndStop | .reject => go (.stop (.ok ()))
  | .putBack m => .putBack l.subscriber l.topic m (go (.stop (.error .cancelled)))
  | .rest => .pause (go .look)
  | .stop r => .finish r

end MemoryLoop

end PubSub
