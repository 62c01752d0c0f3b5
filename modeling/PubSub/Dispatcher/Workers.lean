import PubSub.Dispatcher.Shared

/-!
# Workers

Several workers dispatch a number of messages each through one dispatcher. How many messages fared
in which way does not depend on the order in which the workers come to their turns.
-/

namespace PubSub

structure Tally where
  ack : Nat
  ackAndStop : Nat
  reject : Nat
  discarded : Nat
  handled : Nat
  inFlight : Nat
  stopped : Bool
  failure : Option Error
  deriving DecidableEq, Repr

namespace Workers

/-- The messages of all workers in turn, one of each at a time. -/
def calls (workers each : Nat) : List (Call Nat) :=
  ((List.range each).map fun _ => (List.range workers).map fun w => ⟨w, Message.empty⟩).flatten

/-- One call, from the first check until it has come back. -/
def step (handler : Handler) (d : SharedDispatcher Nat) (c : Call Nat) : SharedDispatcher Nat :=
  (d.move handler "" (.call c)).settleAll handler "" false 0 |>.1

def run (handler : Handler) (workers each : Nat) : Tally :=
  let d := (calls workers each).foldl (step handler) SharedDispatcher.fresh
  let count (x : Delivery) : Nat := d.finished.countP fun f => f.2 = x
  ⟨count .ack, count .ackAndStop, count .reject, count .discarded, d.seen.length,
    if d.seen.isEmpty then 0 else 1, d.state.isStopped, d.state.failure⟩

end Workers

end PubSub
