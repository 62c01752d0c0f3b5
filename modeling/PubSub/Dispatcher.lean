import PubSub.Handler

/-!
# Dispatchers

A dispatcher hands messages to the handler of one subscription and stops once the handler is done
or failed, once the transport failed, or once the subscription's token is cancelled.
-/

namespace PubSub

/-- How one message fared. -/
inductive Delivery where
  /-- Handled; the next one may follow. -/
  | ack
  /-- Handled, and the handler is done. -/
  | ackAndStop
  /-- The handler failed. -/
  | reject
  /-- The handler never saw it. -/
  | discarded
  deriving DecidableEq, Repr

namespace Delivery

def shouldAck : Delivery → Bool
  | .ack | .ackAndStop => true
  | .reject | .discarded => false

def shouldContinue (d : Delivery) : Bool := d = .ack

def name : Delivery → String
  | .ack => "Ack"
  | .ackAndStop => "AckAndStop"
  | .reject => "Reject"
  | .discarded => "Discarded"

end Delivery

/-- Whether a handler or the transport stopped the subscription, whether its token was cancelled,
and the last error that stopped it. -/
structure Dispatcher where
  halted : Bool
  cancelled : Bool
  failure : Option Error
  deriving DecidableEq, Repr

namespace Dispatcher

def fresh : Dispatcher := ⟨false, false, none⟩

def isStopped (d : Dispatcher) : Bool := d.halted || d.cancelled

def cancel (d : Dispatcher) : Dispatcher := ⟨d.halted, true, d.failure⟩

def stop (d : Dispatcher) (failure : Option Error) : Dispatcher :=
  ⟨true, true, failure.orElse fun _ => d.failure⟩

/-- The transport failed. -/
def fail (d : Dispatcher) (e : Error) : Dispatcher := d.stop (some e)

/-- What a handler's answer does, and how the message fared. -/
def answer (d : Dispatcher) : Flow → Delivery × Dispatcher
  | .continue => (.ack, d)
  | .done => (.ackAndStop, d.stop none)
  | .abort cause => (.reject, d.stop (some (.handler cause)))

end Dispatcher

end PubSub
