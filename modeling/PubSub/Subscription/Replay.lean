import PubSub.Subscription.Action

/-!
# The loop on the records of a file

The loop offers one record after another to the handler, as they were read ahead. A record that is
cut short at the end of the file is logged and reported and ends the loop well; any other record
that cannot be decoded is its error.
-/

namespace PubSub

inductive ReplayLoop where
  | wait
  | look (m : Message)
  | offer (m : Message)
  | note (e : DecodeError)
  | tell (e : DecodeError)
  | stop (r : Except Error Unit)

namespace ReplayLoop

def act : ReplayLoop → Action ReplayLoop
  | .wait =>
    .receive fun
      | .message m => .look m
      | .broken e => if e.isEnd then .note e else .stop (.error (.codec e))
      | .finished => .stop (.ok ())
      | .cancelled => .stop (.error .cancelled)
  | .look m => .check fun cancelled => if cancelled then .stop (.error .cancelled) else .offer m
  | .offer m =>
    .dispatch m fun
      | .ack => .wait
      | .discarded => .stop (.error .cancelled)
      | .ackAndStop | .reject => .stop (.ok ())
  | .note e => .log (.truncatedRecord (.codec e)) (.tell e)
  | .tell e => .report (.codec e) (.stop (.ok ()))
  | .stop r => .finish r

end ReplayLoop

end PubSub
