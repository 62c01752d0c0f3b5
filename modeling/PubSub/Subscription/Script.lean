import PubSub.Subscription.Memory
import PubSub.Subscription.Replay

/-!
# Consume loops

Besides the loops of the two backends there is one that does what a list of instructions says, to
try what subscriptions make of it. A `Loop` is any of them.
-/

namespace PubSub

inductive Instruction where
  /-- Returns if the token is cancelled; dispatches, and returns unless the loop may go on. -/
  | emit (m : Message)
  | dispatch (m : Message)
  | fail (e : Error)
  | cancel (token : String)
  | cancelOwn
  | idle
  | return (r : Except Error Unit)
  | panic (text : String)

inductive ScriptLoop where
  | next (rest : List Instruction)
  | offer (m : Message) (rest : List Instruction)
  | stop (r : Except Error Unit)

namespace ScriptLoop

def act : ScriptLoop → Action ScriptLoop
  | .next [] => .finish (.ok ())
  | .next (i :: rest) =>
    match i with
    | .emit m =>
      .check fun cancelled => if cancelled then .stop (.error .cancelled) else .offer m rest
    | .dispatch m => .dispatch m fun _ => .next rest
    | .fail e => .fail e (.next rest)
    | .cancel token => .cancel token (.next rest)
    | .cancelOwn => .cancelOwn (.next rest)
    | .idle => .awaitCancel (.next rest)
    | .return r => .finish r
    | .panic text => .panic text
  | .offer m rest =>
    .dispatch m fun d => if d.shouldContinue then .next rest else .stop (.ok ())
  | .stop r => .finish r

end ScriptLoop

inductive Loop where
  | memory (l : MemoryLoop)
  | replay (l : ReplayLoop)
  | script (l : ScriptLoop)

namespace Loop

def act : Loop → Action Loop
  | .memory l => l.act.map .memory
  | .replay l => l.act.map .replay
  | .script l => l.act.map .script

end Loop

end PubSub
