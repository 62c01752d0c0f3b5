import PubSub.Error

/-!
# What a handler answers

A handler goes on, is done, or stops with a cause. A handler that only fails or not is read the same
way: a failure whose root is the done marker means that it is done.
-/

namespace PubSub

inductive Flow where
  | continue
  | done
  | abort (cause : Cause)
  deriving DecidableEq, Repr

namespace Flow

def ofResult : Except Cause Unit → Flow
  | .ok () => .continue
  | .error cause => if cause.isDone then .done else .abort cause

def isStop : Flow → Bool
  | .continue => false
  | _ => true

end Flow

end PubSub
