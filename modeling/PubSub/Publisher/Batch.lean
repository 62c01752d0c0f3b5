import PubSub.Error
import PubSub.Message

/-!
# Batches, message by message

Where nothing better is known, a batch is published by publishing its messages in order. It ends at
the first failure, which then carries the place of its message and the length of the batch.
-/

namespace PubSub

variable {σ : Type}

/-- The messages from number `index` on of a batch of `total` messages. -/
def publishFrom (publish : σ → Message → Except Error Unit × σ) (index total : Nat) (s : σ) :
    List Message → Except Error Unit × σ
  | [] => (.ok (), s)
  | m :: rest =>
    match publish s m with
    | (.ok (), s) => publishFrom publish (index + 1) total s rest
    | (.error e, s) => (.error (.batch index total e), s)

def publishAll (publish : σ → Message → Except Error Unit × σ) (s : σ) (batch : List Message) :
    Except Error Unit × σ :=
  publishFrom publish 0 batch.length s batch

end PubSub
