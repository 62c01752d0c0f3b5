import PubSub.Subscription.Basic
import PubSub.Subscription.Script

/-!
# Hanging up

On its way out the loop of a replay hangs up on its reader and waits until the reader has stopped.
The reader goes on decoding until it has a record for the loop, also one for which there was no
room before; it finds nobody there and stops.

`Bus` lets the loop return at once and its reader be forgotten. Here the two are together to the
end.
-/

namespace PubSub

namespace Feed

/-- The loop hangs up; what is queued is lost. -/
def hangUp (f : Feed) : Feed := { f with queued := [] }

/-- The next step of a reader on which the loop has hung up, unless it has stopped. -/
def windUp? (f : Feed) (content : Except SystemError Bytes) : Option Feed :=
  match f.held with
  | some _ => some { f with held := none, ended := true }
  | none => if f.ended then none else some (f.decode content)

end Feed

/-- A subscription that replays a file, up to the end of its loop and of its reader. -/
structure Replay where
  world : World
  subscription : Subscription Loop
  /-- Whether the loop has hung up. -/
  hungUp : Bool

namespace Replay

/-- Whether the loop is on its way out. -/
def isLeaving (x : Replay) : Bool :=
  match x.subscription.phase with
  | .running (.replay (.stop _)) => true
  | _ => false

/-- Whether there is no reader that goes on. -/
def hasStopped (x : Replay) : Bool := x.subscription.feed.all (·.ended)

def setFeed (x : Replay) (f : Option Feed) : Replay :=
  { x with subscription := { x.subscription with feed := f } }

/-- The next step of the subscription's loop by itself, unless it has to wait. -/
def advance? (x : Replay) (favoursCancel : Bool) : Option Replay :=
  (x.subscription.advance Loop.act favoursCancel x.world).map fun (w, s) =>
    { x with world := w, subscription := s }

/-- The next step of the loop, unless it has to wait. -/
def loop? (x : Replay) (favoursCancel : Bool) : Option Replay :=
  if x.isLeaving then
    if x.hungUp then
      if x.hasStopped then x.advance? favoursCancel else none
    else some { x.setFeed (x.subscription.feed.map (·.hangUp)) with hungUp := true }
  else x.advance? favoursCancel

/-- The next step of the reader, unless it has stopped or has to wait. -/
def reader? (x : Replay) : Option Replay :=
  if x.hungUp then do
    let f ← x.subscription.feed
    let f ← f.windUp? (x.world.files.read f.node)
    return x.setFeed (some f)
  else (x.subscription.readAhead x.world).map fun s => { x with subscription := s }

end Replay

end PubSub
