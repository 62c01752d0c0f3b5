import PubSub.Publisher.FileLog

/-!
# Publishers

A publisher keeps its messages in memory, keeps only so many of each topic, or is a file log.
-/

namespace PubSub

/-- Messages by topic, in the order in which they were published. -/
abbrev Shelf := NameMap (List Message)

namespace Shelf

def messages (s : Shelf) (topic : String) : List Message := (s.get? topic).getD []

def add (s : Shelf) (topic : String) (m : Message) : Shelf :=
  s.insert topic (s.messages topic ++ [m])

/-- Publishes a message in memory. -/
def publish (cancelled : Bool) (topic : String) (s : Shelf) (m : Message) :
    Except Error Unit × Shelf :=
  if cancelled then (.error .cancelled, s) else (.ok (), s.add topic m)

/-- Publishes a message in memory that holds only `limit` messages of a topic. -/
def publishWithin (limit : Nat) (refusal : Error) (cancelled : Bool) (topic : String) (s : Shelf)
    (m : Message) : Except Error Unit × Shelf :=
  if cancelled then (.error .cancelled, s)
  else if limit ≤ (s.messages topic).length then (.error refusal, s)
  else (.ok (), s.add topic m)

end Shelf

inductive Publisher where
  | memory (shelf : Shelf)
  | limited (limit : Nat) (refusal : Error) (shelf : Shelf)
  | files (log : FileLog)

namespace Publisher

/-- What a call on a publisher came to, and all that it changed. -/
structure Step where
  result : Except Error Unit
  publisher : Publisher
  files : Files
  events : List Event

def Step.ofLog (s : FileLog.Step) : Step := ⟨s.result, .files s.log, s.files, s.events⟩

def publish (p : Publisher) (files : Files) (cancelled : Bool) (topic : String) (m : Message) :
    Step :=
  match p with
  | .memory shelf =>
    let (r, shelf) := shelf.publish cancelled topic m
    ⟨r, .memory shelf, files, []⟩
  | .limited limit refusal shelf =>
    let (r, shelf) := shelf.publishWithin limit refusal cancelled topic m
    ⟨r, .limited limit refusal shelf, files, []⟩
  | .files log => .ofLog (log.publish files cancelled topic m)

def publishBatch (p : Publisher) (files : Files) (cancelled : Bool) (topic : String)
    (batch : List Message) : Step :=
  match p with
  | .memory shelf =>
    let (r, shelf) := publishAll (Shelf.publish cancelled topic) shelf batch
    ⟨r, .memory shelf, files, []⟩
  | .limited limit refusal shelf =>
    let (r, shelf) := publishAll (Shelf.publishWithin limit refusal cancelled topic) shelf batch
    ⟨r, .limited limit refusal shelf, files, []⟩
  | .files log => .ofLog (log.publishBatch files cancelled topic batch)

def close (p : Publisher) (files : Files) : Step :=
  match p with
  | .files log => .ofLog (log.close files)
  | p => ⟨.ok (), p, files, []⟩

/-- The messages that are kept in memory. -/
def messages (p : Publisher) (topic : String) : List Message :=
  match p with
  | .memory shelf | .limited _ _ shelf => shelf.messages topic
  | .files _ => []

end Publisher

end PubSub
