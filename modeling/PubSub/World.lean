import PubSub.Handler
import PubSub.Publisher.Basic

/-!
# What all parties share

Files, cancelled tokens, publishers and subscribers, and the events that are logged. Publishers and
subscribers are numbered in the order in which they came; a name stands for the last one that took
it, while whoever holds a number keeps the old one.
-/

namespace PubSub

/-- A source of messages: pending messages in memory, or the files of a folder. -/
inductive Subscriber where
  | memory (pending : Shelf)
  | files (root : Bytes)

structure World where
  files : Files
  cancelled : List String
  publishers : List Publisher
  publisherNames : NameMap Nat
  subscribers : List Subscriber
  subscriberNames : NameMap Nat
  events : List Event

namespace World

def start (files : Files) : World := ⟨files, [], [], NameMap.empty, [], NameMap.empty, []⟩

/-! ## Tokens and events -/

def isCancelled (w : World) (token : String) : Bool := w.cancelled.contains token

/-- Whether an optional token is cancelled; none never is. -/
def isCancelled? (w : World) (token : Option String) : Bool := token.any w.isCancelled

def cancel (w : World) (token : String) : World := { w with cancelled := token :: w.cancelled }

def note (w : World) (events : List Event) : World := { w with events := w.events ++ events }

/-! ## Publishers -/

def addPublisher (w : World) (name : String) (p : Publisher) : World :=
  { w with
    publishers := w.publishers ++ [p]
    publisherNames := w.publisherNames.insert name w.publishers.length }

def publisher? (w : World) (name : String) : Option (Nat × Publisher) := do
  let n ← w.publisherNames.get? name
  return (n, ← w.publishers[n]?)

/-- Takes over what a call on publisher `n` changed. -/
def settlePublisher (w : World) (n : Nat) (s : Publisher.Step) : Except Error Unit × World :=
  (s.result, { w with
    files := s.files
    publishers := w.publishers.set n s.publisher
    events := w.events ++ s.events })

/-- A call on publisher `n`; nothing happens if there is none. -/
def callPublisher (w : World) (n : Nat) (call : Publisher → Files → Publisher.Step) :
    Except Error Unit × World :=
  match w.publishers[n]? with
  | none => (.ok (), w)
  | some p => w.settlePublisher n (call p w.files)

def publish (w : World) (n : Nat) (cancelled : Bool) (topic : String) (m : Message) :
    Except Error Unit × World :=
  w.callPublisher n fun p files => p.publish files cancelled topic m

def publishBatch (w : World) (n : Nat) (cancelled : Bool) (topic : String)
    (batch : List Message) : Except Error Unit × World :=
  w.callPublisher n fun p files => p.publishBatch files cancelled topic batch

def closePublisher (w : World) (n : Nat) : Except Error Unit × World :=
  w.callPublisher n fun p files => p.close files

/-! ## Subscribers -/

def addSubscriber (w : World) (name : String) (s : Subscriber) : World :=
  { w with
    subscribers := w.subscribers ++ [s]
    subscriberNames := w.subscriberNames.insert name w.subscribers.length }

/-- The pending messages of a subscriber in memory. -/
def pending (w : World) (n : Nat) (topic : String) : List Message :=
  match w.subscribers[n]? with
  | some (.memory pending) => pending.messages topic
  | _ => []

def setPending (w : World) (n : Nat) (topic : String) (ms : List Message) : World :=
  match w.subscribers[n]? with
  | some (.memory pending) =>
    { w with subscribers := w.subscribers.set n (.memory (pending.insert topic ms)) }
  | _ => w

/-- Takes the oldest pending message. -/
def take (w : World) (n : Nat) (topic : String) : Option Message × World :=
  match w.pending n topic with
  | [] => (none, w)
  | m :: ms => (some m, w.setPending n topic ms)

/-- Puts a message back in front. -/
def putBack (w : World) (n : Nat) (topic : String) (m : Message) : World :=
  w.setPending n topic (m :: w.pending n topic)

/-- Closing a subscriber in memory forgets all that is pending. -/
def closeSubscriber (w : World) (n : Nat) : World :=
  match w.subscribers[n]? with
  | some (.memory _) => { w with subscribers := w.subscribers.set n (.memory NameMap.empty) }
  | _ => w

/-! ## Effects of handlers -/

def act (w : World) : Effect → World
  | .cancel token => w.cancel token
  | .closeSubscriber name =>
    match w.subscriberNames.get? name with
    | none => w
    | some n => w.closeSubscriber n
  | .publish name topic m =>
    match w.publisherNames.get? name with
    | none => w
    | some n => (w.publish n false topic m).2

end World

end PubSub
