import PubSub.Contract.Publishing
import PubSub.Contract.Subscribing

/-!
# The built-in backends as subjects

Publisher number 0 of a world is under test. The files of a log are read back by a subscription
that is left to itself.
-/

namespace PubSub.Contract

def home : Bytes := Utf8.ofText "/contract"

def root : Bytes := Utf8.ofText "log"

/-- A world whose publisher keeps messages in memory. -/
def memoryWorld : World :=
  (World.start (.start home)).addPublisher "subject" (.memory NameMap.empty)

/-- A world whose publisher is a file log in a folder. -/
def fileWorld : World :=
  match FileLog.create (.start home) root with
  | (.ok log, files) => (World.start files).addPublisher "subject" (.files log)
  | (.error _, files) => World.start files

/-! ## Publishers -/

def publisherSubject (messages : World → String → Except Cause (List Message)) :
    PublisherSubject World :=
  ⟨fun w topic m => w.publish 0 false topic m, fun w topic batch => w.publishBatch 0 false topic batch,
    messages⟩

def memoryPublisher : PublisherSubject World :=
  publisherSubject fun w topic => .ok ((w.publishers[0]?.map (·.messages topic)).getD [])

/-- All messages of a topic in the folder. -/
def readBack (w : World) (topic : String) : Except Cause (List Message) :=
  let s : Subscribing :=
    ⟨topic, .default, SubscriberSubject.always [] .continue, false⟩
  match s.toFiles w.files root with
  | .error e => .error (.error e)
  | .ok s =>
    let b := (Bus.alone w s).settled
    match b.outcome? with
    | some (.error e) => .error (.error e)
    | _ => .ok b.handled

def filePublisher : PublisherSubject World := publisherSubject readBack

/-! ## Subscribers -/

def subscriberSubject (seed : World → String → List Message → Except Cause Nat × World) :
    SubscriberSubject :=
  ⟨seed, fun w n s => s.toSubscriber w n, fun w n => (.ok (), w.closeSubscriber n)⟩

def memorySubscriber : SubscriberSubject :=
  subscriberSubject fun w topic ms =>
    (.ok w.subscribers.length,
      w.addSubscriber "subject" (.memory (NameMap.ofList [(topic, ms)])))

def fileSubscriber : SubscriberSubject :=
  subscriberSubject fun w topic ms =>
    match w.publishBatch 0 false topic ms with
    | (.error e, w) => (.error (.error e), w)
    | (.ok (), w) => (.ok w.subscribers.length, w.addSubscriber "subject" (.files root))

end PubSub.Contract
