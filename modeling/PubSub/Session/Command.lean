import PubSub.Backend
import PubSub.Subscription.Script
import PubSub.Subscription.Subscribe

/-!
# Commands

A session is led by commands that make publishers, subscribers and subscriptions by name and use
them. What a command answers is a reply.
-/

namespace PubSub.Session

/-- A topic to publish to: by the name of its publisher, or by the name it was held under. -/
inductive Target where
  | topic (publisher topic : String)
  | handle (name : String)

inductive PublisherCommand where
  | memory (name : String)
  | files (name : String) (root : Bytes)
  | limited (name : String) (limit : Nat) (refusal : Error)
  | open (name url : String) (registry token : Option String)
  | publish (target : Target) (m : Message) (token : Option String)
  | publishBatch (target : Target) (batch : List Message) (token : Option String)
  | close (publisher : String)
  | hold (publisher topic name : String)
  | topicName (target : Target)
  | topicPath (publisher topic : String)
  | sameTopic (publisher a b : String)
  | messages (publisher topic : String)
  /-- What the last limited publisher holds of a topic. -/
  | stored (topic : String)

inductive SubscriberCommand where
  | memory (name : String) (topics : List (String × List Message))
  | files (name : String) (root : Bytes)
  | clone (name subscriber : String)
  | open (name url : String) (registry token : Option String)
  | close (subscriber : String)
  | pending (subscriber topic : String)
  | topicName (subscriber topic : String)
  | sameTopic (subscriber other a b : String)

inductive SubscriptionCommand where
  | subscribe (subscriber : String) (s : Subscribing)
  | spawn (s : Subscribing) (script : List Instruction) (abandoned : Bool)
  | release (n : Nat)
  | wait
  | close
  | drop
  | finished
  | shown
  | seen
  | errors
  | deliveries

inductive RegistryCommand where
  | create (name : String) (builtin : Bool)
  | registerBuiltin (registry : Option String)
  | registerPublisher (registry : Option String) (scheme : String) (way : PublisherWay)
  | registerSubscriber (registry : Option String) (scheme : String) (way : SubscriberWay)
  | schemes (registry : Option String)
  | calls

inductive FileCommand where
  | write (path content : Bytes)
  | append (path content : Bytes)
  | makeFolder (path : Bytes)
  | remove (path : Bytes)
  | read (path : Bytes)
  | list
  | limit (size : Option Nat)

inductive Command where
  | publisher (c : PublisherCommand)
  | subscriber (c : SubscriberCommand)
  /-- A command to the subscription of a name. -/
  | subscription (name : String) (c : SubscriptionCommand)
  | registry (c : RegistryCommand)
  | files (c : FileCommand)
  | cancel (token : String)

inductive Reply where
  | done (r : Except Error Unit)
  | panic (text : String)
  | yes (b : Bool)
  | count (n : Nat)
  | text (s : String)
  | bytes (b : Bytes)
  | root (path : Bytes)
  | topic (name : String)
  | messages (ms : List Message)
  | errors (es : List Error)
  | deliveries (ds : List Delivery)
  | schemes (publishers subscribers : List String) (shown : String)
  | calls (cs : List OpenCall)
  | tree (entries : List (Bytes × Option Bytes))
  /-- The subscription has not ended yet. -/
  | pending
  /-- The subscription is no longer held. -/
  | dropped
  | nothing

end PubSub.Session
