import PubSub.Bus.Settled
import PubSub.Session.Command

/-!
# Sessions

A session runs commands one after another. After each of them all parties go on until they wait for
something that only a later command can bring.
-/

namespace PubSub

structure Session where
  bus : Bus Loop
  /-- Topics that are held, with the number of their publisher. -/
  handles : NameMap (Nat × String)
  subscriptions : NameMap Nat
  registries : NameMap Backends
  /-- The registry for commands that name none. -/
  common : Backends
  /-- The calls of ways that were bound by hand, in order. -/
  calls : List OpenCall
  /-- The last limited publisher. -/
  limited : Option Nat

namespace Session

def start (home : Bytes) : Session :=
  ⟨.start (.start (.start home)), NameMap.empty, NameMap.empty, NameMap.empty, Backends.builtin, [],
    none⟩

def world (s : Session) : World := s.bus.world

def setWorld (s : Session) (w : World) : Session := { s with bus := { s.bus with world := w } }

def mapFiles (s : Session) (files : Files) : Session :=
  s.setWorld { s.world with files := files }

/-! ## Publishers -/

def target? (s : Session) : Target → Option (Nat × String)
  | .topic publisher topic => (s.world.publisherNames.get? publisher).map fun n => (n, topic)
  | .handle name => s.handles.get? name

def publisher? (s : Session) (name : String) : Option Publisher := (s.world.publisher? name).map (·.2)

/-- A call on the publisher of a target; there is no such call without a publisher. -/
def call (s : Session) (target : Target)
    (f : World → Nat → String → Except Error Unit × World) : Reply × Session :=
  match s.target? target with
  | none => (.nothing, s)
  | some (n, topic) =>
    let (r, w) := f s.world n topic
    (.done r, s.setWorld w)

def registry (s : Session) (name : Option String) : Backends :=
  (name.bind s.registries.get?).getD s.common

def setRegistry (s : Session) (name : Option String) (r : Backends) : Session :=
  match name with
  | none => { s with common := r }
  | some name => { s with registries := s.registries.insert name r }

def runPublisher (s : Session) : PublisherCommand → Reply × Session
  | .memory name => (.done (.ok ()), s.setWorld (s.world.addPublisher name (.memory NameMap.empty)))
  | .files name root =>
    match FileLog.create s.world.files root with
    | (.error e, files) => (.done (.error e), s.mapFiles files)
    | (.ok log, files) =>
      (.root log.root, s.setWorld ((s.mapFiles files).world.addPublisher name (.files log)))
  | .limited name limit refusal =>
    let n := s.world.publishers.length
    let w := s.world.addPublisher name (.limited limit refusal NameMap.empty)
    (.done (.ok ()), { s.setWorld w with limited := some n })
  | .open name url registry token =>
    let cancelled := s.world.isCancelled? token
    let (r, files, call) := (s.registry registry).openPublisher s.world.files cancelled url
    let s := { s.mapFiles files with calls := s.calls ++ call.toList }
    match r with
    | .error e => (.done (.error e), s)
    | .ok p => (.done (.ok ()), s.setWorld (s.world.addPublisher name p))
  | .publish target m token =>
    s.call target fun w n topic => w.publish n (w.isCancelled? token) topic m
  | .publishBatch target batch token =>
    s.call target fun w n topic => w.publishBatch n (w.isCancelled? token) topic batch
  | .close publisher => s.call (.topic publisher "") fun w n _ => w.closePublisher n
  | .hold publisher topic name =>
    match s.target? (.topic publisher topic) with
    | none => (.nothing, s)
    | some held => (.done (.ok ()), { s with handles := s.handles.insert name held })
  | .topicName target =>
    match s.target? target with
    | none => (.nothing, s)
    | some (_, topic) => (.text topic, s)
  | .topicPath publisher topic =>
    match s.publisher? publisher with
    | some (.files log) => (.bytes (log.path topic), s)
    | _ => (.nothing, s)
  | .sameTopic _ a b => (.yes (a = b), s)
  | .messages publisher topic =>
    (.messages (((s.publisher? publisher).map (·.messages topic)).getD []), s)
  | .stored topic =>
    let p := s.limited.bind fun n => s.world.publishers[n]?
    (.messages ((p.map (·.messages topic)).getD []), s)

/-! ## Subscribers -/

def runSubscriber (s : Session) : SubscriberCommand → Reply × Session
  | .memory name topics =>
    (.done (.ok ()), s.setWorld (s.world.addSubscriber name (.memory (NameMap.ofList topics))))
  | .files name root => (.done (.ok ()), s.setWorld (s.world.addSubscriber name (.files root)))
  | .clone name subscriber =>
    match s.world.subscriberNames.get? subscriber with
    | none => (.nothing, s)
    | some n =>
      (.done (.ok ()), s.setWorld
        { s.world with subscriberNames := s.world.subscriberNames.insert name n })
  | .open name url registry token =>
    let cancelled := s.world.isCancelled? token
    let (r, call) := (s.registry registry).openSubscriber cancelled url
    let s := { s with calls := s.calls ++ call.toList }
    match r with
    | .error e => (.done (.error e), s)
    | .ok x => (.done (.ok ()), s.setWorld (s.world.addSubscriber name x))
  | .close subscriber =>
    match s.world.subscriberNames.get? subscriber with
    | none => (.nothing, s)
    | some n => (.done (.ok ()), s.setWorld (s.world.closeSubscriber n))
  | .pending subscriber topic =>
    match s.world.subscriberNames.get? subscriber with
    | none => (.nothing, s)
    | some n => (.count (s.world.pending n topic).length, s)
  | .topicName _ topic => (.text topic, s)
  | .sameTopic subscriber other a b =>
    let names := s.world.subscriberNames
    (.yes (a = b ∧ names.get? subscriber = names.get? other), s)

/-! ## Subscriptions -/

def subscription? (s : Session) (name : String) : Option (Subscription Loop) := do
  s.bus.subscriptions[(← s.subscriptions.get? name)]?

/-- Adds a subscription by name; one that had the name before is given up. -/
def addSubscription (s : Session) (name : String) (x : Subscription Loop) : Session :=
  let bus :=
    match s.subscriptions.get? name with
    | none => s.bus
    | some i => s.bus.change i .drop
  { s with bus := bus.add x, subscriptions := s.subscriptions.insert name bus.subscriptions.length }

def changeSubscription (s : Session) (name : String)
    (f : Subscription Loop → Subscription Loop) : Session :=
  match s.subscriptions.get? name with
  | none => s
  | some i => { s with bus := s.bus.change i f }

/-- What a command to a subscription changes. -/
def changeBy (s : Session) (name : String) : SubscriptionCommand → Reply × Session
  | .subscribe subscriber x =>
    match s.world.subscriberNames.get? subscriber with
    | none => (.nothing, s)
    | some n =>
      match x.toSubscriber s.world n with
      | .error e => (.done (.error e), s)
      | .ok sub => (.topic sub.topic, s.addSubscription name sub)
  | .spawn x script abandoned =>
    let sub := x.spawn none (.script (.next script))
    let sub := if abandoned then { sub with phase := .abandoned } else sub
    (.done (.ok ()), s.addSubscription name sub)
  | .release n => (.done (.ok ()), s.changeSubscription name (·.release n))
  | .close => (.nothing, s.changeSubscription name fun x => if x.held then x.cancel else x)
  | .drop => (.done (.ok ()), s.changeSubscription name .drop)
  | _ => (.nothing, s)

/-- What whoever holds a subscription is told when it asks for the result. -/
def tell (x : Subscription Loop) : Reply :=
  if x.held then
    match x.outcome? with
    | none => .pending
    | some r => .done r
  else .dropped

/-- What a command to a subscription asks for, once all parties have gone on. -/
def answerTo (s : Session) (name : String) (c : SubscriptionCommand) (reply : Reply) : Reply :=
  match s.subscription? name with
  | none => reply
  | some x =>
    match c with
    | .wait | .close => tell x
    | .finished => if x.held then .yes x.isFinished else .nothing
    | .shown => if x.held then .text x.shown else .nothing
    | .seen => .messages x.seen.reverse
    | .errors => .errors x.reported.reverse
    | .deliveries => .deliveries x.deliveries.reverse
    | _ => reply

/-! ## Registries and files -/

def registered (s : Session) (name : Option String) :
    Except SchemeTaken Backends → Reply × Session
  | .error t => (.panic t.message, s)
  | .ok r => (.done (.ok ()), s.setRegistry name r)

def runRegistry (s : Session) : RegistryCommand → Reply × Session
  | .create name builtin =>
    let r := if builtin then Backends.builtin else Registry.empty
    (.done (.ok ()), s.setRegistry (some name) r)
  | .registerBuiltin name =>
    let (r, registry) := (s.registry name).registerBuiltin
    let s := s.setRegistry name registry
    match r with
    | .error t => (.panic t.message, s)
    | .ok () => (.done (.ok ()), s)
  | .registerPublisher name scheme way =>
    s.registered name ((s.registry name).registerPublisher scheme way)
  | .registerSubscriber name scheme way =>
    s.registered name ((s.registry name).registerSubscriber scheme way)
  | .schemes name =>
    let r := s.registry name
    (.schemes r.publisherSchemes r.subscriberSchemes r.shown, s)
  | .calls => (.calls s.calls, s)

/-- A change of the files, as a reply. -/
def changed (s : Session) (step : Except SystemError Unit × Files) : Reply × Session :=
  (.done (step.1.mapError .system), s.mapFiles step.2)

def runFiles (s : Session) (c : FileCommand) : Reply × Session :=
  let files := s.world.files
  match c with
  | .write path content => s.changed (files.put path content)
  | .append path content => s.changed (files.extend path content)
  | .makeFolder path => s.changed (files.makeFolders path)
  | .remove path => (.done (.ok ()), s.mapFiles (files.remove path).2)
  | .read path =>
    match files.readPath path with
    | .ok content => (.bytes content, s)
    | .error _ => (.nothing, s)
  | .list => (.tree files.list, s)
  | .limit none => (.done (.ok ()), s.mapFiles files.unlimited)
  | .limit (some size) => (.done (.ok ()), s.mapFiles (files.limit size))

/-! ## Whole commands -/

def settled (s : Session) : Session := { s with bus := s.bus.settled }

/-- Runs a command and lets all parties go on. -/
def run (s : Session) (c : Command) : Reply × Session :=
  let s := s.setWorld { s.world with events := [] }
  let (reply, s) :=
    match c with
    | .publisher c => s.runPublisher c
    | .subscriber c => s.runSubscriber c
    | .subscription name c => s.changeBy name c
    | .registry c => s.runRegistry c
    | .files c => s.runFiles c
    | .cancel token => (.done (.ok ()), s.setWorld (s.world.cancel token))
  let s := s.settled
  match c with
  | .subscription name c => (s.answerTo name c reply, s)
  | _ => (reply, s)

/-- All subscriptions by name, with the number of messages seen and whether they have ended. Of one
that is no longer held, it counts whether its loop will do no more. -/
def summary (s : Session) : List (String × Nat × Bool) :=
  s.subscriptions.entries.filterMap fun (name, i) =>
    s.bus.subscriptions[i]?.map fun x =>
      let isOver :=
        match x.phase with
        | .over | .abandoned => true
        | _ => false
      (name, x.seen.length, if x.held then x.isFinished else isOver)

def events (s : Session) : List Event := s.world.events

end Session

end PubSub
