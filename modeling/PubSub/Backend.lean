import PubSub.Registry
import PubSub.World

/-!
# Backends that open by URL

The files of a folder open under the scheme `file`, the folder being the local path of the URL.
Others are bound at will: they keep messages in memory, or fail.
-/

namespace PubSub

/-- A way of opening publishers. -/
inductive PublisherWay where
  | files
  | memory
  | failing (e : Error)

/-- A way of opening subscribers. -/
inductive SubscriberWay where
  | files
  | memory (pending : Shelf)
  | failing (e : Error)

abbrev Backends := Registry PublisherWay SubscriberWay

/-- The call of a way that was bound by hand. -/
structure OpenCall where
  side : String
  endpoint : Endpoint
  cancelled : Bool
  deriving DecidableEq, Repr

namespace PublisherWay

def isBuiltin : PublisherWay → Bool
  | .files => true
  | _ => false

def create (way : PublisherWay) (files : Files) (e : Endpoint) : Except Error Publisher × Files :=
  match way with
  | .files =>
    let (log, files) := FileLog.create files e.localPath
    (log.map .files, files)
  | .memory => (.ok (.memory NameMap.empty), files)
  | .failing error => (.error error, files)

end PublisherWay

namespace SubscriberWay

def isBuiltin : SubscriberWay → Bool
  | .files => true
  | _ => false

def create (way : SubscriberWay) (e : Endpoint) : Except Error Subscriber :=
  match way with
  | .files => .ok (.files e.localPath)
  | .memory pending => .ok (.memory pending)
  | .failing error => .error error

end SubscriberWay

namespace Backends

/-- Binds what needs no other service, the side of the publishers first. A refusal leaves bound what
was bound before it. -/
def registerBuiltin (r : Backends) : Except SchemeTaken Unit × Backends :=
  match r.registerPublisher "file" .files with
  | .error t => (.error t, r)
  | .ok r =>
    match r.registerSubscriber "file" .files with
    | .error t => (.error t, r)
    | .ok r => (.ok (), r)

/-- The registry of all that is built in. -/
def builtin : Backends := ⟨NameMap.ofList [("file", .files)], NameMap.ofList [("file", .files)]⟩

/-- Opens a publisher, and tells which call that took. -/
def openPublisher (r : Backends) (files : Files) (cancelled : Bool) (url : String) :
    Except Error Publisher × Files × Option OpenCall :=
  match Registry.resolve r.publishers cancelled url with
  | .error e => (.error e, files, none)
  | .ok (way, e) =>
    let (p, files) := way.create files e
    (p, files, if way.isBuiltin then none else some ⟨"publisher", e, cancelled⟩)

/-- Opens a subscriber, and tells which call that took. -/
def openSubscriber (r : Backends) (cancelled : Bool) (url : String) :
    Except Error Subscriber × Option OpenCall :=
  match Registry.resolve r.subscribers cancelled url with
  | .error e => (.error e, none)
  | .ok (way, e) =>
    (way.create e, if way.isBuiltin then none else some ⟨"subscriber", e, cancelled⟩)

end Backends

end PubSub
