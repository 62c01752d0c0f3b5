import PubSub.Backend
import PubSub.Bus.Settled
import PubSub.CommandLine.Arguments
import PubSub.Record.Encode
import PubSub.Subscription.Subscribe

/-!
# Running the command line

Publishing publishes all arguments as one batch; tailing prints the records of a topic until there
are no more or the limit is reached. A failure is reported with what it came from.
-/

namespace PubSub.CommandLine

structure Outcome where
  code : Nat
  stdout : Bytes
  stderr : String
  files : Files

/-! ## Reports -/

/-- The lines of a cause; after the first they are set in. -/
def setIn (lead rest cause : String) : String :=
  lead ++ ("\n" ++ rest).intercalate (cause.splitOn "\n")

/-- A failure and the causes it came from, numbered if there are several. -/
def report (failure : String) (causes : List String) : String :=
  let lines :=
    match causes with
    | [cause] => [setIn "    " "    " cause]
    | causes => causes.mapIdx fun i cause =>
      let number := toString i
      let pad := String.ofList (List.replicate (5 - number.length) ' ')
      setIn (pad ++ number ++ ": ") "       " cause
  "Error: " ++ failure ++ "\n\nCaused by:\n" ++ "\n".intercalate lines ++ "\n"

def failed (files : Files) (stdout : Bytes) (failure : String) (e : Error) : Outcome :=
  ⟨1, stdout, report failure (e.message :: e.sources), files⟩

/-! ## Commands -/

/-- The messages of the arguments, all with one identifier and one set of labels. -/
def messages (id : Option String) (attributes : List (String × String)) (data : List String) :
    List Message :=
  data.map fun d => ⟨id, Utf8.ofText d, NameMap.ofList attributes⟩

def publish (files : Files) (url topic : String) (ms : List Message) : Outcome :=
  match Backends.builtin.openPublisher files false url with
  | (.error e, files, _) => failed files [] ("open publisher for " ++ url) e
  | (.ok p, files, _) =>
    let published := p.publishBatch files false topic ms
    let closed := published.publisher.close published.files
    match published.result, closed.result with
    | .error e, _ => failed closed.files [] ("publish to " ++ topic) e
    | .ok (), .error e => failed closed.files [] "close publisher" e
    | .ok (), .ok () =>
      ⟨0, [], s!"Published {ms.length} message(s) to {topic}\n", closed.files⟩

/-- Goes on until a number of messages was handled. -/
def upTo (limit : Option Nat) : Handler := fun earlier _ =>
  ⟨[], .flow (if limit.any (· ≤ earlier.length + 1) then .done else .continue)⟩

def tail (files : Files) (url topic : String) (limit : Option Nat) (start : StartPosition) :
    Outcome :=
  match Backends.builtin.openSubscriber false url with
  | (.error e, _) => failed files [] ("open subscriber for " ++ url) e
  | (.ok source, _) =>
    let w := (World.start files).addSubscriber "source" source
    match Subscribing.toSubscriber ⟨topic, ⟨some start, none, false⟩, upTo limit, false⟩ w 0 with
    | .error e => failed files [] ("subscribe to " ++ topic) e
    | .ok s =>
      let b := (Bus.alone w s).settled
      let printed := b.handled.flatMap Record.line
      match b.outcome? with
      | some (.error e) =>
        if e.isCancelled then ⟨0, printed, "", b.world.files⟩
        else failed b.world.files printed ("tail " ++ topic) e
      | _ => ⟨0, printed, "", b.world.files⟩

def Invocation.run (files : Files) : Invocation → Outcome
  | .publish url topic id attributes data =>
    CommandLine.publish files url topic (messages id attributes data)
  | .tail url topic limit start => CommandLine.tail files url topic limit start

/-- The folder and the file that an invocation is about, if its URL names a folder. -/
def Invocation.paths? (i : Invocation) : Option (Bytes × Bytes) :=
  let (url, topic) :=
    match i with
    | .publish url topic _ _ _ => (url, topic)
    | .tail url topic _ _ => (url, topic)
  match Endpoint.parse url with
  | .error _ => none
  | .ok e =>
    if e.scheme = "file" then some (e.localPath, Path.join e.localPath (Utf8.ofText topic)) else none

/-- Runs a command line: help goes to the standard output, and what is wrong with the usage to the
standard error. -/
def run (files : Files) (args : List String) : Outcome :=
  match read args with
  | .ok i => i.run files
  | .error (.page p) => ⟨0, Utf8.ofText p.text, "", files⟩
  | .error (.usage e) => ⟨2, [], e.line, files⟩

end PubSub.CommandLine
