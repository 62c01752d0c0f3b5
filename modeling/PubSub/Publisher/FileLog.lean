import PubSub.Event
import PubSub.Files.Folders
import PubSub.Publisher.Batch
import PubSub.Record.Encode

/-!
# File logs

A publisher on a folder: each topic is a file of that name, to which every message is appended as
one record and a line feed. Files are opened when they are first written to and stay open until the
log is closed. A write that fails is cut back, so that the file ends with a complete record again.
-/

namespace PubSub

structure FileLog where
  root : Bytes
  /-- The open files by topic. -/
  openFiles : NameMap Nat
  closed : Bool
  /-- What the first closing came to. -/
  closing : Option (Except Error Unit)

namespace FileLog

/-- What a call on a log came to, and all that it changed. -/
structure Step where
  result : Except Error Unit
  log : FileLog
  files : Files
  events : List Event

/-- Opens a log in a folder, which is made if it is missing. -/
def create (files : Files) (root : Bytes) : Except Error FileLog × Files :=
  match files.makeFolders root with
  | (.ok (), files) => (.ok ⟨root, NameMap.empty, false, none⟩, files)
  | (.error e, files) => (.error (.system e), files)

def path (log : FileLog) (topic : String) : Bytes := Path.join log.root (Utf8.ofText topic)

/-- The file content of messages. -/
def records (ms : List Message) : Bytes := ms.flatMap Record.line

/-- The open file of a topic, which is opened if need be. -/
def file (log : FileLog) (files : Files) (topic : String) : Except SystemError Nat × Files :=
  match log.openFiles.get? topic with
  | some n => (.ok n, files)
  | none => files.openAppend (log.path topic)

/-- Appends records up to the first failure: how many were written, and what stopped them. -/
def appendRecords (files : Files) (n : Nat) :
    List Message → Nat × Option SystemError × Files
  | [] => (0, none, files)
  | m :: rest =>
    match files.append n (Record.line m) with
    | (.error e, files) => (0, some e, files)
    | (.ok (), files) =>
      let (written, e, files) := appendRecords files n rest
      (written + 1, e, files)

/-- Cuts a file back to a length. -/
def cutBack (files : Files) (n length : Nat) (topic : String) : Files × List Event :=
  match files.cut n length with
  | (.ok (), files) => (files, [])
  | (.error e, files) => (files, [.partialRecordKept topic e])

/-- Appends messages to an open file. -/
def appendTo (log : FileLog) (files : Files) (n : Nat) (topic : String) (batch : List Message)
    (asBatch : Bool) : Step :=
  let size := files.size n
  match appendRecords files n batch with
  | (_, none, files) => ⟨(files.sync n).mapError .system, log, files, []⟩
  | (written, some e, files) =>
    let (files, events) := cutBack files n (size + (records (batch.take written)).length) topic
    let e := Error.system e
    ⟨.error (if asBatch then .batch written batch.length e else e), log, files, events⟩

def write (log : FileLog) (files : Files) (cancelled : Bool) (topic : String)
    (batch : List Message) (asBatch : Bool) : Step :=
  if cancelled then ⟨.error .cancelled, log, files, []⟩
  else if log.closed then
    ⟨.error (.closed ("file topic " ++ Quoted.quote topic)), log, files, []⟩
  else
    match log.file files topic with
    | (.error e, files) => ⟨.error (.system e), log, files, []⟩
    | (.ok n, files) =>
      let log := { log with openFiles := log.openFiles.insert topic n }
      log.appendTo files n topic batch asBatch

def publish (log : FileLog) (files : Files) (cancelled : Bool) (topic : String) (m : Message) :
    Step :=
  log.write files cancelled topic [m] false

def publishBatch (log : FileLog) (files : Files) (cancelled : Bool) (topic : String)
    (batch : List Message) : Step :=
  log.write files cancelled topic batch true

/-- Secures all open files; the last failure is what the closing comes to. -/
def syncAll (files : Files) : List (String × Nat) → Except Error Unit × List Event
  | [] => (.ok (), [])
  | (topic, n) :: rest =>
    let (r, events) := syncAll files rest
    match files.sync n with
    | .ok () => (r, events)
    | .error e =>
      let e := Error.system e
      (if r.isOk then .error e else r, .closingFailed topic e :: events)

/-- Closes the log and all its files. Another closing comes to the same as the first. -/
def close (log : FileLog) (files : Files) : Step :=
  match log.closing with
  | some r => ⟨r, log, files, []⟩
  | none =>
    let (r, events) := syncAll files log.openFiles.entries
    ⟨r, { log with openFiles := NameMap.empty, closed := true, closing := some r }, files, events⟩

end FileLog

end PubSub
