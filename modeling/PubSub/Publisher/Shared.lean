import PubSub.Publisher.FileLog

/-!
# File logs shared by tasks

Several tasks look up the topics of one log, write through the handles they got, and close the log.
A write holds the lock of its handle from the check whether the log is closed until it comes back.
The first closing marks the log as closed, takes all handles out of the cache, and then takes the
open file out of one handle after another, for which it needs the lock of that handle; other
closings wait for it. A run is a list of moves, in any order that the parties make them.
-/

namespace PubSub

/-- A call to write through a handle. The token is looked at once, when the call is made. -/
structure WriteCall where
  handle : Nat
  batch : List Message
  asBatch : Bool
  cancelled : Bool
  deriving DecidableEq, Repr

/-- A call with its number among the calls made. -/
structure WriteTurn where
  number : Nat
  call : WriteCall
  deriving DecidableEq, Repr

/-- How far a write has come that was given the lock of its handle. -/
inductive WriteStage where
  /-- Before the check whether the log is closed. -/
  | locked
  | opening
  /-- The file is open; its size is not yet known. -/
  | opened (node : Nat)
  /-- So many records were written to a file that had this size before. -/
  | appending (node size written : Nat)
  /-- The next record failed. -/
  | stopped (node size written : Nat) (error : SystemError)
  | securing (node : Nat)
  /-- All is done but to release the lock and come back. -/
  | leaving (result : Except Error Unit)
  deriving Repr

structure WriteVisit where
  turn : WriteTurn
  stage : WriteStage
  deriving Repr

/-- A handle to a topic. Its lock is held by one call at most. -/
structure LogHandle where
  topic : String
  /-- The open file. -/
  file : Option Nat
  visit : Option WriteVisit
  deriving Repr

/-- A call that came back. -/
structure WriteReturn where
  turn : WriteTurn
  topic : String
  result : Except Error Unit
  deriving Repr

/-- How far the first closing has come. Handles are given by topic and number. -/
inductive Closing where
  | idle
  /-- Before the log is marked as closed. -/
  | begun
  /-- Before the handles are taken out of the cache. -/
  | marked
  /-- These handles are left; the last failure so far is what the closing will come to. -/
  | emptying (left : List (String × Nat)) (result : Except Error Unit)
  /-- The file of a topic was taken out of its handle and is to be secured. -/
  | securing (topic : String) (node : Nat) (left : List (String × Nat)) (result : Except Error Unit)
  | over (result : Except Error Unit)
  deriving Repr

structure SharedLog where
  root : Bytes
  files : Files
  closed : Bool
  /-- The handles that lookups find, by their numbers. -/
  cache : TopicCache Nat
  /-- All handles that were made, also those that the cache no longer holds. -/
  handles : List LogHandle
  /-- Lookups that found no handle and are about to make it. -/
  missed : List String
  /-- How many calls to write were made. -/
  calls : Nat
  /-- Calls that wait for the lock of their handle. -/
  waiting : List WriteTurn
  /-- Calls that came back, the latest first. -/
  returned : List WriteReturn
  /-- The writes that were cut back, by handle and file, the latest first. -/
  cut : List (Nat × Nat)
  closing : Closing
  /-- How many calls to close have not come back. -/
  closers : Nat
  /-- What calls to close came back with, the latest first. -/
  told : List (Except Error Unit)
  events : List Event

/-- A move of one party. -/
inductive LogMove where
  /-- A lookup of a topic: the first look into the cache. -/
  | look (topic : String)
  /-- A lookup that found nothing, by its place, looks again and makes the handle if need be. -/
  | create (place : Nat)
  | call (c : WriteCall)
  /-- A waiting call, by its place, is given the lock of its handle if that is free. -/
  | enter (place : Nat)
  /-- The call that has the lock of a handle goes on by one stage. -/
  | advance (handle : Nat)
  | close
  /-- The first closing goes on; `place` is which handle comes next, as the cache has no order. -/
  | goOn (place : Nat)
  /-- A call to close comes back. -/
  | comeBack
  /-- From now on writes fail so. -/
  | brake (brake : (size count : Nat) → Option (Nat × SystemError))

/-! ## Writing -/

/-- What one stage of a write changes; `cut` is a file that was cut back. -/
structure WriteStep where
  file : Option Nat
  stage : WriteStage
  files : Files
  cut : Option Nat
  events : List Event

/-- The error of a write on a closed log. -/
def FileLog.closedError (topic : String) : Error :=
  .closed ("file topic " ++ Quoted.quote topic)

/-- The error of a write whose record number `written` failed. -/
def WriteCall.stopError (c : WriteCall) (written : Nat) (e : SystemError) : Error :=
  if c.asBatch then .batch written c.batch.length (.system e) else .system e

namespace LogHandle

def fresh (topic : String) : LogHandle := ⟨topic, none, none⟩

/-- The next stage of a call that has the lock of the handle. -/
def proceed (h : LogHandle) (path : Bytes) (closed : Bool) (files : Files) (c : WriteCall) :
    WriteStage → WriteStep
  | .locked =>
    if closed then ⟨h.file, .leaving (.error (FileLog.closedError h.topic)), files, none, []⟩
    else ⟨h.file, .opening, files, none, []⟩
  | .opening =>
    match h.file with
    | some n => ⟨some n, .opened n, files, none, []⟩
    | none =>
      match files.openAppend path with
      | (.error e, files) => ⟨none, .leaving (.error (.system e)), files, none, []⟩
      | (.ok n, files) => ⟨some n, .opened n, files, none, []⟩
  | .opened n => ⟨h.file, .appending n (files.size n) 0, files, none, []⟩
  | .appending n size written =>
    match c.batch[written]? with
    | none => ⟨h.file, .securing n, files, none, []⟩
    | some m =>
      match files.append n (Record.line m) with
      | (.error e, files) => ⟨h.file, .stopped n size written e, files, none, []⟩
      | (.ok (), files) => ⟨h.file, .appending n size (written + 1), files, none, []⟩
  | .stopped n size written e =>
    let length := size + (FileLog.records (c.batch.take written)).length
    let (files, events) := FileLog.cutBack files n length h.topic
    ⟨h.file, .leaving (.error (c.stopError written e)), files, some n, events⟩
  | .securing n => ⟨h.file, .leaving ((files.sync n).mapError .system), files, none, []⟩
  | .leaving result => ⟨h.file, .leaving result, files, none, []⟩

end LogHandle

namespace SharedLog

/-- A log that was just opened. -/
def start (root : Bytes) (files : Files) : SharedLog :=
  ⟨root, files, false, TopicCache.empty, [], [], 0, [], [], [], .idle, 0, [], []⟩

def path (d : SharedLog) (topic : String) : Bytes := Path.join d.root (Utf8.ofText topic)

/-- A call is made through a handle that is there. -/
def begin (d : SharedLog) (topic : String) (c : WriteCall) : SharedLog :=
  let turn := ⟨d.calls, c⟩
  let d := { d with calls := d.calls + 1 }
  if c.cancelled then { d with returned := ⟨turn, topic, .error .cancelled⟩ :: d.returned }
  else { d with waiting := d.waiting ++ [turn] }

/-- The call that has the lock of handle `i` goes on. -/
def advance (d : SharedLog) (i : Nat) (h : LogHandle) (turn : WriteTurn) : WriteStage → SharedLog
  | .leaving result =>
    { d with
      handles := d.handles.set i { h with visit := none }
      returned := ⟨turn, h.topic, result⟩ :: d.returned }
  | stage =>
    let s := h.proceed (d.path h.topic) d.closed d.files turn.call stage
    { d with
      files := s.files
      handles := d.handles.set i { h with file := s.file, visit := some ⟨turn, s.stage⟩ }
      cut := (s.cut.map fun n => (i, n)).toList ++ d.cut
      events := d.events ++ s.events }

/-- The first closing goes on. -/
def goOn (d : SharedLog) (place : Nat) : SharedLog :=
  match d.closing with
  | .idle | .over _ => d
  | .begun => { d with closed := true, closing := .marked }
  | .marked =>
    let (left, cache) := d.cache.drain
    { d with cache := cache, closing := .emptying left (.ok ()) }
  | .emptying [] result => { d with closing := .over result }
  | .emptying left result =>
    match left[place]? with
    | none => d
    | some (topic, i) =>
      match d.handles[i]? with
      | some ⟨name, file, none⟩ =>
        let left := left.eraseIdx place
        { d with
          handles := d.handles.set i ⟨name, none, none⟩
          closing := file.elim (.emptying left result) fun n => .securing topic n left result }
      | _ => d
  | .securing topic n left result =>
    match d.files.sync n with
    | .ok () => { d with closing := .emptying left result }
    | .error e =>
      { d with
        closing := .emptying left (.error (.system e))
        events := d.events ++ [.closingFailed topic (.system e)] }

/-- One move; it changes nothing when its party cannot make it. -/
def move (d : SharedLog) : LogMove → SharedLog
  | .look topic =>
    match d.cache.get? topic with
    | some _ => d
    | none => { d with missed := d.missed ++ [topic] }
  | .create place =>
    match d.missed[place]? with
    | none => d
    | some topic =>
      let d := { d with missed := d.missed.eraseIdx place }
      match d.cache.get? topic with
      | some _ => d
      | none =>
        { d with
          cache := (d.cache.settle topic (.ok d.handles.length)).2
          handles := d.handles ++ [.fresh topic] }
  | .call c =>
    match d.handles[c.handle]? with
    | none => d
    | some h => d.begin h.topic c
  | .enter place =>
    match d.waiting[place]? with
    | none => d
    | some turn =>
      match d.handles[turn.call.handle]? with
      | some ⟨topic, file, none⟩ =>
        { d with
          waiting := d.waiting.eraseIdx place
          handles := d.handles.set turn.call.handle ⟨topic, file, some ⟨turn, .locked⟩⟩ }
      | _ => d
  | .advance i =>
    match d.handles[i]? with
    | some ⟨topic, file, some ⟨turn, stage⟩⟩ =>
      d.advance i ⟨topic, file, some ⟨turn, stage⟩⟩ turn stage
    | _ => d
  | .close =>
    { d with
      closing := match d.closing with
        | .idle => .begun
        | c => c
      closers := d.closers + 1 }
  | .goOn place => d.goOn place
  | .comeBack =>
    match d.closing, d.closers with
    | .over result, closers + 1 => { d with closers := closers, told := result :: d.told }
    | _, _ => d
  | .brake brake => { d with files := { d.files with brake := brake } }

def run (d : SharedLog) (moves : List LogMove) : SharedLog := moves.foldl move d

end SharedLog

end PubSub
