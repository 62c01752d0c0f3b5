import PubSub.Proofs.Files.Held
import PubSub.Proofs.Files.Opened
import PubSub.Proofs.Publisher.Appending
import PubSub.Proofs.Publisher.Topics

/-!
# Logs whose writes fail

Writes to a file may stop after any number of their bytes. Whatever calls a log is given meanwhile,
the file of a topic holds whole records only: those that were in it, and those of the messages that
the calls have told as stored (`refusals_withstood`).
-/

namespace PubSub

open Files (OneName Makes)
open Record (Written logText)

namespace FileLog

/-- A call, and how writes fail while it runs. -/
structure Attempt where
  call : Call
  brake : (size count : Nat) → Option (Nat × SystemError)

def attempt (log : FileLog) (files : Files) (a : Attempt) : Step :=
  log.perform { files with brake := a.brake } a.call

/-- A log and its files after attempts. -/
def attempts (log : FileLog) (files : Files) : List Attempt → FileLog × Files
  | [] => (log, files)
  | a :: run => (log.attempt files a).log.attempts (log.attempt files a).files run

/-- The messages of a batch that are told as stored: all, or those before the one that is told to
have failed. -/
def toldStored (batch : List Message) : Except Error Unit → List Message
  | .ok () => batch
  | .error (.batch i _ _) => batch.take i
  | .error _ => []

/-- What a call tells to have stored at a path. -/
def Step.storedAt (s : Step) (path : Bytes) : Option (String × List Message) → List Message
  | some (topic, batch) =>
    if s.files.sameNode (s.log.path topic) path then toldStored batch s.result else []
  | none => []

/-- What attempts tell to have stored at a path, in their order. -/
def storedAt (log : FileLog) (files : Files) (path : Bytes) : List Attempt → List Message
  | [] => []
  | a :: run =>
    let s := log.attempt files a
    s.storedAt path a.call.batch? ++ s.log.storedAt s.files path run

variable {root p c : Bytes} {f f' : Files} {log : FileLog} {n : Nat} {topic : String}
  {batch : List Message} {asBatch : Bool} {a : Attempt}

theorem records_append (ms ms' : List Message) : records (ms ++ ms') = records ms ++ records ms' :=
  List.flatMap_append

/-! ## One call -/

/-- A call on an open log that writes to the file at a path: what it comes to, and what the path
holds afterwards. -/
theorem write_at (hs : Sound root log f) (hclosed : log.closed = false)
    (hfile : log.file f topic = (.ok n, f')) (hp : f'.locate p = .ok n) (h : f.HoldsAt p c)
    (batch : List Message) (asBatch : Bool) :
    let s := log.write f false topic batch asBatch
    match refusal? f.brake c.length batch with
    | none => s.result = .ok () ∧ s.files.HoldsAt p (c ++ records batch)
    | some (i, e) =>
      s.result = .error (if asBatch then .batch i batch.length (.system e) else .system e) ∧
        s.files.HoldsAt p (c ++ records (batch.take i)) := by
  intro s
  have hmakes := (hs.file_ok hfile).1
  have hn := (Files.holdsAt_file hp).1 (h.makes hmakes)
  have hcall : s = _ := (write_opened hclosed hfile batch asBatch).trans
    (appendTo_eq hn topic batch asBatch)
  rw [hmakes.brake] at hcall
  rw [hcall]
  cases refusal? f.brake c.length batch with
  | none => exact ⟨rfl, Files.holdsAt_rewritten hn hp _⟩
  | some r => exact ⟨rfl, Files.holdsAt_rewritten hn hp _⟩

/-- A call that fails before it appends leaves a path as it is, and tells nothing as stored. -/
theorem holdsAt_failed {s : Step} {e : Error} (h : f.HoldsAt p c) (hfiles : s.files = f)
    (hresult : s.result = .error e) (he : ∀ i t e', e ≠ .batch i t e') (topic : String)
    (batch : List Message) :
    s.files.HoldsAt p (c ++ records (s.storedAt p (some (topic, batch)))) := by
  have hnone : toldStored batch s.result = [] := by
    rw [hresult]
    cases e with
    | batch i t e' => exact absurd rfl (he i t e')
    | _ => rfl
  have hstored : s.storedAt p (some (topic, batch)) = [] := by
    rw [Step.storedAt, hnone]
    exact ite_self _
  rw [hstored, hfiles]
  simpa [records] using h

/-- What is appended to the file at a path is what is told as stored. -/
theorem holdsAt_appendTo (hp : f.locate p = .ok n) (hn : f.node? n = some (.file c)) (log : FileLog)
    (topic : String) (hone : asBatch = false → batch.length = 1) :
    let s := log.appendTo f n topic batch asBatch
    s.files.HoldsAt p (c ++ records (toldStored batch s.result)) := by
  intro s
  have hwritten : s = _ := appendTo_eq hn topic batch asBatch
  rw [hwritten]
  cases hr : refusal? f.brake c.length batch with
  | none => exact Files.holdsAt_rewritten hn hp _
  | some r =>
    cases asBatch with
    | true => exact Files.holdsAt_rewritten hn hp _
    | false =>
      -- a single message is refused itself, and nothing is before it
      obtain ⟨i, e⟩ := r
      have hi := refusal?_lt hr
      rw [hone rfl, Nat.lt_one_iff] at hi
      subst hi
      exact Files.holdsAt_rewritten hn hp _

/-- A path that is written to holds what it held, and behind it the records of what is told as
stored; a path that is not holds what it held. -/
theorem holdsAt_write (hs : Sound root log f) (h : f.HoldsAt p c) (cancelled : Bool)
    (topic : String) (hone : asBatch = false → batch.length = 1) :
    let s := log.write f cancelled topic batch asBatch
    s.files.HoldsAt p (c ++ records (s.storedAt p (some (topic, batch)))) := by
  intro s
  by_cases hcancelled : cancelled = true
  · have hcall : s = ⟨.error .cancelled, log, f, []⟩ := if_pos hcancelled
    exact holdsAt_failed h (by rw [hcall]) (by rw [hcall]) (by simp) topic batch
  by_cases hclosed : log.closed = true
  · have hcall : s = ⟨.error (.closed ("file topic " ++ Quoted.quote topic)), log, f, []⟩ :=
      (if_neg hcancelled).trans (if_pos hclosed)
    exact holdsAt_failed h (by rw [hcall]) (by rw [hcall]) (by simp) topic batch
  rw [Bool.not_eq_true] at hcancelled hclosed
  subst hcancelled
  cases hfile : log.file f topic with
  | mk opening f' =>
    cases opening with
    | error e =>
      have hcall : s = ⟨.error (.system e), log, f', []⟩ := by
        simp only [s, write, hclosed, hfile, Bool.false_eq_true, if_false]
      exact holdsAt_failed h (by rw [hcall, file_error hfile]) (by rw [hcall]) (by simp) topic batch
    | ok n =>
      let opened : FileLog := { log with openFiles := log.openFiles.insert topic n }
      have hcall : s = opened.appendTo f' n topic batch asBatch :=
        write_opened hclosed hfile batch asBatch
      have htouches := touches_appendTo opened f' n topic batch asBatch
      rw [← hcall] at htouches
      obtain ⟨hmakes, d, up, name, hentry⟩ := hs.file_ok hfile
      have htopic : s.files.locate (s.log.path topic) = .ok n := by
        rw [hcall, appendTo_log, ← hcall]
        exact (Files.locate_touches htouches _).trans hentry.locate
      have hsame : s.files.sameNode (s.log.path topic) p = true ↔ f'.locate p = .ok n := by
        rw [Files.sameNode_iff htopic, Files.locate_touches htouches p]
      have hheld := h.makes hmakes
      rw [Step.storedAt]
      by_cases hpn : f'.locate p = .ok n
      · rw [if_pos (hsame.2 hpn), hcall]
        exact holdsAt_appendTo hpn ((Files.holdsAt_file hpn).1 hheld) opened topic hone
      · rw [if_neg fun h => hpn (hsame.1 h)]
        simpa [records] using hheld.touches htouches hpn

theorem holdsAt_perform (hs : Sound root log f) (h : f.HoldsAt p c) (call : Call) :
    let s := log.perform f call
    s.files.HoldsAt p (c ++ records (s.storedAt p call.batch?)) := by
  cases call with
  | publish topic m cancelled => exact holdsAt_write hs h cancelled topic fun _ => rfl
  | publishBatch topic batch cancelled => exact holdsAt_write hs h cancelled topic (by simp)
  | close =>
    intro s
    have hsame : s.files = f := close_files log f
    rw [hsame]
    simpa [records, Step.storedAt, Call.batch?] using h

/-! ## Many calls -/

theorem Sound.braked (hs : Sound root log f)
    (brake : (size count : Nat) → Option (Nat × SystemError)) :
    Sound root log { f with brake := brake } := by
  have hgrows : Files.Grows f { f with brake := brake } :=
    ⟨rfl, fun he => ⟨[], by rw [List.append_nil]; exact he⟩⟩
  refine ⟨hs.root, ⟨hs.oneName.inside, hs.oneName.apart⟩, fun h => ?_⟩
  obtain ⟨d, up, name, hentry⟩ := hs.opened h
  exact ⟨d, up, name, hentry.grows hgrows⟩

theorem Sound.attempt (hs : Sound root log f) (a : Attempt) :
    Sound root (log.attempt f a).log (log.attempt f a).files :=
  (does_perform (hs.braked a.brake) a.call).sound (hs.braked a.brake)

theorem Sound.attempts (hs : Sound root log f) (run : List Attempt) :
    Sound root (log.attempts f run).1 (log.attempts f run).2 := by
  induction run generalizing log f with
  | nil => exact hs
  | cons a run ih => exact ih (hs.attempt a)

theorem holdsAt_attempts (hs : Sound root log f) (h : f.HoldsAt p c) (run : List Attempt) :
    (log.attempts f run).2.HoldsAt p (c ++ records (log.storedAt f p run)) := by
  induction run generalizing log f c with
  | nil => simpa [attempts, storedAt, records] using h
  | cons a run ih =>
    have hfirst := holdsAt_perform (hs.braked a.brake) h a.call
    have hrest := ih (hs.attempt a) hfirst
    rw [List.append_assoc, ← records_append] at hrest
    exact hrest

end FileLog

theorem eq_nil_of_logText {ys : List Written} (h : logText ys = []) : ys = [] := by
  cases ys with
  | nil => rfl
  | cons y ys =>
    have hlength := congrArg List.length h
    rw [logText, List.flatMap_cons, List.length_append, Written.line_length] at hlength
    cases Nat.eq_zero_of_add_eq_zero_right hlength

/-- Records that were written one after another are replayed as a whole. -/
theorem replay_lines {node : Nat} {w : World} {r : Subscribing} (ys : List Written)
    (hgate : r.gated = false) (hw : Undisturbed node (logText ys) r.options.governor w)
    (hh : r.handler.GoesOn (Undisturbed node (logText ys) r.options.governor)) :
    Bus.Ends Loop.act
      (fun b => b.handled = ys.map (·.message) ∧ b.outcome? = some (.ok ()) ∧
        Called r.options w [] b)
      (Bus.alone w (r.spawn (some (.start node)) (.replay .wait))) := by
  apply (replay_ends hgate hw (hh.spares.keeps hw [] _)).mono
  intro b hb
  have hread := Record.readAll_lines ys .start (s := logText ys) rfl
  have hall : replayed r.options r.handler [] (Record.stream .start (logText ys)) =
      ⟨(ys.map (·.message)).reverse, .ok (), [], []⟩ := by
    rw [Record.stream, replayed_continue hh.continues, List.append_nil, hread]
    rfl
  rw [hall] at hb
  exact hb.silent

open FileLog (Attempt refusal? records) in
/-- Whatever writes fail, and after however many bytes, a log leaves whole records. After any run of
calls on a log that was just opened, the file of a topic holds the records that were in it before,
and behind them those of the messages that the calls have told as stored, in their order. A further
call that writes to this file comes to just what its first refused record says, with the records
before that one in the file. A subscription to the topic is handed all these messages. -/
theorem refusals_withstood {f₀ f₁ : Files} {root : Bytes} {log : FileLog} (hf : OneName f₀)
    (hlog : FileLog.create f₀ root = (.ok log, f₁)) {topic : String} {xs : List Written}
    (hfile : f₁.HoldsAt (Path.join root (Utf8.ofText topic)) (logText xs)) (run : List Attempt) :
    let path := Path.join root (Utf8.ofText topic)
    let now := log.attempts f₁ run
    let ms := log.storedAt f₁ path run
    let content := logText (xs ++ ms.map Written.sorted)
    now.2.HoldsAt path content ∧
      (∀ t brake n f', now.1.closed = false →
        now.1.file { now.2 with brake := brake } t = (.ok n, f') → f'.locate path = .ok n →
        (∀ batch,
          let s := now.1.attempt now.2 ⟨.publishBatch t batch false, brake⟩
          match refusal? brake content.length batch with
          | none => s.result = .ok () ∧ s.files.HoldsAt path (content ++ records batch)
          | some (i, e) => s.result = .error (.batch i batch.length (.system e)) ∧
              s.files.HoldsAt path (content ++ records (batch.take i))) ∧
        ∀ m,
          let s := now.1.attempt now.2 ⟨.publish t m false, brake⟩
          match brake content.length (Record.line m).length with
          | none => s.result = .ok () ∧ s.files.HoldsAt path (content ++ Record.line m)
          | some (_, e) => s.result = .error (.system e) ∧ s.files.HoldsAt path content) ∧
      ∀ (r : Subscribing) (w : World), r.topic = topic → r.options.start ≠ some .newest →
        r.gated = false → w.isCancelled? r.options.governor = false →
        (∀ node c, r.handler.GoesOn (Undisturbed node c r.options.governor)) →
        (∀ e, now.2.locate path = .error e → e = .notFound) →
        ∃ sub, r.toFiles now.2 root = .ok sub ∧
          Bus.Ends Loop.act (fun b => b.handled = xs.map (·.message) ++ ms ∧
            b.outcome? = some (.ok ()) ∧ Called r.options w [] b)
            (Bus.alone { w with files := now.2 } sub) := by
  intro path now ms content
  have hcreated := FileLog.Sound.create hf hlog
  have hs := hcreated.attempts run
  have hnow : now.2.HoldsAt path content := by
    have hheld := FileLog.holdsAt_attempts hcreated hfile run
    have hcontent : content = logText xs ++ records ms := by
      rw [records_eq]
      exact List.flatMap_append
    rw [hcontent]
    exact hheld
  refine ⟨hnow, ?_, ?_⟩
  · intro t brake n f' hclosed hopened hpath
    have hcall := FileLog.write_at (hs.braked brake) hclosed hopened hpath hnow
    refine ⟨fun batch => hcall batch true, fun m => ?_⟩
    have hone := hcall [m] false
    have hline : records [m] = Record.line m := by simp [records]
    rw [FileLog.refusal?] at hone
    cases hb : brake content.length (Record.line m).length with
    | none =>
      simp only [hb, hline, FileLog.refusal?, Option.map_none] at hone
      exact hone
    | some r =>
      have hnothing : content ++ records ([m].take 0) = content := List.append_nil content
      simp only [hb, hnothing] at hone
      exact hone
  · rintro r w rfl hstart hgate hlive hh hwhere
    have hmessages : (xs ++ ms.map Written.sorted).map (·.message) = xs.map (·.message) ++ ms := by
      rw [List.map_append, List.map_map]
      exact congrArg (xs.map (·.message) ++ ·) (List.map_id ms)
    cases hp : now.2.locate path with
    | ok n =>
      have hn := (Files.holdsAt_file hp).1 hnow
      have hread : now.2.read n = .ok content := by rw [Files.read, hn]
      have hends := replay_lines (xs ++ ms.map Written.sorted) hgate
        (w := { w with files := now.2 }) ⟨hread, hlive⟩ (hh n content)
      rw [hmessages] at hends
      exact ⟨_, toFiles_found hstart hp, hends⟩
    | error e =>
      obtain rfl := hwhere e hp
      have hempty : content = [] := by
        rw [Files.HoldsAt, hp] at hnow
        exact hnow
      have hnil := eq_nil_of_logText hempty
      rw [← hmessages, hnil]
      refine ⟨_, toFiles_missing hstart hp, ?_⟩
      have hends := missing_ends (r := r) (w := { w with files := now.2 }) hlive
      refine hends.mono fun b hb => ?_
      change AllCameTo ⟨([] : List Message).reverse, .ok (), [], []⟩ w.told b at hb
      exact hb.silent

/-- Writes that stop after `k` bytes at the file of a size, and succeed elsewhere. -/
def FileLog.stopAt (size k : Nat) (length _count : Nat) : Option (Nat × SystemError) :=
  if length = size then some (k, .noSpace) else none

open FileLog (onH stopAt) in
/-- A message, a batch whose second record is stopped after five bytes, a message that is stopped
after its last byte, and another one. -/
theorem refusals_withstood_twice :
    let run : List FileLog.Attempt := [
      ⟨.publish "t" (.ofText "a") false, fun _ _ => none⟩,
      ⟨.publishBatch "t" [.ofText "b", .ofText "c", .ofText "d"] false, stopAt 32 5⟩,
      ⟨.publish "t" (.ofText "e") false, stopAt 32 16⟩,
      ⟨.publish "./t" (.ofText "f") false, fun _ _ => none⟩]
    let now := onH.attempts (.start [47, 104]) run
    ∃ sub, Subscribing.plain.toFiles now.2 [47, 104] = .ok sub ∧
      Bus.Ends Loop.act (fun b => b.handled = [.ofText "a", .ofText "b", .ofText "f"] ∧
        b.outcome? = some (.ok ()) ∧ Called Subscribing.plain.options (.start now.2) [] b)
        (Bus.alone (.start now.2) sub) := by
  intro run now
  have hopen : FileLog.create (.start [47, 104]) [47, 104] = (.ok onH, .start [47, 104]) := rfl
  have hnew : (Files.start [47, 104]).HoldsAt (Path.join [47, 104] (Utf8.ofText "t"))
      (logText []) := rfl
  obtain ⟨-, -, hreplay⟩ := refusals_withstood (Files.oneName_start [47, 104]) hopen hnew run
  have hthere : ∀ e, now.2.locate (Path.join [47, 104] (Utf8.ofText "t")) = .error e →
      e = .notFound := by
    intro e he
    have hnode : (now.2.locate (Path.join [47, 104] (Utf8.ofText "t"))).toOption = some 5 := by
      decide +kernel
    rw [he] at hnode
    cases hnode
  obtain ⟨sub, hsub, hends⟩ := hreplay .plain (.start now.2) rfl (by decide) rfl rfl
    (fun _ _ => Subscribing.plain_goesOn _) hthere
  have hms : onH.storedAt (.start [47, 104]) (Path.join [47, 104] (Utf8.ofText "t")) run =
      [.ofText "a", .ofText "b", .ofText "f"] := by
    decide +kernel
  rw [hms] at hends
  exact ⟨sub, hsub, hends⟩

end PubSub
