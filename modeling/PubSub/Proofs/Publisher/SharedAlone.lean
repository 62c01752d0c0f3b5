import PubSub.Proofs.Publisher.Closed
import PubSub.Proofs.Publisher.Topics

/-!
# One call at a time

A shared log of which the calls are made one after another is a log: each call, left alone, comes to
what `FileLog.perform` says (`perform_alone`), so that every run of a log is one of a shared log
(`performAll_alone`).
-/

namespace PubSub

open FileLog (appendRecords)

namespace SharedLog

/-- Nobody is at work, and the handles have open what the log has open. -/
structure Matches (d : SharedLog) (log : FileLog) : Prop where
  root : d.root = log.root
  closed : d.closed = log.closed
  closing : d.closing = match log.closing with
    | none => .idle
    | some result => .over result
  free : ∀ (i : Nat) (h : LogHandle), d.handles[i]? = some h → h.visit = none
  opened : ∀ topic : String, log.openFiles.get? topic =
    (d.cache.get? topic).bind fun i => d.handles[i]?.bind (·.file)

variable {d : SharedLog} {log : FileLog} {i n : Nat} {h : LogHandle} {turn : WriteTurn}
  {topic : String}

/-! ## A write -/

/-- The log while the call that has the lock of a handle has come to a stage. -/
def during (d : SharedLog) (i : Nat) (h : LogHandle) (turn : WriteTurn) (s : WriteStep) :
    SharedLog :=
  { d with
    files := s.files
    handles := d.handles.set i { h with file := s.file, visit := some ⟨turn, s.stage⟩ }
    cut := (s.cut.map fun n => (i, n)).toList ++ d.cut
    events := d.events ++ s.events }

/-- The log after the call has come back, with what it came to. -/
def after (d : SharedLog) (i : Nat) (h : LogHandle) (turn : WriteTurn) (file cut : Option Nat)
    (s : FileLog.Step) : SharedLog :=
  { d with
    files := s.files
    handles := d.handles.set i { h with file := file, visit := none }
    returned := ⟨turn, h.topic, s.result⟩ :: d.returned
    cut := (cut.map fun n => (i, n)).toList ++ d.cut
    events := d.events ++ s.events }

/-- A party makes its move some number of times. -/
def Goes (m : LogMove) (d d' : SharedLog) : Prop := ∃ n, d.run (List.replicate n m) = d'

theorem Goes.refl (m : LogMove) (d : SharedLog) : Goes m d d := ⟨0, rfl⟩

theorem Goes.step {m : LogMove} {d' d'' : SharedLog} (first : d.move m = d')
    (rest : Goes m d' d'') : Goes m d d'' := by
  obtain ⟨n, rest⟩ := rest
  refine ⟨n + 1, ?_⟩
  rw [List.replicate_succ, run, List.foldl_cons, first]
  exact rest

theorem Goes.trans {m : LogMove} {d' d'' : SharedLog} (h : Goes m d d') (h' : Goes m d' d'') :
    Goes m d d'' := by
  obtain ⟨n, rfl⟩ := h
  obtain ⟨k, rfl⟩ := h'
  refine ⟨n + k, ?_⟩
  rw [List.replicate_add, run, List.foldl_append]
  rfl

theorem during_handle (there : d.handles[i]? = some h) (turn : WriteTurn) (s : WriteStep) :
    (d.during i h turn s).handles[i]? = some ⟨h.topic, s.file, some ⟨turn, s.stage⟩⟩ := by
  change (d.handles.set i _)[i]? = _
  rw [List.getElem?_set_self', there]
  rfl

/-- One stage, after which the others see no change but in the files. -/
theorem during_advance (there : d.handles[i]? = some h) (turn : WriteTurn) (file : Option Nat)
    (f : Files) {stage : WriteStage} (stays : ∀ result, stage ≠ .leaving result) :
    (d.during i h turn ⟨file, stage, f, none, []⟩).move (.advance i) =
      d.during i h turn
        (LogHandle.proceed { h with file := file } (d.path h.topic) d.closed f turn.call
          stage) := by
  have seat := during_handle there turn ⟨file, stage, f, none, []⟩
  simp only [move, seat]
  cases stage with
  | leaving result => exact absurd rfl (stays result)
  | _ => simp only [advance, during, LogHandle.proceed, List.set_set, List.append_nil]; rfl

theorem during_leave (there : d.handles[i]? = some h) (s : WriteStep) {result : Except Error Unit}
    (leaving : s.stage = .leaving result) :
    Goes (.advance i) (d.during i h turn s)
      (d.after i h turn s.file s.cut ⟨result, log, s.files, s.events⟩) := by
  refine .step ?_ (.refl _ _)
  have seat := during_handle there turn s
  rw [leaving] at seat
  simp only [move, seat]
  simp only [advance, during, after, List.set_set]

/-- The records of a batch, from one of them on. -/
theorem during_appends (there : d.handles[i]? = some h) (file : Option Nat) (n size : Nat)
    (rest : List Message) (written : Nat) (left : turn.call.batch.drop written = rest) (f : Files) :
    Goes (.advance i) (d.during i h turn ⟨file, .appending n size written, f, none, []⟩)
      (d.during i h turn ⟨file,
        match (appendRecords f n rest).2.1 with
        | none => .securing n
        | some e => .stopped n size (written + (appendRecords f n rest).1) e,
        (appendRecords f n rest).2.2, none, []⟩) := by
  induction rest generalizing written f with
  | nil =>
    have ended : turn.call.batch[written]? = none :=
      List.getElem?_eq_none (List.drop_eq_nil_iff.1 left)
    refine .step (during_advance there turn _ _ (by simp)) ?_
    rw [LogHandle.proceed, ended]
    exact .refl _ _
  | cons m rest ih =>
    have next : turn.call.batch[written]? = some m := by
      rw [← List.head?_drop, left]
      rfl
    refine .step (during_advance there turn _ _ (by simp)) ?_
    rw [LogHandle.proceed, next]
    cases appended : f.append n (Record.line m) with
    | mk r f' =>
      cases r with
      | error e =>
        simp only [appended, appendRecords]
        exact .refl _ _
      | ok u =>
        have left' : turn.call.batch.drop (written + 1) = rest := by
          rw [← List.drop_drop, left]
          rfl
        have later := ih (written + 1) left' f'
        simp only [appended, appendRecords]
        rw [Nat.add_assoc, Nat.add_comm 1] at later
        exact later

/-- A write to an open file comes to what `FileLog.appendTo` says. -/
theorem goes_appendTo (log : FileLog) (there : d.handles[i]? = some h) (turn : WriteTurn)
    (file : Option Nat) (n : Nat) (f : Files) :
    ∃ cut, Goes (.advance i) (d.during i h turn ⟨file, .opened n, f, none, []⟩)
      (d.after i h turn file cut
        (log.appendTo f n h.topic turn.call.batch turn.call.asBatch)) := by
  have appends := during_appends there file n (f.size n) turn.call.batch 0 rfl f
  have opened : Goes (.advance i) (d.during i h turn ⟨file, .opened n, f, none, []⟩) _ :=
    .step (during_advance there turn _ _ (by simp)) appends
  rw [FileLog.appendTo]
  cases happend : appendRecords f n turn.call.batch with
  | mk written r =>
    obtain ⟨stopped, f'⟩ := r
    rw [happend] at opened
    cases stopped with
    | none =>
      refine ⟨none, opened.trans (.step (during_advance there turn _ _ (by simp)) ?_)⟩
      exact during_leave there _ rfl
    | some e =>
      refine ⟨some n, opened.trans (.step (during_advance there turn _ _ (by simp)) ?_)⟩
      rw [Nat.zero_add]
      exact during_leave there _ rfl

/-- A write with a live token: what it comes to, and what it leaves open. -/
theorem goes_write (alone : d.Matches log) (there : d.handles[i]? = some h)
    (opened : d.closed = false → log.openFiles.get? h.topic = h.file) (turn : WriteTurn) :
    let s := log.write d.files false h.topic turn.call.batch turn.call.asBatch
    ∃ file cut, Goes (.advance i) (d.during i h turn ⟨h.file, .locked, d.files, none, []⟩)
        (d.after i h turn file cut s) ∧
      (s.log = log ∧ file = h.file ∨ d.closed = false ∧ ∃ n, file = some n ∧
        s.log = { log with openFiles := log.openFiles.insert h.topic n }) := by
  have first := during_advance there turn h.file d.files
    (show ∀ result, WriteStage.locked ≠ .leaving result by simp)
  rw [FileLog.write, if_neg Bool.false_ne_true]
  cases closed : d.closed with
  | true =>
    rw [if_pos (alone.closed.symm.trans closed)]
    refine ⟨h.file, none, .step first ?_, .inl ⟨rfl, rfl⟩⟩
    rw [LogHandle.proceed, if_pos closed]
    exact during_leave there _ rfl
  | false =>
    have live : ¬ log.closed = true := by rw [← alone.closed, closed]; exact Bool.false_ne_true
    have admitted : Goes (.advance i) (d.during i h turn ⟨h.file, .locked, d.files, none, []⟩)
        (d.during i h turn ⟨h.file, .opening, d.files, none, []⟩) := by
      refine .step first ?_
      rw [LogHandle.proceed, if_neg (by rw [closed]; exact Bool.false_ne_true)]
      exact .refl _ _
    have second := during_advance there turn h.file d.files
      (show ∀ result, WriteStage.opening ≠ .leaving result by simp)
    have path : d.path h.topic = log.path h.topic := by
      rw [SharedLog.path, FileLog.path, alone.root]
    rw [if_neg live, FileLog.file, opened closed]
    cases file : h.file with
    | some n =>
      rw [file] at admitted second
      obtain ⟨cut, wrote⟩ := goes_appendTo
        { log with openFiles := log.openFiles.insert h.topic n } there turn (some n) n d.files
      refine ⟨some n, cut, admitted.trans (.step second wrote), .inr ⟨rfl, n, rfl, ?_⟩⟩
      exact FileLog.appendTo_log _ _ _ _ _ _
    | none =>
      rw [file, LogHandle.proceed, path] at second
      rw [file] at admitted
      cases openedFile : d.files.openAppend (log.path h.topic) with
      | mk r f =>
        simp only [openedFile] at second
        cases r with
        | error e =>
          exact ⟨none, none, admitted.trans (.step second (during_leave there _ rfl)),
            .inl ⟨rfl, rfl⟩⟩
        | ok n =>
          obtain ⟨cut, wrote⟩ := goes_appendTo
            { log with openFiles := log.openFiles.insert h.topic n } there turn (some n) n f
          refine ⟨some n, cut, admitted.trans (.step second wrote), .inr ⟨rfl, n, rfl, ?_⟩⟩
          exact FileLog.appendTo_log _ _ _ _ _ _

/-- One handle has changed what it has open, as the log has. -/
theorem Matches.write (alone : d.Matches log) (guarded : d.Guarded) (anchored : d.Anchored)
    (there : d.handles[i]? = some h) {d' : SharedLog} {log' : FileLog} {file : Option Nat}
    (root : d'.root = d.root) (closed : d'.closed = d.closed) (closing : d'.closing = d.closing)
    (cache : d'.cache = d.cache)
    (handles : d'.handles = d.handles.set i { h with file := file, visit := none })
    (opens : log' = log ∧ file = h.file ∨ d.closed = false ∧ ∃ n, file = some n ∧
      log' = { log with openFiles := log.openFiles.insert h.topic n }) : d'.Matches log' := by
  have free : ∀ (j : Nat) (x : LogHandle), d'.handles[j]? = some x → x.visit = none := by
    intro j x hx
    rw [handles] at hx
    rcases getElem?_set_cases hx with ⟨-, rfl⟩ | ⟨-, hx⟩
    · rfl
    · exact alone.free j x hx
  rcases opens with ⟨rfl, rfl⟩ | ⟨live, n, rfl, rfl⟩
  · have same : d'.handles = d.handles := by
      have vacant := alone.free i h there
      obtain ⟨bound, rfl⟩ := List.getElem?_eq_some_iff.1 there
      rw [handles, ← vacant]
      exact List.set_getElem_self bound
    refine ⟨root.trans alone.root, closed.trans alone.closed, closing.trans alone.closing, free, ?_⟩
    rw [cache, same]
    exact alone.opened
  · refine ⟨root.trans alone.root, closed.trans alone.closed, closing.trans alone.closing, free,
      fun topic => ?_⟩
    have cached := guarded.cached (guarded.undrained live) i h there
    rw [NameMap.get?_insert, cache, handles]
    by_cases same : topic = h.topic
    · subst same
      rw [if_pos rfl, cached, Option.bind_some, List.getElem?_set_self', there]
      rfl
    · rw [if_neg same, alone.opened]
      cases found : d.cache.get? topic with
      | none => rfl
      | some j =>
        obtain ⟨x, hx, named⟩ := anchored.cached topic j found
        have apart : i ≠ j := by
          rintro rfl
          rw [there] at hx
          cases hx
          exact same named.symm
        rw [Option.bind_some, Option.bind_some, List.getElem?_set_ne apart]

/-- A call that was left alone has changed what the log says. -/
structure Did (d d' : SharedLog) (s : FileLog.Step) : Prop where
  files : d'.files = s.files
  events : d'.events = d.events ++ s.events
  log : d'.Matches s.log

/-- A write that is left alone. -/
theorem write_alone (alone : d.Matches log) (guarded : d.Guarded) (anchored : d.Anchored)
    (c : WriteCall) (there : d.handles[c.handle]? = some h) :
    let s := log.write d.files c.cancelled h.topic c.batch c.asBatch
    ∃ moves, Did d (d.run moves) s ∧
      (d.run moves).returned = ⟨⟨d.calls, c⟩, h.topic, s.result⟩ :: d.returned := by
  cases token : c.cancelled with
  | true =>
    have moved : d.run [.call c] =
        { d with
          calls := d.calls + 1
          returned := ⟨⟨d.calls, c⟩, h.topic, .error .cancelled⟩ :: d.returned } := by
      simp only [run, List.foldl_cons, List.foldl_nil, move, there, begin, token, if_true]
    refine ⟨[.call c], ?_, ?_⟩
    · rw [moved]
      exact ⟨rfl, (List.append_nil _).symm, alone.root, alone.closed, alone.closing, alone.free,
        alone.opened⟩
    · rw [moved]
      rfl
  | false =>
    let d₁ : SharedLog := { d with calls := d.calls + 1 }
    have alone₁ : d₁.Matches log :=
      ⟨alone.root, alone.closed, alone.closing, alone.free, alone.opened⟩
    have opened : d₁.closed = false → log.openFiles.get? h.topic = h.file := by
      intro live
      rw [alone.opened, guarded.cached (guarded.undrained live) _ h there, Option.bind_some, there]
      rfl
    obtain ⟨file, cut, ⟨n, wrote⟩, opens⟩ := goes_write alone₁ there opened ⟨d.calls, c⟩
    have entered : d.run [.call c, .enter d.waiting.length] =
        d₁.during c.handle h ⟨d.calls, c⟩ ⟨h.file, .locked, d.files, none, []⟩ := by
      have vacant := alone.free _ h there
      obtain ⟨topic, file, visit⟩ := h
      simp only at vacant
      subst vacant
      have last : (d.waiting ++ [(⟨d.calls, c⟩ : WriteTurn)])[d.waiting.length]? =
          some ⟨d.calls, c⟩ := by simp
      have taken : (d.waiting ++ [(⟨d.calls, c⟩ : WriteTurn)]).eraseIdx d.waiting.length =
          d.waiting := by
        rw [List.eraseIdx_append_of_length_le (Nat.le_refl _)]
        simp
      simp only [run, List.foldl_cons, List.foldl_nil, move, there, begin, token,
        Bool.false_eq_true, if_false, last, taken, during, List.append_nil]
      rfl
    refine ⟨[.call c, .enter d.waiting.length] ++ List.replicate n (.advance c.handle), ?_⟩
    have came : d.run ([.call c, .enter d.waiting.length] ++ List.replicate n (.advance c.handle)) =
        d₁.after c.handle h ⟨d.calls, c⟩ file cut
          (log.write d.files false h.topic c.batch c.asBatch) := by
      rw [run, List.foldl_append]
      exact (congrArg (fun d => run d (List.replicate n (.advance c.handle))) entered).trans wrote
    rw [came]
    exact ⟨⟨rfl, rfl, alone.write guarded anchored there rfl rfl rfl rfl rfl opens⟩, rfl⟩

/-! ## A lookup and a closing -/

/-- After a lookup that is left alone there is a handle to the topic. -/
theorem lookup_alone (alone : d.Matches log) (anchored : d.Anchored) (topic : String) :
    ∃ moves : List LogMove,
      d.run moves = { d with cache := (d.run moves).cache, handles := (d.run moves).handles } ∧
      (d.run moves).Matches log ∧
      ∃ (i : Nat) (h : LogHandle), (d.run moves).handles[i]? = some h ∧ h.topic = topic := by
  cases found : d.cache.get? topic with
  | some i =>
    obtain ⟨h, there, named⟩ := anchored.cached topic i found
    exact ⟨[], rfl, alone, i, h, there, named⟩
  | none =>
    have last : (d.missed ++ [topic])[d.missed.length]? = some topic := by simp
    have taken : (d.missed ++ [topic]).eraseIdx d.missed.length = d.missed := by
      rw [List.eraseIdx_append_of_length_le (Nat.le_refl _)]
      simp
    have settled : d.cache.settle topic (.ok d.handles.length) =
        (.ok d.handles.length,
          ⟨d.cache.held.insert topic d.handles.length, d.cache.poisoned⟩) := by
      rw [TopicCache.settle, show d.cache.held.get? topic = none from found]
    have made : d.run [.look topic, .create d.missed.length] =
        { d with
          cache := ⟨d.cache.held.insert topic d.handles.length, d.cache.poisoned⟩
          handles := d.handles ++ [.fresh topic] } := by
      simp only [run, List.foldl_cons, List.foldl_nil, move, found, last, taken, settled]
    refine ⟨[.look topic, .create d.missed.length], ?_⟩
    rw [made]
    refine ⟨rfl, ⟨alone.root, alone.closed, alone.closing, fun i h there => ?_, fun t => ?_⟩,
      d.handles.length, .fresh topic, by simp, rfl⟩
    · rcases getElem?_snoc_cases there with there | ⟨-, rfl⟩
      · exact alone.free i h there
      · rfl
    · rw [alone.opened]
      simp only [TopicCache.get?, NameMap.get?_insert]
      by_cases same : t = topic
      · rw [if_pos same, same, show d.cache.held.get? topic = none from found]
        simp [LogHandle.fresh]
      · rw [if_neg same]
        cases cached : d.cache.held.get? t with
        | none => rfl
        | some i =>
          obtain ⟨h, there, -⟩ := anchored.cached t i cached
          rw [Option.bind_some, Option.bind_some,
            List.getElem?_append_left (List.getElem?_eq_some_iff.1 there).1]

/-- The last failure, if there is one. -/
def lastFailure (first later : Except Error Unit) : Except Error Unit :=
  if later.isOk then first else later

theorem lastFailure_assoc (r r' r'' : Except Error Unit) :
    lastFailure (lastFailure r r') r'' = lastFailure r (lastFailure r' r'') := by
  cases r'' <;> rfl

theorem lastFailure_ok (r : Except Error Unit) : lastFailure (.ok ()) r = r := by
  cases r <;> rfl

theorem syncAll_append (f : Files) (first later : List (String × Nat)) :
    FileLog.syncAll f (first ++ later) =
      (lastFailure (FileLog.syncAll f first).1 (FileLog.syncAll f later).1,
        (FileLog.syncAll f first).2 ++ (FileLog.syncAll f later).2) := by
  induction first with
  | nil =>
    rw [FileLog.syncAll, lastFailure_ok]
    rfl
  | cons e first ih =>
    obtain ⟨topic, n⟩ := e
    rw [List.cons_append, FileLog.syncAll, FileLog.syncAll, ih]
    cases f.sync n with
    | ok u => rfl
    | error e =>
      have failed : ∀ r : Except Error Unit,
          (if r.isOk then Except.error (Error.system e) else r) =
            lastFailure (.error (.system e)) r := fun _ => rfl
      simp only [failed, ← lastFailure_assoc, List.cons_append]

/-- The open files among the handles of some entries. -/
def openEntries (handles : List LogHandle) (left : List (String × Nat)) : List (String × Nat) :=
  left.filterMap fun e => (handles[e.2]?.bind (·.file)).map fun n => (e.1, n)

theorem openEntries_set {handles : List LogHandle} {left : List (String × Nat)} (x : LogHandle)
    (others : ∀ e ∈ left, e.2 ≠ i) :
    openEntries (handles.set i x) left = openEntries handles left := by
  refine List.filterMap_congr fun e he => ?_
  rw [List.getElem?_set_ne (others e he).symm]

/-- The closing takes what is open out of one handle, and secures it. -/
theorem goes_take {left : List (String × Nat)} {result : Except Error Unit}
    (closing : d.closing = .emptying ((topic, i) :: left) result) (there : d.handles[i]? = some h)
    (vacant : h.visit = none) :
    let r := FileLog.syncAll d.files (openEntries d.handles [(topic, i)])
    Goes (.goOn 0) d
      { d with
        handles := d.handles.set i { h with file := none }
        closing := .emptying left (lastFailure result r.1)
        events := d.events ++ r.2 } := by
  obtain ⟨name, file, visit⟩ := h
  simp only at vacant
  subst vacant
  have entries : openEntries d.handles [(topic, i)] = (file.map fun n => (topic, n)).toList := by
    rw [openEntries, List.filterMap_cons, there, Option.bind_some]
    cases file <;> rfl
  rw [entries]
  cases file with
  | none =>
    refine .step ?_ (.refl _ _)
    simp only [move, goOn, closing, List.getElem?_cons_zero, there, List.eraseIdx_cons_zero,
      Option.map_none, Option.toList_none, FileLog.syncAll, List.append_nil]
    rfl
  | some n =>
    have taken : d.move (.goOn 0) =
        { d with
          handles := d.handles.set i ⟨name, none, none⟩
          closing := .securing topic n left result } := by
      simp only [move, goOn, closing, List.getElem?_cons_zero, there, List.eraseIdx_cons_zero]
      rfl
    refine .step taken (.step ?_ (.refl _ _))
    rw [Option.map_some, Option.toList_some, FileLog.syncAll, FileLog.syncAll]
    cases secured : d.files.sync n with
    | ok u =>
      simp only [move, goOn, secured, List.append_nil]
      rfl
    | error e =>
      simp only [move, goOn, secured]
      rfl

/-- The closing empties the handles that are left in their order, and secures what was open in them
as `FileLog.syncAll` does. -/
theorem goes_over (left : List (String × Nat)) (result : Except Error Unit)
    (closing : d.closing = .emptying left result)
    (free : ∀ (i : Nat) (h : LogHandle), d.handles[i]? = some h → h.visit = none)
    (there : ∀ e ∈ left, ∃ h, d.handles[e.2]? = some h ∧ h.topic = e.1)
    (apart : (left.map (·.1)).Nodup) :
    let r := FileLog.syncAll d.files (openEntries d.handles left)
    ∃ handles, Goes (.goOn 0) d
        { d with
          handles := handles
          closing := .over (lastFailure result r.1)
          events := d.events ++ r.2 } ∧
      ∀ (i : Nat) (h : LogHandle), handles[i]? = some h → h.visit = none := by
  induction left generalizing d result with
  | nil =>
    refine ⟨d.handles, .step ?_ (.refl _ _), free⟩
    simp only [move, goOn, closing, openEntries, List.filterMap_nil, FileLog.syncAll,
      List.append_nil]
    rfl
  | cons e left ih =>
    obtain ⟨topic, i⟩ := e
    obtain ⟨h, seat, named⟩ := there (topic, i) List.mem_cons_self
    rw [List.map_cons, List.nodup_cons] at apart
    have vacant := free i h seat
    -- the handles of the other topics are others
    have others : ∀ e ∈ left, e.2 ≠ i := by
      intro e he same
      obtain ⟨h', seat', named'⟩ := there e (List.mem_cons_of_mem _ he)
      rw [same, seat] at seat'
      cases seat'
      exact apart.1 (List.mem_map.2 ⟨e, he, named'.symm.trans named⟩)
    have free' : ∀ (j : Nat) (x : LogHandle),
        (d.handles.set i { h with file := none })[j]? = some x → x.visit = none := by
      intro j x hx
      rcases getElem?_set_cases hx with ⟨-, rfl⟩ | ⟨-, hx⟩
      · exact vacant
      · exact free j x hx
    have there' : ∀ e ∈ left, ∃ x, (d.handles.set i { h with file := none })[e.2]? = some x ∧
        x.topic = e.1 := by
      intro e he
      obtain ⟨x, hx, named'⟩ := there e (List.mem_cons_of_mem _ he)
      exact ⟨x, by rw [List.getElem?_set_ne (others e he).symm]; exact hx, named'⟩
    have first := goes_take closing seat vacant
    let r := FileLog.syncAll d.files (openEntries d.handles [(topic, i)])
    obtain ⟨handles, rest, free''⟩ := @ih
      { d with
        handles := d.handles.set i { h with file := none }
        closing := .emptying left (lastFailure result r.1)
        events := d.events ++ r.2 } _ rfl free' there' apart.2
    have entries : openEntries d.handles ((topic, i) :: left) =
        openEntries d.handles [(topic, i)] ++ openEntries d.handles left :=
      List.filterMap_append (l := [(topic, i)])
    refine ⟨handles, first.trans ?_, free''⟩
    simp only [openEntries_set _ others, lastFailure_assoc, List.append_assoc] at rest
    rw [entries, syncAll_append]
    exact rest

/-- What the log has open are the open files of the handles in the cache. -/
theorem openEntries_cache (alone : d.Matches log) :
    openEntries d.handles d.cache.held.entries = log.openFiles.entries := by
  have names : (openEntries d.handles d.cache.held.entries).Pairwise fun a b => a.1 < b.1 := by
    refine List.Pairwise.filterMap _ (fun a b hab x hx y hy => ?_) d.cache.held.sorted
    obtain ⟨n, -, rfl⟩ := Option.map_eq_some_iff.1 hx
    obtain ⟨k, -, rfl⟩ := Option.map_eq_some_iff.1 hy
    exact hab
  have same : (⟨_, names⟩ : NameMap Nat) = log.openFiles := by
    refine NameMap.ext_get? fun topic => Option.ext fun n => ?_
    rw [NameMap.get?_eq_some_iff, alone.opened]
    change (topic, n) ∈ List.filterMap _ d.cache.held.entries ↔ _
    rw [List.mem_filterMap]
    constructor
    · rintro ⟨⟨t, i⟩, entry, opened⟩
      obtain ⟨k, hk, hpair⟩ := Option.map_eq_some_iff.1 opened
      cases hpair
      have cached : d.cache.get? t = some i := NameMap.get?_eq_some_iff.2 entry
      rw [cached, Option.bind_some]
      exact hk
    · intro opened
      obtain ⟨i, cached, file⟩ := Option.bind_eq_some_iff.1 opened
      refine ⟨(topic, i), NameMap.get?_eq_some_iff.1 cached, ?_⟩
      rw [file]
      rfl
  rw [← same]

/-- A closing that is left alone. -/
theorem close_alone (alone : d.Matches log) (anchored : d.Anchored) :
    let s := log.close d.files
    ∃ moves, Did d (d.run moves) s ∧ (d.run moves).told = s.result :: d.told := by
  rw [FileLog.close]
  cases closing : log.closing with
  | some result =>
    have ended : d.closing = .over result := by rw [alone.closing, closing]
    have moved : d.run [.close, .comeBack] = { d with told := result :: d.told } := by
      simp only [run, List.foldl_cons, List.foldl_nil, move, ended]
    refine ⟨[.close, .comeBack], ?_⟩
    rw [moved]
    exact ⟨⟨rfl, (List.append_nil _).symm, alone.root, alone.closed, alone.closing, alone.free,
      alone.opened⟩, rfl⟩
  | none =>
    have idle : d.closing = .idle := by rw [alone.closing, closing]
    let d₁ : SharedLog :=
      { d with
        closed := true
        cache := ⟨NameMap.empty, d.cache.poisoned⟩
        closing := .emptying d.cache.held.entries (.ok ())
        closers := d.closers + 1 }
    have begun : d.run [.close, .goOn 0, .goOn 0] = d₁ := by
      simp only [run, List.foldl_cons, List.foldl_nil, move, goOn, idle, TopicCache.drain]
      rfl
    have there : ∀ e ∈ d.cache.held.entries, ∃ h, d.handles[e.2]? = some h ∧ h.topic = e.1 :=
      fun e he => anchored.cached e.1 e.2 (NameMap.get?_eq_some_iff.2 he)
    obtain ⟨handles, ⟨n, emptied⟩, free⟩ := @goes_over d₁ d.cache.held.entries (.ok ()) rfl
      alone.free there d.cache.held.nodup_names
    have secured : openEntries d₁.handles d.cache.held.entries = log.openFiles.entries :=
      openEntries_cache alone
    rw [secured, lastFailure_ok] at emptied
    change run d₁ _ = { d₁ with
      handles := handles
      closing := .over (FileLog.syncAll d.files log.openFiles.entries).1
      events := d.events ++ (FileLog.syncAll d.files log.openFiles.entries).2 } at emptied
    cases all : FileLog.syncAll d.files log.openFiles.entries with
    | mk result events =>
      rw [all] at emptied
      refine ⟨[.close, .goOn 0, .goOn 0] ++ List.replicate n (.goOn 0) ++ [.comeBack], ?_⟩
      have came : d.run ([.close, .goOn 0, .goOn 0] ++ List.replicate n (.goOn 0) ++ [.comeBack]) =
          { d₁ with
            handles := handles
            closing := .over result
            closers := d.closers
            told := result :: d.told
            events := d.events ++ events } := by
        rw [run, List.foldl_append, List.foldl_append]
        have both := (congrArg (fun d => run d (List.replicate n (.goOn 0))) begun).trans emptied
        exact (congrArg (fun d => run d [.comeBack]) both).trans rfl
      rw [came]
      exact ⟨⟨rfl, rfl, alone.root, rfl, rfl, free, fun topic => rfl⟩, rfl⟩

/-! ## All calls -/

/-- Who made the call has come back with the result. -/
def CameBack (d d' : SharedLog) (result : Except Error Unit) : Option (String × List Message) → Prop
  | none => d'.told = result :: d.told
  | some (topic, batch) =>
    ∃ turn, d'.returned = ⟨turn, topic, result⟩ :: d.returned ∧ turn.call.batch = batch

/-- A write to a topic that is looked up for it. -/
theorem write_topic_alone (alone : d.Matches log) (sound : d.Sound) (cancelled : Bool)
    (topic : String) (batch : List Message) (asBatch : Bool) :
    let s := log.write d.files cancelled topic batch asBatch
    ∃ moves, Did d (d.run moves) s ∧ CameBack d (d.run moves) s.result (some (topic, batch)) := by
  obtain ⟨first, changed, found, i, h, there, rfl⟩ := lookup_alone alone sound.anchored topic
  have sound' : (d.run first).Sound := sound.run first
  obtain ⟨second, did, came⟩ := write_alone found sound'.guarded sound'.anchored
    ⟨i, batch, asBatch, cancelled⟩ there
  have files : (d.run first).files = d.files := by rw [changed]
  have events : (d.run first).events = d.events := by rw [changed]
  have returned : (d.run first).returned = d.returned := by rw [changed]
  have both : d.run (first ++ second) = (d.run first).run second := List.foldl_append
  rw [files] at did came
  refine ⟨first ++ second, ?_, ⟨(d.run first).calls, ⟨i, batch, asBatch, cancelled⟩⟩, ?_, rfl⟩
  · rw [both]
    exact ⟨did.files, by rw [did.events, events], did.log⟩
  · rw [both, came, returned]

/-- A call that is left alone comes to what it comes to on a log. -/
theorem perform_alone (alone : d.Matches log) (sound : d.Sound) (call : FileLog.Call) :
    let s := log.perform d.files call
    ∃ moves, Did d (d.run moves) s ∧ CameBack d (d.run moves) s.result call.batch? := by
  cases call with
  | publish topic m cancelled =>
    exact write_topic_alone alone sound cancelled topic [m] false
  | publishBatch topic batch cancelled =>
    exact write_topic_alone alone sound cancelled topic batch true
  | close => exact close_alone alone sound.anchored

theorem matches_start (root : Bytes) (files : Files) :
    (start root files).Matches ⟨root, NameMap.empty, false, none⟩ :=
  ⟨rfl, rfl, rfl, fun i h there => (by simp [start] at there), fun topic => rfl⟩

theorem performAll_matches (alone : d.Matches log) (sound : d.Sound) (calls : List FileLog.Call) :
    ∃ moves, (d.run moves).files = (log.performAll d.files calls).2 ∧
      (d.run moves).Matches (log.performAll d.files calls).1 := by
  induction calls generalizing d log with
  | nil => exact ⟨[], rfl, alone⟩
  | cons call calls ih =>
    obtain ⟨first, did, -⟩ := perform_alone alone sound call
    obtain ⟨rest, files, log'⟩ := ih did.log (sound.run first)
    have both : d.run (first ++ rest) = (d.run first).run rest := List.foldl_append
    rw [did.files] at files log'
    exact ⟨first ++ rest, by rw [both]; exact files, by rw [both]; exact log'⟩

/-- Every run of a log that was just opened is one of a shared log. -/
theorem performAll_alone (root : Bytes) (files : Files) (calls : List FileLog.Call) :
    let s := FileLog.performAll ⟨root, NameMap.empty, false, none⟩ files calls
    ∃ moves, ((start root files).run moves).files = s.2 ∧
      ((start root files).run moves).Matches s.1 :=
  performAll_matches (matches_start root files) (.start root files) calls

end SharedLog

end PubSub
