import Mathlib.Data.List.Basic
import PubSub.Proofs.Files.OneName
import PubSub.Proofs.NameMap
import PubSub.Publisher.Shared

/-!
# Moves of a shared log

What one move can do, and why a log that was closed stays so: the closing marks the log before it
takes the handles out of the cache, so a write that still passes the check goes through a handle
that the closing has yet to come to, and waits for.
-/

namespace PubSub

/-! ## What a move does -/

/-- All that a stage of a write can do. -/
inductive Proceeds (h : LogHandle) (path : Bytes) (closed : Bool) (f : Files) (c : WriteCall) :
    WriteStage → WriteStep → Prop where
  | turnedAway (isClosed : closed = true) :
    Proceeds h path closed f c .locked
      ⟨h.file, .leaving (.error (FileLog.closedError h.topic)), f, none, []⟩
  | admitted (isOpen : closed = false) :
    Proceeds h path closed f c .locked ⟨h.file, .opening, f, none, []⟩
  | finds (n : Nat) (file : h.file = some n) :
    Proceeds h path closed f c .opening ⟨some n, .opened n, f, none, []⟩
  | opens (n : Nat) (f' : Files) (file : h.file = none)
      (opened : f.openAppend path = (.ok n, f')) :
    Proceeds h path closed f c .opening ⟨some n, .opened n, f', none, []⟩
  | fails (e : SystemError) (file : h.file = none) (failed : (f.openAppend path).1 = .error e) :
    Proceeds h path closed f c .opening ⟨none, .leaving (.error (.system e)), f, none, []⟩
  | sizes (n : Nat) :
    Proceeds h path closed f c (.opened n) ⟨h.file, .appending n (f.size n) 0, f, none, []⟩
  | finishes (n size written : Nat) (all : c.batch.length ≤ written) :
    Proceeds h path closed f c (.appending n size written) ⟨h.file, .securing n, f, none, []⟩
  | appends (n size written : Nat) (m : Message) (f' : Files) (next : c.batch[written]? = some m)
      (appended : f.append n (Record.line m) = (.ok (), f')) :
    Proceeds h path closed f c (.appending n size written)
      ⟨h.file, .appending n size (written + 1), f', none, []⟩
  | stops (n size written : Nat) (m : Message) (e : SystemError) (f' : Files)
      (next : c.batch[written]? = some m)
      (refused : f.append n (Record.line m) = (.error e, f')) :
    Proceeds h path closed f c (.appending n size written)
      ⟨h.file, .stopped n size written e, f', none, []⟩
  | cuts (n size written : Nat) (e : SystemError) (f' : Files) (events : List Event)
      (cut : FileLog.cutBack f n (size + (FileLog.records (c.batch.take written)).length) h.topic =
        (f', events)) :
    Proceeds h path closed f c (.stopped n size written e)
      ⟨h.file, .leaving (.error (c.stopError written e)), f', some n, events⟩
  | secures (n : Nat) :
    Proceeds h path closed f c (.securing n)
      ⟨h.file, .leaving ((f.sync n).mapError .system), f, none, []⟩

theorem proceed_proceeds (h : LogHandle) (path : Bytes) (closed : Bool) (f : Files) (c : WriteCall)
    {stage : WriteStage} (stays : ∀ result, stage ≠ .leaving result) :
    Proceeds h path closed f c stage (h.proceed path closed f c stage) := by
  cases stage with
  | locked =>
    cases closed with
    | true => exact .turnedAway rfl
    | false => exact .admitted rfl
  | opening =>
    rw [LogHandle.proceed]
    cases file : h.file with
    | some n => exact .finds n file
    | none =>
      cases opened : f.openAppend path with
      | mk r f' =>
        cases r with
        | ok n => exact .opens n f' file opened
        | error e =>
          rw [Files.openAppend_error opened]
          exact .fails e file (by rw [opened])
  | opened n => exact .sizes n
  | appending n size written =>
    rw [LogHandle.proceed]
    cases next : c.batch[written]? with
    | none => exact .finishes n size written (List.getElem?_eq_none_iff.1 next)
    | some m =>
      cases appended : f.append n (Record.line m) with
      | mk r f' =>
        cases r with
        | ok u =>
          simp only [appended]
          exact .appends n size written m f' next appended
        | error e =>
          simp only [appended]
          exact .stops n size written m e f' next appended
  | stopped n size written e => exact .cuts n size written e _ _ rfl
  | securing n => exact .secures n
  | leaving result => exact absurd rfl (stays result)

namespace SharedLog

/-- All that a move can do. -/
inductive Moves (d : SharedLog) : LogMove → SharedLog → Prop where
  | idle (m : LogMove) : Moves d m d
  | misses (topic : String) : Moves d (.look topic) { d with missed := d.missed ++ [topic] }
  | meets (place : Nat) (topic : String) (missed : d.missed[place]? = some topic) :
    Moves d (.create place) { d with missed := d.missed.eraseIdx place }
  | makes (place : Nat) (topic : String) (missed : d.missed[place]? = some topic)
      (new : d.cache.get? topic = none) :
    Moves d (.create place)
      { d with
        missed := d.missed.eraseIdx place
        cache := ⟨d.cache.held.insert topic d.handles.length, d.cache.poisoned⟩
        handles := d.handles ++ [.fresh topic] }
  | refused (c : WriteCall) (h : LogHandle) (there : d.handles[c.handle]? = some h)
      (cancelled : c.cancelled = true) :
    Moves d (.call c)
      { d with
        calls := d.calls + 1
        returned := ⟨⟨d.calls, c⟩, h.topic, .error .cancelled⟩ :: d.returned }
  | waits (c : WriteCall) (h : LogHandle) (there : d.handles[c.handle]? = some h)
      (live : c.cancelled = false) :
    Moves d (.call c) { d with calls := d.calls + 1, waiting := d.waiting ++ [⟨d.calls, c⟩] }
  | enters (place : Nat) (turn : WriteTurn) (h : LogHandle)
      (waiting : d.waiting[place]? = some turn)
      (there : d.handles[turn.call.handle]? = some h) (free : h.visit = none) :
    Moves d (.enter place)
      { d with
        waiting := d.waiting.eraseIdx place
        handles := d.handles.set turn.call.handle { h with visit := some ⟨turn, .locked⟩ } }
  | works (i : Nat) (h : LogHandle) (turn : WriteTurn) (stage : WriteStage) (s : WriteStep)
      (there : d.handles[i]? = some h) (visit : h.visit = some ⟨turn, stage⟩)
      (does : Proceeds h (d.path h.topic) d.closed d.files turn.call stage s) :
    Moves d (.advance i)
      { d with
        files := s.files
        handles := d.handles.set i { h with file := s.file, visit := some ⟨turn, s.stage⟩ }
        cut := (s.cut.map fun n => (i, n)).toList ++ d.cut
        events := d.events ++ s.events }
  | leaves (i : Nat) (h : LogHandle) (turn : WriteTurn) (result : Except Error Unit)
      (there : d.handles[i]? = some h) (visit : h.visit = some ⟨turn, .leaving result⟩) :
    Moves d (.advance i)
      { d with
        handles := d.handles.set i { h with visit := none }
        returned := ⟨turn, h.topic, result⟩ :: d.returned }
  | closes (first : d.closing = .idle) :
    Moves d .close { d with closing := .begun, closers := d.closers + 1 }
  | asks (later : d.closing ≠ .idle) : Moves d .close { d with closers := d.closers + 1 }
  | marks (place : Nat) (begun : d.closing = .begun) :
    Moves d (.goOn place) { d with closed := true, closing := .marked }
  | drains (place : Nat) (marked : d.closing = .marked) :
    Moves d (.goOn place)
      { d with
        cache := ⟨NameMap.empty, d.cache.poisoned⟩
        closing := .emptying d.cache.held.entries (.ok ()) }
  | takes (place : Nat) (topic : String) (i : Nat) (h : LogHandle) (left : List (String × Nat))
      (result : Except Error Unit) (closing : d.closing = .emptying left result)
      (next : left[place]? = some (topic, i)) (there : d.handles[i]? = some h)
      (free : h.visit = none) :
    Moves d (.goOn place)
      { d with
        handles := d.handles.set i { h with file := none }
        closing := h.file.elim (.emptying (left.eraseIdx place) result) fun n =>
          .securing topic n (left.eraseIdx place) result }
  | secures (place : Nat) (topic : String) (n : Nat) (left : List (String × Nat))
      (result : Except Error Unit) (closing : d.closing = .securing topic n left result)
      (secured : d.files.sync n = .ok ()) :
    Moves d (.goOn place) { d with closing := .emptying left result }
  | fails (place : Nat) (topic : String) (n : Nat) (left : List (String × Nat))
      (result : Except Error Unit) (e : SystemError)
      (closing : d.closing = .securing topic n left result)
      (unsecured : d.files.sync n = .error e) :
    Moves d (.goOn place)
      { d with
        closing := .emptying left (.error (.system e))
        events := d.events ++ [.closingFailed topic (.system e)] }
  | ends (place : Nat) (result : Except Error Unit) (closing : d.closing = .emptying [] result) :
    Moves d (.goOn place) { d with closing := .over result }
  | comesBack (result : Except Error Unit) (closers : Nat) (ended : d.closing = .over result)
      (asked : d.closers = closers + 1) :
    Moves d .comeBack { d with closers := closers, told := result :: d.told }
  | brakes (brake : (size count : Nat) → Option (Nat × SystemError)) :
    Moves d (.brake brake) { d with files := { d.files with brake := brake } }

variable {d d' : SharedLog} {m : LogMove}

theorem advance_moves {i : Nat} {h : LogHandle} {turn : WriteTurn} {stage : WriteStage}
    (there : d.handles[i]? = some h) (visit : h.visit = some ⟨turn, stage⟩) :
    Moves d (.advance i) (d.advance i h turn stage) := by
  by_cases leaving : ∃ result, stage = .leaving result
  · obtain ⟨result, rfl⟩ := leaving
    exact .leaves i h turn result there visit
  · have stays : ∀ result, stage ≠ .leaving result := fun result hr => leaving ⟨result, hr⟩
    have does := proceed_proceeds h (d.path h.topic) d.closed d.files turn.call stays
    have works := Moves.works i h turn stage _ there visit does
    cases stage with
    | leaving result => exact absurd rfl (stays result)
    | _ => exact works

theorem goOn_moves (d : SharedLog) (place : Nat) : Moves d (.goOn place) (d.goOn place) := by
  unfold goOn
  split
  · exact .idle _
  · exact .idle _
  · next begun => exact .marks place begun
  · next marked => exact .drains place marked
  · next result closing => exact .ends place result closing
  · next left result _ closing =>
    split
    · exact .idle _
    · next topic i next =>
      split
      · next name file there =>
        exact .takes place topic i ⟨name, file, none⟩ left result closing next there rfl
      · exact .idle _
  · next topic n left result closing =>
    split
    · next secured => exact .secures place topic n left result closing secured
    · next e unsecured => exact .fails place topic n left result e closing unsecured

theorem move_moves (d : SharedLog) (m : LogMove) : Moves d m (d.move m) := by
  cases m with
  | look topic =>
    rw [move]
    split
    · exact .idle _
    · exact .misses topic
  | create place =>
    rw [move]
    split
    · exact .idle _
    · next topic missed =>
      dsimp only
      split
      · exact .meets place topic missed
      · next new =>
        have makes := Moves.makes place topic missed new
        have settled : d.cache.settle topic (.ok d.handles.length) =
            (.ok d.handles.length,
              ⟨d.cache.held.insert topic d.handles.length, d.cache.poisoned⟩) := by
          rw [TopicCache.settle, show d.cache.held.get? topic = none from new]
        simpa only [settled] using makes
  | call c =>
    rw [move]
    split
    · exact .idle _
    · next h there =>
      cases token : c.cancelled with
      | true =>
        have refused := Moves.refused c h there token
        simpa only [begin, token, if_true] using refused
      | false =>
        have waits := Moves.waits c h there token
        simpa only [begin, token, Bool.false_eq_true, if_false] using waits
  | enter place =>
    rw [move]
    split
    · exact .idle _
    · next turn waiting =>
      split
      · next topic file there => exact .enters place turn ⟨topic, file, none⟩ waiting there rfl
      · exact .idle _
  | advance i =>
    rw [move]
    split
    · next topic file turn stage there => exact advance_moves there rfl
    · exact .idle _
  | close =>
    cases closing : d.closing with
    | idle =>
      have closes := Moves.closes closing
      simpa only [move, closing] using closes
    | _ =>
      have asks := Moves.asks (d := d) (by rw [closing]; exact Closing.noConfusion)
      simpa only [move, closing] using asks
  | goOn place => exact goOn_moves d place
  | comeBack =>
    rw [move]
    split
    · next result closers ended asked => exact .comesBack result closers ended asked
    · exact .idle _
  | brake brake => exact .brakes brake

/-- A handle after one of them was changed. -/
theorem getElem?_set_cases {hs : List LogHandle} {i j : Nat} {h x : LogHandle}
    (hx : (hs.set i h)[j]? = some x) : j = i ∧ x = h ∨ j ≠ i ∧ hs[j]? = some x := by
  by_cases hj : j = i
  · subst hj
    rw [List.getElem?_set_self' ] at hx
    obtain ⟨-, -, rfl⟩ := Option.map_eq_some_iff.1 hx
    exact .inl ⟨rfl, rfl⟩
  · rw [List.getElem?_set_ne (Ne.symm hj)] at hx
    exact .inr ⟨hj, hx⟩

/-- A handle after one was added. -/
theorem getElem?_snoc_cases {hs : List LogHandle} {j : Nat} {h x : LogHandle}
    (hx : (hs ++ [h])[j]? = some x) : hs[j]? = some x ∨ j = hs.length ∧ x = h := by
  rcases Nat.lt_trichotomy j hs.length with hlt | rfl | hgt
  · rw [List.getElem?_append_left hlt] at hx
    exact .inl hx
  · simp at hx
    exact .inr ⟨rfl, hx.symm⟩
  · rw [List.getElem?_eq_none (by simp; omega)] at hx
    cases hx

/-- What a move makes of handle `i`. -/
inductive Becomes (d d' : SharedLog) (i : Nat) : LogHandle → Prop where
  | stays (h : LogHandle) (there : d.handles[i]? = some h) : Becomes d d' i h
  | new (topic : String) (absent : d.handles[i]? = none) : Becomes d d' i (.fresh topic)
  | enters (h : LogHandle) (turn : WriteTurn) (there : d.handles[i]? = some h)
      (free : h.visit = none) (waiting : turn ∈ d.waiting) (handle : turn.call.handle = i) :
    Becomes d d' i { h with visit := some ⟨turn, .locked⟩ }
  | works (h : LogHandle) (turn : WriteTurn) (stage : WriteStage) (s : WriteStep)
      (there : d.handles[i]? = some h) (visit : h.visit = some ⟨turn, stage⟩)
      (does : Proceeds h (d.path h.topic) d.closed d.files turn.call stage s)
      (files : d'.files = s.files) :
    Becomes d d' i { h with file := s.file, visit := some ⟨turn, s.stage⟩ }
  | leaves (h : LogHandle) (there : d.handles[i]? = some h) :
    Becomes d d' i { h with visit := none }
  | takes (h : LogHandle) (there : d.handles[i]? = some h) (free : h.visit = none) :
    Becomes d d' i { h with file := none }

theorem Moves.becomes (moves : Moves d m d') {i : Nat} {h : LogHandle}
    (there : d'.handles[i]? = some h) : Becomes d d' i h := by
  cases moves with
  | makes place topic =>
    rcases getElem?_snoc_cases there with there | ⟨rfl, rfl⟩
    · exact .stays h there
    · exact .new topic (List.getElem?_eq_none (Nat.le_refl _))
  | enters place turn x waiting hx free =>
    rcases getElem?_set_cases there with ⟨rfl, rfl⟩ | ⟨-, there⟩
    · exact .enters x turn hx free (List.mem_of_getElem? waiting) rfl
    · exact .stays h there
  | works j x turn stage s hx visit does =>
    rcases getElem?_set_cases there with ⟨rfl, rfl⟩ | ⟨-, there⟩
    · exact .works x turn stage s hx visit does rfl
    · exact .stays h there
  | leaves j x turn result hx =>
    rcases getElem?_set_cases there with ⟨rfl, rfl⟩ | ⟨-, there⟩
    · exact .leaves x hx
    · exact .stays h there
  | takes place topic j x left result closing next hx free =>
    rcases getElem?_set_cases there with ⟨rfl, rfl⟩ | ⟨-, there⟩
    · exact .takes x hx free
    · exact .stays h there
  | _ => exact .stays h there

end SharedLog

/-! ## The closing -/

namespace Closing

/-- The log is marked as closed. -/
def isMarked : Closing → Bool
  | .idle | .begun => false
  | _ => true

/-- The handles were taken out of the cache. -/
def isDrained : Closing → Bool
  | .idle | .begun | .marked => false
  | _ => true

/-- The handles that the closing has yet to come to. -/
def left : Closing → List Nat
  | .emptying left _ | .securing _ _ left _ => left.map (·.2)
  | _ => []

theorem isMarked_of_isDrained {c : Closing} (h : c.isDrained = true) : c.isMarked = true := by
  cases c <;> simp_all [isDrained, isMarked]

end Closing

/-- Nothing is open, and who holds the lock will be told that the log is closed. -/
structure LogHandle.Quiet (h : LogHandle) : Prop where
  shut : h.file = none
  visit : ∀ v, h.visit = some v →
    v.stage = .locked ∨ v.stage = .leaving (.error (FileLog.closedError h.topic))

namespace SharedLog

variable {d d' : SharedLog} {m : LogMove}

/-- How far the closing has come shows in the log: marked as closed, then all handles that may be
open in the cache or among those that are left, and at last none. -/
structure Guarded (d : SharedLog) : Prop where
  marked : d.closed = d.closing.isMarked
  cached : d.closing.isDrained = false →
    ∀ i h, d.handles[i]? = some h → d.cache.get? h.topic = some i
  emptied : d.closing.isDrained = true →
    ∀ i h, d.handles[i]? = some h → i ∈ d.closing.left ∨ h.Quiet
  told : ∀ r ∈ d.told, d.closing = .over r

theorem Guarded.start (root : Bytes) (files : Files) : (start root files).Guarded :=
  ⟨rfl, fun _ i h there => by simp [SharedLog.start] at there,
    by simp [SharedLog.start, Closing.isDrained], by simp [SharedLog.start]⟩

/-- A log that is not marked as closed has all its handles in the cache. -/
theorem Guarded.undrained (guarded : d.Guarded) (live : d.closed = false) :
    d.closing.isDrained = false := by
  cases drained : d.closing.isDrained with
  | false => rfl
  | true =>
    have closed := guarded.marked.trans (Closing.isMarked_of_isDrained drained)
    rw [live] at closed
    cases closed

/-- On a closed log a quiet handle stays quiet whatever the call that has its lock does, and no file
is changed through it. -/
theorem Quiet.proceeds {h : LogHandle} {path : Bytes} {f : Files} {turn : WriteTurn}
    {stage : WriteStage} {s : WriteStep} (quiet : h.Quiet) (visit : h.visit = some ⟨turn, stage⟩)
    (does : Proceeds h path true f turn.call stage s) :
    LogHandle.Quiet { h with file := s.file, visit := some ⟨turn, s.stage⟩ } ∧
      s.files = f ∧ s.cut = none := by
  rcases quiet.visit _ visit with locked | leaving
  · simp only at locked
    subst locked
    cases does with
    | turnedAway => exact ⟨⟨quiet.shut, by simp⟩, rfl, rfl⟩
    | admitted isOpen => cases isOpen
  · simp only at leaving
    subst leaving
    cases does

theorem Moves.quiet (moves : Moves d m d') (closed : d.closed = true) {i : Nat} {h h' : LogHandle}
    (there : d.handles[i]? = some h) (quiet : h.Quiet) (there' : d'.handles[i]? = some h') :
    h'.Quiet := by
  have before : ∀ {x : LogHandle}, d.handles[i]? = some x → x.Quiet := by
    intro x hx
    rw [there] at hx
    cases hx
    exact quiet
  cases moves.becomes there' with
  | stays _ there => exact before there
  | new topic absent =>
    rw [there] at absent
    cases absent
  | enters x turn hx => exact ⟨(before hx).shut, by simp⟩
  | works x turn stage s hx visit does =>
    rw [closed] at does
    exact (Quiet.proceeds (before hx) visit does).1
  | leaves x hx => exact ⟨(before hx).shut, by simp⟩
  | takes x hx free => exact ⟨rfl, by simp [free]⟩

/-- A move that changes one handle. -/
theorem Guarded.set {i : Nat} {h h' : LogHandle} (guarded : d.Guarded) (moves : Moves d m d')
    (there : d.handles[i]? = some h) (handles : d'.handles = d.handles.set i h')
    (topic : h'.topic = h.topic) :
    (d.closing.isDrained = false →
      ∀ j x, d'.handles[j]? = some x → d.cache.get? x.topic = some j) ∧
    (d.closing.isDrained = true →
      ∀ j x, d'.handles[j]? = some x → j ∈ d.closing.left ∨ x.Quiet) := by
  constructor
  · intro undrained j x hx
    rw [handles] at hx
    rcases getElem?_set_cases hx with ⟨rfl, rfl⟩ | ⟨-, hx⟩
    · rw [topic]
      exact guarded.cached undrained j h there
    · exact guarded.cached undrained j x hx
  · intro drained j x hx
    have closed := guarded.marked.trans (Closing.isMarked_of_isDrained drained)
    obtain ⟨y, hy⟩ : ∃ y, d.handles[j]? = some y := by
      rw [handles] at hx
      rcases getElem?_set_cases hx with ⟨rfl, -⟩ | ⟨-, hx⟩
      · exact ⟨h, there⟩
      · exact ⟨x, hx⟩
    exact (guarded.emptied drained j y hy).imp_right fun quiet => moves.quiet closed hy quiet hx

theorem Guarded.move (guarded : d.Guarded) (moves : Moves d m d') : d'.Guarded := by
  obtain ⟨marked, cached, emptied, told⟩ := id guarded
  have moved := moves
  cases moves with
  | idle | misses | meets | refused | waits | brakes => exact ⟨marked, cached, emptied, told⟩
  | asks => exact ⟨marked, cached, emptied, told⟩
  | makes place topic missed new =>
    refine ⟨marked, fun undrained i h there => ?_, fun drained i h there => ?_, told⟩
    · simp only [TopicCache.get?, NameMap.get?_insert]
      rcases getElem?_snoc_cases there with there | ⟨rfl, rfl⟩
      · have old := cached undrained i h there
        have apart : h.topic ≠ topic := by
          rintro rfl
          rw [new] at old
          cases old
        rw [if_neg apart]
        exact old
      · rw [LogHandle.fresh, if_pos rfl]
    · rcases getElem?_snoc_cases there with there | ⟨rfl, rfl⟩
      · exact emptied drained i h there
      · exact .inr ⟨rfl, by simp [LogHandle.fresh]⟩
  | enters place turn h waiting there free =>
    obtain ⟨cached', emptied'⟩ := guarded.set moved there rfl rfl
    exact ⟨marked, cached', emptied', told⟩
  | works i h turn stage s there visit does =>
    obtain ⟨cached', emptied'⟩ := guarded.set moved there rfl rfl
    exact ⟨marked, cached', emptied', told⟩
  | leaves i h turn result there visit =>
    obtain ⟨cached', emptied'⟩ := guarded.set moved there rfl rfl
    exact ⟨marked, cached', emptied', told⟩
  | closes first =>
    rw [first] at marked cached told
    refine ⟨marked, fun _ => cached rfl, by simp [Closing.isDrained], fun r hr => ?_⟩
    cases told r hr
  | marks place begun =>
    rw [begun] at cached told
    refine ⟨rfl, fun _ => cached rfl, by simp [Closing.isDrained], fun r hr => ?_⟩
    cases told r hr
  | drains place closing =>
    rw [closing] at marked cached told
    refine ⟨marked, by simp [Closing.isDrained], fun _ i h there => .inl ?_, fun r hr => ?_⟩
    · have entry := NameMap.get?_eq_some_iff.1 (cached rfl i h there)
      exact List.mem_map.2 ⟨_, entry, rfl⟩
    · cases told r hr
  | takes place topic i h left result closing next there free =>
    rw [closing] at marked emptied told
    have left' : Closing.left (h.file.elim (.emptying (left.eraseIdx place) result) fun n =>
        .securing topic n (left.eraseIdx place) result) = (left.eraseIdx place).map (·.2) := by
      cases h.file <;> rfl
    have flags : ∀ c, c = h.file.elim (Closing.emptying (left.eraseIdx place) result)
        (fun n => .securing topic n (left.eraseIdx place) result) →
        c.isMarked = true ∧ c.isDrained = true := by
      rintro c rfl
      cases h.file <;> exact ⟨rfl, rfl⟩
    obtain ⟨isMarked, isDrained⟩ := flags _ rfl
    refine ⟨marked.trans isMarked.symm, ?_, fun _ j x hx => ?_, fun r hr => ?_⟩
    · rw [isDrained]
      exact fun h => by cases h
    · rcases getElem?_set_cases hx with ⟨rfl, rfl⟩ | ⟨apart, hx⟩
      · exact .inr ⟨rfl, by simp [free]⟩
      · refine (emptied rfl j x hx).imp_left fun member => ?_
        obtain ⟨e, he, rfl⟩ := List.mem_map.1 member
        obtain ⟨k, hk⟩ := List.mem_iff_getElem?.1 he
        rw [left']
        refine List.mem_map.2 ⟨e, List.mem_eraseIdx_iff_getElem?.2 ⟨k, ?_, hk⟩, rfl⟩
        rintro rfl
        rw [next] at hk
        cases hk
        exact apart rfl
    · cases told r hr
  | secures place topic n left result closing secured
  | fails place topic n left result e closing unsecured =>
    rw [closing] at marked emptied told
    refine ⟨marked, by simp [Closing.isDrained], fun _ => emptied rfl, fun r hr => ?_⟩
    cases told r hr
  | ends place result closing =>
    rw [closing] at marked emptied told
    refine ⟨marked, by simp [Closing.isDrained], fun _ => emptied rfl, fun r hr => ?_⟩
    cases told r hr
  | comesBack result closers ended asked =>
    refine ⟨marked, cached, emptied, fun r hr => ?_⟩
    rcases List.mem_cons.1 hr with rfl | hr
    · exact ended
    · exact told r hr

end SharedLog

end PubSub
