import PubSub.Proofs.Bus
import PubSub.Proofs.Subscription.Feed
import PubSub.Proofs.World
import PubSub.Subscription.Subscribe

/-!
# Replays

A replay comes to the same whatever the order is in which its reader and its loop go on
(`replay_ends`): the handler is given the records of the stream up to the first one that stops it.
-/

namespace PubSub

open Subscription (conclude)

/-! ## What a replay comes to -/

/-- The messages handled, the latest first, the result, and the errors told on the way. -/
structure Verdict where
  seen : List Message
  result : Except Error Unit
  reported : List Error
  logged : List Event

/-- What is left to say when the records end in the middle of one. -/
def Verdict.cutShort (o : SubscribeOptions) (seen : List Message) (e : DecodeError) : Verdict :=
  ⟨seen, .ok (), (o.report (.codec e)).1,
    (.truncatedRecord (.codec e) :: (o.report (.codec e)).2).filter (·.isTold)⟩

/-- What a handler and a stream of records come to. -/
def replayed (o : SubscribeOptions) (h : Handler) :
    (earlier : List Message) → List (Except DecodeError Message) → Verdict
  | earlier, [] => ⟨earlier, .ok (), [], []⟩
  | earlier, .error e :: _ =>
    if e.isEnd then .cutShort o earlier e else ⟨earlier, .error (.codec e), [], []⟩
  | earlier, .ok m :: rest =>
    match (h earlier m).outcome with
    | .flow .continue => replayed o h (m :: earlier) rest
    | .flow .done => ⟨m :: earlier, .ok (), [], []⟩
    | .flow (.abort cause) => ⟨m :: earlier, .error (.handler cause), [], []⟩
    | .panic text => ⟨m :: earlier, conclude false none (.panicked text), [], []⟩

/-- The file of a replay stays as it is, and its token is not cancelled. -/
structure Undisturbed (node : Nat) (content : Bytes) (governor : Option String) (w : World) :
    Prop where
  read : w.files.read node = .ok content
  live : w.isCancelled? governor = false

/-- What a handler does on the way keeps `K`. -/
def Handler.Spares (h : Handler) (K : World → Prop) : Prop :=
  ∀ earlier m w, K w → K ((h earlier m).effects.foldl World.act w)

/-- In a world where the handler is given these records, `K` holds after each of its calls, up to
the one that stops it. -/
def Handler.Keeps (h : Handler) (K : World → Prop) :
    World → (earlier : List Message) → List (Except DecodeError Message) → Prop
  | w, earlier, .ok m :: rest =>
    K ((h earlier m).effects.foldl World.act w) ∧
      ((h earlier m).outcome = .flow .continue →
        h.Keeps K ((h earlier m).effects.foldl World.act w) (m :: earlier) rest)
  | _, _, .error _ :: _ | _, _, [] => True

theorem Handler.Spares.keeps {h : Handler} {K : World → Prop} (hh : h.Spares K) {w : World}
    (hw : K w) (earlier : List Message) (rs : List (Except DecodeError Message)) :
    h.Keeps K w earlier rs := by
  induction rs generalizing w earlier with
  | nil => trivial
  | cons r rest ih =>
    cases r with
    | error e => trivial
    | ok m =>
      have hnext := hh earlier m w hw
      exact ⟨hnext, fun _ => ih hnext (m :: earlier)⟩

/-! ## Stages -/

/-- Where the loop goes on after a message. -/
def ReplayLoop.afterward : Delivery → ReplayLoop
  | .ack => .wait
  | .discarded => .stop (.error .cancelled)
  | .ackAndStop | .reject => .stop (.ok ())

/-- The phases of a subscription that replays a file. -/
inductive Stage where
  | loop (l : ReplayLoop)
  | called (m : Message)
  | handling (m : Message)
  | ended (e : Ending)
  | closed

namespace Stage

def phase : Stage → Phase Loop
  | .loop l => .running (.replay l)
  | .called m => .called m fun d => .replay (.afterward d)
  | .handling m => .handling m fun d => .replay (.afterward d)
  | .ended e => .ended e
  | .closed => .over

/-- How many steps the loop makes at most before it takes the next record. -/
def weight : Stage → Nat
  | .loop (.look _) => 9
  | .loop (.offer _) => 8
  | .called _ => 7
  | .handling _ => 6
  | .loop .wait => 5
  | .loop (.note _) => 4
  | .loop (.tell _) => 3
  | .loop (.stop _) => 2
  | .ended _ => 1
  | .closed => 0

theorem weight_le (stage : Stage) : stage.weight ≤ 9 := by
  cases stage with
  | loop l => cases l <;> simp [weight]
  | called m => simp [weight]
  | handling m => simp [weight]
  | ended e => simp [weight]
  | closed => simp [weight]

end Stage

theorem ReplayLoop.act_offer (m : Message) :
    Loop.act (.replay (.offer m)) = .dispatch m fun d => .replay (.afterward d) := rfl

/-! ## The invariant -/

/-- A subscription on which nothing that stops it or tells of it has happened yet. -/
def Untouched (s : Subscription Loop) (logged : List Event) : Prop :=
  s.dispatcher = .fresh ∧ s.reported = [] ∧ logged = []

/-- After the earlier messages these records come to `v`, and the handler leaves alone what they are
read from. -/
structure ComesTo (node : Nat) (content : Bytes) (v : Verdict) (w : World) (s : Subscription Loop)
    (earlier : List Message) (coming : List (Except DecodeError Message)) : Prop where
  keeps : s.handler.Keeps (Undisturbed node content s.options.governor) w earlier coming
  due : v = replayed s.options s.handler earlier coming

/-- At a stage, `v` is what the subscription comes to with the records `coming`. -/
def Due (node : Nat) (content : Bytes) (v : Verdict) (w : World) (s : Subscription Loop)
    (coming : List (Except DecodeError Message)) (logged : List Event) : Stage → Prop
  | .loop .wait => Untouched s logged ∧ ComesTo node content v w s s.seen coming
  | .loop (.look m) | .loop (.offer m) | .called m =>
    Untouched s logged ∧ ComesTo node content v w s s.seen (.ok m :: coming)
  | .handling m =>
    Untouched s logged ∧ ∃ earlier, s.seen = m :: earlier ∧
      ComesTo node content v w s earlier (.ok m :: coming)
  | .loop (.note e) => Untouched s logged ∧ v = .cutShort s.options s.seen e
  | .loop (.tell e) =>
    s.reported = [] ∧ logged = [.truncatedRecord (.codec e)] ∧
      s.dispatcher.failure = none ∧ v = .cutShort s.options s.seen e
  | .loop (.stop r) =>
    v = ⟨s.seen, conclude false s.dispatcher.failure (.returned r), s.reported, logged⟩
  | .ended e => v = ⟨s.seen, conclude false s.dispatcher.failure e, s.reported, logged⟩
  | .closed => s.result = some v.result ∧ v = ⟨s.seen, v.result, s.reported, logged⟩

/-- A replay of `content` that comes to `v`, at a stage, with what it reads from. -/
structure Underway (told : List Event) (node : Nat) (content : Bytes) (v : Verdict) (w : World)
    (s : Subscription Loop) (f : Feed) (stage : Stage) : Prop where
  feed : s.feed = some f
  opened : f.node = node
  phase : s.phase = stage.phase
  ungated : s.gated = false
  world : Undisturbed node content s.options.governor w
  due : ∃ logged, w.told = told ++ logged ∧
    Due node content v w s (f.coming content) logged stage

/-- How many steps are left at most. -/
def stepsLeft (content : Bytes) (f : Feed) (stage : Stage) : Nat :=
  stage.weight + 8 * (f.coming content).length + f.work content

variable {told : List Event} {node : Nat} {content : Bytes} {v : Verdict} {w w' : World}
  {s s' : Subscription Loop} {f : Feed} {stage : Stage}

theorem Undisturbed.note {governor : Option String} (h : Undisturbed node content governor w)
    (events : List Event) : Undisturbed node content governor (w.note events) :=
  ⟨h.read, h.live⟩

theorem due_feed (g : Option Feed) {coming : List (Except DecodeError Message)}
    {logged : List Event} (h : Due node content v w s coming logged stage) :
    Due node content v w { s with feed := g } coming logged stage := by
  cases stage with
  | loop l =>
    cases l with
    | wait | look | offer => exact ⟨h.1, h.2.keeps, h.2.due⟩
    | note | tell | stop => exact h
  | called m => exact ⟨h.1, h.2.keeps, h.2.due⟩
  | handling m =>
    obtain ⟨hun, earlier, hseen, hkeeps, hdue⟩ := h
    exact ⟨hun, earlier, hseen, hkeeps, hdue⟩
  | ended e => exact h
  | closed => exact h

/-- The replay has come to another stage, with fewer steps left than `n`. -/
def Goes (told : List Event) (node : Nat) (content : Bytes) (v : Verdict) (n : Nat) (w : World)
    (s : Subscription Loop) : Prop :=
  ∃ f stage, Underway told node content v w s f stage ∧ stepsLeft content f stage < n

/-! ## Steps of the reader -/

theorem Underway.read (h : Underway told node content v w s f stage)
    (hs : s.readAhead w = some s') :
    Goes told node content v (stepsLeft content f stage) w s' := by
  rw [Subscription.readAhead, h.feed] at hs
  simp only at hs
  split at hs
  · rw [h.opened, h.world.read, Option.map_eq_some_iff] at hs
    obtain ⟨f', hf, rfl⟩ := hs
    obtain ⟨hnode, hcoming, hwork⟩ := Feed.read?_reads hf
    obtain ⟨logged, htold, hdue⟩ := h.due
    refine ⟨f', stage, ⟨rfl, hnode.trans h.opened, h.phase, h.ungated, h.world, logged, htold,
      ?_⟩, ?_⟩
    · rw [hcoming]
      exact due_feed _ hdue
    · rw [stepsLeft, stepsLeft, hcoming]
      omega
  · simp at hs

/-! ## Steps of the loop -/

/-- A step that leaves the feed and the options alone. -/
theorem Underway.shift (h : Underway told node content v w s f stage) (stage' : Stage)
    (hworld : Undisturbed node content s.options.governor w') (hfeed : s'.feed = s.feed)
    (hgated : s'.gated = s.gated) (hoptions : s'.options = s.options)
    (hphase : s'.phase = stage'.phase)
    (hdue : ∃ logged, w'.told = told ++ logged ∧
      Due node content v w' s' (f.coming content) logged stage')
    (hlt : stage'.weight < stage.weight) :
    Goes told node content v (stepsLeft content f stage) w' s' := by
  refine ⟨f, stage', ⟨hfeed.trans h.feed, h.opened, hphase, hgated.trans h.ungated, ?_, hdue⟩, ?_⟩
  · rw [hoptions]
    exact hworld
  · rw [stepsLeft, stepsLeft]
    omega

theorem Underway.isCancelled (h : Underway told node content v w s f stage)
    (hd : s.dispatcher = .fresh) : s.isCancelled w = false := by
  rw [Subscription.isCancelled, hd, h.world.live]
  rfl

theorem Underway.isStopped (h : Underway told node content v w s f stage)
    (hd : s.dispatcher = .fresh) : s.isStopped w = false := by
  rw [Subscription.isStopped, h.isCancelled hd, hd]
  rfl

/-- Taking a record off the queue. -/
theorem Underway.taken (h : Underway told node content v w s f (.loop .wait))
    {r : Except DecodeError Message} {rest : List (Except DecodeError Message)}
    (hq : f.queued = r :: rest) (stage' : Stage) (hphase : s'.phase = stage'.phase)
    (hs : s' = { s with feed := some { f with queued := rest }, phase := s'.phase })
    (hdue : ∃ logged, w.told = told ++ logged ∧
      Due node content v w s' ({ f with queued := rest }.coming content) logged stage') :
    Goes told node content v (stepsLeft content f (.loop .wait)) w s' := by
  refine ⟨{ f with queued := rest }, stage', ⟨by rw [hs], h.opened, hphase, ?_, ?_, hdue⟩, ?_⟩
  · rw [hs]
    exact h.ungated
  · rw [hs]
    exact h.world
  · have hcoming := Feed.coming_taken hq content
    have hwork : { f with queued := rest }.work content = f.work content := rfl
    have hweight := stage'.weight_le
    have hwait : (Stage.loop .wait).weight = 5 := rfl
    rw [stepsLeft, stepsLeft, hcoming, hwork, hwait, List.length_cons]
    omega

theorem Underway.wait (h : Underway told node content v w s f (.loop .wait)) {c : Bool}
    (hs : s.advance Loop.act c w = some (w', s')) :
    Goes told node content v (stepsLeft content f (.loop .wait)) w' s' := by
  obtain ⟨logged, htold, hun, hkeeps, hv⟩ := h.due
  have hcan := h.isCancelled hun.1
  rw [Subscription.advance, h.phase] at hs
  simp only [Stage.phase, Loop.act, ReplayLoop.act, Action.map, Subscription.perform,
    Subscription.receive, h.feed, hcan, Bool.false_eq_true, false_and, if_false] at hs
  cases hq : f.queued with
  | nil =>
    simp only [hq] at hs
    by_cases hdry : f.isDry = true
    · simp only [hdry, if_true, Option.map_some, Option.some.injEq, Prod.mk.injEq] at hs
      obtain ⟨rfl, rfl⟩ := hs
      rw [Feed.coming_of_isDry hdry] at hv
      refine h.shift (.loop (.stop (.ok ()))) h.world rfl rfl rfl rfl ⟨logged, htold, ?_⟩
        (by decide)
      obtain ⟨hd, hr, hl⟩ := hun
      simp only [Due, Subscription.goOn, hd, hr, hl]
      exact hv
    · simp [hdry] at hs
  | cons r rest =>
    have hcoming : f.coming content = r :: { f with queued := rest }.coming content :=
      Feed.coming_taken hq content
    rw [hcoming] at hkeeps hv
    cases r with
    | ok m =>
      simp only [hq, Option.map_some, Option.some.injEq, Prod.mk.injEq] at hs
      obtain ⟨rfl, rfl⟩ := hs
      exact h.taken hq (.loop (.look m)) rfl rfl ⟨logged, htold, hun, hkeeps, hv⟩
    | error e =>
      simp only [hq, Option.map_some, Option.some.injEq, Prod.mk.injEq] at hs
      obtain ⟨rfl, rfl⟩ := hs
      cases he : e.isEnd with
      | true =>
        rw [replayed, if_pos he] at hv
        exact h.taken hq (.loop (.note e)) (by simp [Subscription.goOn, Stage.phase])
          rfl ⟨logged, htold, hun, hv⟩
      | false =>
        rw [replayed, if_neg (by simp [he])] at hv
        refine h.taken hq (.loop (.stop (.error (.codec e))))
          (by simp [Subscription.goOn, Stage.phase]) rfl ⟨logged, htold, ?_⟩
        obtain ⟨hd, hr, hl⟩ := hun
        simp only [Due, Subscription.goOn, hd, hr, hl]
        exact hv

theorem Underway.look {m : Message}
    (h : Underway told node content v w s f (.loop (.look m))) {c : Bool}
    (hs : s.advance Loop.act c w = some (w', s')) :
    Goes told node content v (stepsLeft content f (.loop (.look m))) w' s' := by
  obtain ⟨logged, htold, hun, hkeeps, hv⟩ := h.due
  rw [Subscription.advance, h.phase] at hs
  simp only [Stage.phase, Loop.act, ReplayLoop.act, Action.map, Subscription.perform,
    h.isCancelled hun.1, Bool.false_eq_true, if_false, Option.some.injEq, Prod.mk.injEq] at hs
  obtain ⟨rfl, rfl⟩ := hs
  exact h.shift (.loop (.offer m)) h.world rfl rfl rfl rfl ⟨logged, htold, hun, hkeeps, hv⟩
    (by simp [Stage.weight])

theorem Underway.offer {m : Message}
    (h : Underway told node content v w s f (.loop (.offer m))) {c : Bool}
    (hs : s.advance Loop.act c w = some (w', s')) :
    Goes told node content v (stepsLeft content f (.loop (.offer m))) w' s' := by
  obtain ⟨logged, htold, hun, hkeeps, hv⟩ := h.due
  rw [Subscription.advance, h.phase] at hs
  simp only [Stage.phase, ReplayLoop.act_offer, Subscription.perform, h.isStopped hun.1,
    Bool.false_eq_true, if_false, Option.some.injEq, Prod.mk.injEq] at hs
  obtain ⟨rfl, rfl⟩ := hs
  exact h.shift (.called m) h.world rfl rfl rfl rfl ⟨logged, htold, hun, hkeeps, hv⟩
    (by simp [Stage.weight])

theorem Underway.call {m : Message} (h : Underway told node content v w s f (.called m))
    {c : Bool} (hs : s.advance Loop.act c w = some (w', s')) :
    Goes told node content v (stepsLeft content f (.called m)) w' s' := by
  obtain ⟨logged, htold, hun, hkeeps, hv⟩ := h.due
  rw [Subscription.advance, h.phase] at hs
  simp only [Stage.phase, h.isStopped hun.1, Bool.false_eq_true, if_false, Option.some.injEq,
    Prod.mk.injEq] at hs
  obtain ⟨rfl, rfl⟩ := hs
  exact h.shift (.handling m) h.world rfl rfl rfl rfl
    ⟨logged, htold, hun, s.seen, rfl, hkeeps, hv⟩
    (by simp [Stage.weight])

theorem Underway.handle {m : Message} (h : Underway told node content v w s f (.handling m))
    {c : Bool} (hs : s.advance Loop.act c w = some (w', s')) :
    Goes told node content v (stepsLeft content f (.handling m)) w' s' := by
  obtain ⟨logged, htold, ⟨hd, hr, hl⟩, earlier, hseen, ⟨hw, hkeeps⟩, hv⟩ := h.due
  have ht : ((s.handler earlier m).effects.foldl World.act w).told = told ++ logged := by
    rw [World.told_acts, htold]
  rw [Subscription.advance, h.phase] at hs
  simp only [Stage.phase, h.ungated, Bool.false_eq_true, false_and, if_false,
    Option.some.injEq] at hs
  rw [Subscription.answer, hseen, List.tail_cons] at hs
  rw [replayed] at hv
  cases ho : (s.handler earlier m).outcome with
  | panic text =>
    simp only [ho, Prod.mk.injEq] at hs hv
    obtain ⟨rfl, rfl⟩ := hs
    refine h.shift (.ended (.panicked text)) hw rfl rfl rfl rfl ⟨logged, ht, ?_⟩
      (by simp [Stage.weight])
    simp only [Due, hd, hr, hl]
    exact hv
  | flow flow =>
    cases flow with
    | «continue» =>
      simp only [ho, Dispatcher.answer, Prod.mk.injEq] at hs hv
      obtain ⟨rfl, rfl⟩ := hs
      refine h.shift (.loop .wait) hw rfl rfl rfl rfl ⟨logged, ht, ⟨hd, hr, hl⟩, ?_⟩
        (by simp [Stage.weight])
      exact ⟨hkeeps ho, hv⟩
    | done =>
      simp only [ho, Dispatcher.answer, Prod.mk.injEq] at hs hv
      obtain ⟨rfl, rfl⟩ := hs
      refine h.shift (.loop (.stop (.ok ()))) hw rfl rfl rfl rfl ⟨logged, ht, ?_⟩
        (by simp [Stage.weight])
      simp only [Due, Subscription.deliver, Dispatcher.stop, hd, hr, hl]
      exact hv
    | abort cause =>
      simp only [ho, Dispatcher.answer, Prod.mk.injEq] at hs hv
      obtain ⟨rfl, rfl⟩ := hs
      refine h.shift (.loop (.stop (.ok ()))) hw rfl rfl rfl rfl ⟨logged, ht, ?_⟩
        (by simp [Stage.weight])
      simp only [Due, Subscription.deliver, Dispatcher.stop, hd, hr, hl]
      exact hv

theorem Underway.note {e : DecodeError}
    (h : Underway told node content v w s f (.loop (.note e))) {c : Bool}
    (hs : s.advance Loop.act c w = some (w', s')) :
    Goes told node content v (stepsLeft content f (.loop (.note e))) w' s' := by
  obtain ⟨logged, htold, ⟨hd, hr, hl⟩, hv⟩ := h.due
  rw [Subscription.advance, h.phase] at hs
  simp only [Stage.phase, Loop.act, ReplayLoop.act, Action.map, Subscription.perform,
    Option.some.injEq, Prod.mk.injEq] at hs
  obtain ⟨rfl, rfl⟩ := hs
  refine h.shift (.loop (.tell e)) (h.world.note _) rfl rfl rfl rfl
    ⟨[.truncatedRecord (.codec e)], ?_, hr, rfl, by simp [Subscription.goOn, hd, Dispatcher.fresh],
      hv⟩ (by simp [Stage.weight])
  rw [World.told_note, htold, hl, List.append_nil]
  rfl

theorem Underway.tell {e : DecodeError}
    (h : Underway told node content v w s f (.loop (.tell e))) {c : Bool}
    (hs : s.advance Loop.act c w = some (w', s')) :
    Goes told node content v (stepsLeft content f (.loop (.tell e))) w' s' := by
  obtain ⟨logged, htold, hr, hl, hf, hv⟩ := h.due
  rw [Subscription.advance, h.phase] at hs
  simp only [Stage.phase, Loop.act, ReplayLoop.act, Action.map, Subscription.perform,
    Option.some.injEq, Prod.mk.injEq] at hs
  obtain ⟨rfl, rfl⟩ := hs
  refine h.shift (.loop (.stop (.ok ()))) (h.world.note _) rfl rfl rfl rfl
    ⟨logged ++ (s.options.report (.codec e)).2.filter (·.isTold), ?_, ?_⟩ (by simp [Stage.weight])
  · rw [World.told_note, htold, List.append_assoc]
  · simp only [Due, Subscription.goOn, hf, hr, hl, List.append_nil]
    exact hv

theorem Underway.stop {r : Except Error Unit}
    (h : Underway told node content v w s f (.loop (.stop r))) {c : Bool}
    (hs : s.advance Loop.act c w = some (w', s')) :
    Goes told node content v (stepsLeft content f (.loop (.stop r))) w' s' := by
  obtain ⟨logged, htold, hv⟩ := h.due
  rw [Subscription.advance, h.phase] at hs
  simp only [Stage.phase, Loop.act, ReplayLoop.act, Action.map, Subscription.perform,
    Option.some.injEq, Prod.mk.injEq] at hs
  obtain ⟨rfl, rfl⟩ := hs
  exact h.shift (.ended (.returned r)) h.world rfl rfl rfl rfl ⟨logged, htold, hv⟩
    (by simp [Stage.weight])

theorem Underway.finish {e : Ending} (h : Underway told node content v w s f (.ended e))
    {c : Bool} (hs : s.advance Loop.act c w = some (w', s')) :
    Goes told node content v (stepsLeft content f (.ended e)) w' s' := by
  obtain ⟨logged, htold, hv⟩ := h.due
  rw [Subscription.advance, h.phase] at hs
  simp only [Stage.phase, h.world.live, Option.some.injEq, Prod.mk.injEq] at hs
  obtain ⟨rfl, rfl⟩ := hs
  refine h.shift .closed h.world rfl rfl rfl rfl ⟨logged, htold, ?_, ?_⟩
    (by simp [Stage.weight])
  · rw [hv]
  · rw [hv]

/-- Whatever the loop does next, the replay goes on. -/
theorem Underway.advance (h : Underway told node content v w s f stage) {c : Bool}
    (hs : s.advance Loop.act c w = some (w', s')) :
    Goes told node content v (stepsLeft content f stage) w' s' := by
  cases stage with
  | loop l =>
    cases l with
    | wait => exact h.wait hs
    | look m => exact h.look hs
    | offer m => exact h.offer hs
    | note e => exact h.note hs
    | tell e => exact h.tell hs
    | stop r => exact h.stop hs
  | called m => exact h.call hs
  | handling m => exact h.handle hs
  | ended e => exact h.finish hs
  | closed =>
    rw [Subscription.advance, h.phase] at hs
    simp [Stage.phase] at hs

/-! ## Whole replays -/

/-- Until a replay is over, its loop or its reader can go on. -/
theorem Underway.goes_on (h : Underway told node content v w s f stage) (hs : stage ≠ .closed) :
    s.advance Loop.act true w ≠ none ∨ s.readAhead w ≠ none := by
  cases stage with
  | loop l =>
    cases l with
    | wait =>
      obtain ⟨logged, -, hun, -⟩ := h.due
      have hcan := h.isCancelled hun.1
      cases hq : f.queued with
      | cons r rest =>
        left
        rw [Subscription.advance, h.phase]
        cases r <;> simp [Stage.phase, Loop.act, ReplayLoop.act, Action.map,
          Subscription.perform, Subscription.receive, h.feed, hcan, hq]
      | nil =>
        cases hdry : f.isDry with
        | true =>
          left
          rw [Subscription.advance, h.phase]
          simp [Stage.phase, Loop.act, ReplayLoop.act, Action.map, Subscription.perform,
            Subscription.receive, h.feed, hcan, hq, hdry]
        | false =>
          -- the loop waits for the reader, which has something to do
          right
          obtain ⟨f', hf⟩ := Feed.read?_isSome hq hdry content
          have hlive : s.isLive = true := by rw [Subscription.isLive, h.phase]; rfl
          simp [Subscription.readAhead, h.feed, hlive, h.opened, h.world.read, hf]
    | offer m =>
      left
      obtain ⟨logged, -, hun, -⟩ := h.due
      rw [Subscription.advance, h.phase]
      simp [Stage.phase, ReplayLoop.act_offer, Subscription.perform, h.isStopped hun.1]
    | look m | note e | tell e | stop r =>
      left
      rw [Subscription.advance, h.phase]
      simp [Stage.phase, Loop.act, ReplayLoop.act, Action.map, Subscription.perform]
  | called m =>
    left
    obtain ⟨logged, -, hun, -⟩ := h.due
    rw [Subscription.advance, h.phase]
    simp [Stage.phase, h.isStopped hun.1]
  | handling m =>
    left
    rw [Subscription.advance, h.phase]
    simp [Stage.phase, h.ungated]
  | ended e =>
    left
    rw [Subscription.advance, h.phase]
    simp [Stage.phase]
  | closed => exact absurd rfl hs

/-- What has come of a subscription that is over. -/
structure CameTo (v : Verdict) (told : List Event) (w : World) (s : Subscription Loop) : Prop where
  seen : s.seen = v.seen
  result : s.result = some v.result
  reported : s.reported = v.reported
  logged : w.told = told ++ v.logged

theorem Underway.cameTo (h : Underway told node content v w s f .closed) : CameTo v told w s := by
  obtain ⟨logged, htold, hresult, hv⟩ := h.due
  exact ⟨by rw [hv], hresult, by rw [hv], by rw [htold, hv]⟩

/-- The first and only subscription of a bus has come to `v`. -/
def AllCameTo (v : Verdict) (told : List Event) (b : Bus Loop) : Prop :=
  ∃ s, b.subscriptions = [s] ∧ CameTo v told b.world s

/-- A bus with one replay, which has at most `n` steps left. -/
def OneUnderway (told : List Event) (node : Nat) (content : Bytes) (v : Verdict) (n : Nat)
    (b : Bus Loop) : Prop :=
  ∃ s f stage, b.subscriptions = [s] ∧ Underway told node content v b.world s f stage ∧
    stepsLeft content f stage = n

theorem OneUnderway.step {n : Nat} {b b' : Bus Loop} (h : OneUnderway told node content v n b)
    (hb : Bus.Step Loop.act b b') : ∃ m, m < n ∧ OneUnderway told node content v m b' := by
  obtain ⟨s, f, stage, hs, hu, rfl⟩ := h
  rcases Bus.step_one hs hb with ⟨c, w, s', hadv, rfl, hs'⟩ | ⟨s', hread, hw, hs'⟩
  · obtain ⟨f', stage', hu', hlt⟩ := hu.advance hadv
    exact ⟨_, hlt, s', f', stage', hs', hu', rfl⟩
  · obtain ⟨f', stage', hu', hlt⟩ := hu.read hread
    rw [← hw] at hu'
    exact ⟨_, hlt, s', f', stage', hs', hu', rfl⟩

theorem OneUnderway.rest {n : Nat} {b : Bus Loop} (h : OneUnderway told node content v n b)
    (hb : ∀ b', ¬ Bus.Step Loop.act b b') : AllCameTo v told b := by
  obtain ⟨s, f, stage, hs, hu, -⟩ := h
  by_cases hstage : stage = .closed
  · subst hstage
    exact ⟨s, hs, hu.cameTo⟩
  · rcases hu.goes_on hstage with hgo | hgo
    · obtain ⟨b', hb'⟩ := Bus.step_of_advance hs hgo
      exact absurd hb' (hb b')
    · obtain ⟨b', hb'⟩ := Bus.step_of_readAhead hs hgo
      exact absurd hb' (hb b')

/-- A replay that begins is on its way to what its handler and the records of the file come to. -/
theorem underway_start {r : Subscribing} (hgate : r.gated = false)
    (hw : Undisturbed node content r.options.governor w)
    (hkeeps : r.handler.Keeps (Undisturbed node content r.options.governor) w []
      (Record.stream .start content)) :
    Underway w.told node content
      (replayed r.options r.handler [] (Record.stream .start content)) w
      (r.spawn (some (.start node)) (.replay .wait)) (.start node) (.loop .wait) := by
  refine ⟨rfl, rfl, rfl, hgate, hw, [], (List.append_nil _).symm, ⟨rfl, rfl, rfl⟩, ?_⟩
  rw [Feed.coming_start]
  exact ⟨hkeeps, rfl⟩

/-- In whatever order its reader and its loop go on, a replay ends, and comes to the same. -/
theorem replay_ends {r : Subscribing} (hgate : r.gated = false)
    (hw : Undisturbed node content r.options.governor w)
    (hkeeps : r.handler.Keeps (Undisturbed node content r.options.governor) w []
      (Record.stream .start content)) :
    Bus.Ends Loop.act
      (AllCameTo (replayed r.options r.handler [] (Record.stream .start content)) w.told)
      (Bus.alone w (r.spawn (some (.start node)) (.replay .wait))) :=
  rests_of_bound (fun _ _ _ h hb => OneUnderway.step h hb)
    (fun _ _ h hb => OneUnderway.rest h hb)
    ⟨_, _, _, rfl, underway_start hgate hw hkeeps, rfl⟩

end PubSub
