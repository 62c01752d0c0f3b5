import PubSub.Proofs.Publisher.SharedRecords
import PubSub.Proofs.Publisher.SharedRest

/-!
# Logs that are closed

A log that tasks share never writes again once a closing has come back, whatever calls were under
way then and whatever calls follow (`closed_for_good`).
-/

namespace PubSub

namespace SharedLog

variable {d d' : SharedLog} {m : LogMove} {i j n : Nat} {h h' : LogHandle}

/-! ## Handles to one topic -/

/-- Something was written through the handle, or may be. -/
def Wrote (d : SharedLog) (i : Nat) (h : LogHandle) : Prop :=
  d.handles[i]? = some h ∧
    ((∃ n, (i, n) ∈ d.cut) ∨ (∃ w ∈ d.returned, w.turn.call.handle = i ∧ w.result = .ok ()) ∨
      ¬ h.Quiet)

/-- Of the handles to one topic only one is written through, and what is cut back through it is the
file of the topic. -/
structure Apart (d : SharedLog) : Prop where
  wrote : ∀ (i j : Nat) (h h' : LogHandle), d.Wrote i h → d.Wrote j h' → h.topic = h'.topic → i = j
  cut : ∀ (i n : Nat), (i, n) ∈ d.cut →
    ∃ h, d.handles[i]? = some h ∧ d.files.Names (d.path h.topic) n

theorem Apart.start (root : Bytes) (files : Files) : (start root files).Apart := by
  constructor <;> simp [SharedLog.start, Wrote]

/-- What is cut back by a move. -/
theorem Moves.cut_new (moves : Moves d m d') (hcut : (i, n) ∈ d'.cut) :
    (i, n) ∈ d.cut ∨ ∃ h turn stage s, d.handles[i]? = some h ∧ h.visit = some ⟨turn, stage⟩ ∧
      Proceeds h (d.path h.topic) d.closed d.files turn.call stage s ∧ s.cut = some n := by
  cases moves with
  | works k h turn stage s there visit does =>
    rcases List.mem_append.1 hcut with new | old
    · obtain ⟨n', cut, hpair⟩ := Option.map_eq_some_iff.1 (Option.mem_toList.1 new)
      cases hpair
      exact .inr ⟨h, turn, stage, s, there, visit, does, cut⟩
    · exact .inl old
  | _ => exact .inl hcut

/-- A closed log is written through no handle that was not written through before. -/
theorem Moves.wrote (moves : Moves d m d') (closed : d.closed = true) (apart : d.Apart)
    (seated : d.Seated) (wrote : d'.Wrote i h') : ∃ h, d.Wrote i h ∧ h.topic = h'.topic := by
  obtain ⟨there', why⟩ := wrote
  -- it is enough to find the handle among those from before
  have found : ∀ h, d.Wrote i h → ∃ h, d.Wrote i h ∧ h.topic = h'.topic := by
    intro h wrote
    obtain ⟨x, hx, topic⟩ := moves.handle wrote.1
    rw [there'] at hx
    cases hx
    exact ⟨h, wrote, topic.symm⟩
  rcases why with ⟨n, hcut⟩ | ⟨w, hw, rfl, ok⟩ | loud
  · rcases moves.cut_new hcut with old | ⟨h, turn, stage, s, there, visit, does, cut⟩
    · obtain ⟨h, there, -⟩ := apart.cut i n old
      exact found h ⟨there, .inl ⟨n, old⟩⟩
    · refine found h ⟨there, .inr (.inr fun quiet => ?_)⟩
      rw [closed] at does
      rw [(Quiet.proceeds quiet visit does).2.2] at cut
      cases cut
  · have old : w ∈ d.returned → ∃ h, d.Wrote w.turn.call.handle h ∧ h.topic = h'.topic := by
      intro hw
      obtain ⟨h, there, -⟩ := seated.returned w hw
      exact found h ⟨there, .inr (.inl ⟨w, hw, rfl, ok⟩)⟩
    cases moves with
    | refused c h there =>
      rcases List.mem_cons.1 hw with rfl | hw
      · cases ok
      · exact old hw
    | leaves k h turn result there visit =>
      rcases List.mem_cons.1 hw with rfl | hw
      · simp only at ok
        subst ok
        have handle : turn.call.handle = k := (seated.visits k h _ there visit).1
        subst handle
        refine found h ⟨there, .inr (.inr fun quiet => ?_)⟩
        rcases quiet.visit _ visit with locked | leaving
        · cases locked
        · cases leaving
      · exact old hw
    | _ => exact old hw
  · cases there : d.handles[i]? with
    | some h =>
      exact found h ⟨there, .inr (.inr fun quiet => loud (moves.quiet closed there quiet there'))⟩
    | none =>
      cases moves.becomes there' with
      | new topic => exact absurd ⟨rfl, by simp [LogHandle.fresh]⟩ loud
      | stays x hx | enters x turn hx | works x turn stage s hx | leaves x hx | takes x hx =>
        rw [there] at hx
        cases hx

/-- The handles are taken out of the cache of a log that is marked as closed. -/
theorem Moves.drained (moves : Moves d m d') (drained : d'.closing.isDrained = true) :
    d.closing.isMarked = true := by
  cases moves with
  | drains place closing | ends place result closing =>
    rw [closing]
    rfl
  | takes place topic k x left result closing | secures place topic k left result closing
  | fails place topic k left result e closing =>
    rw [closing]
    rfl
  | closes | marks => cases drained
  | _ => exact Closing.isMarked_of_isDrained drained

theorem Apart.move (apart : d.Apart) (guarded : d.Guarded) (seated : d.Seated)
    (recorded : d.Recorded) (moves : Moves d m d') : d'.Apart := by
  constructor
  · intro i j h h' hi hj topics
    cases drained : d'.closing.isDrained with
    | false =>
      have cached := (guarded.move moves).cached drained
      have first := cached i h hi.1
      rw [topics, cached j h' hj.1] at first
      exact (Option.some.inj first).symm
    | true =>
      have closed := guarded.marked.trans (moves.drained drained)
      obtain ⟨x, hx, topic⟩ := moves.wrote closed apart seated hi
      obtain ⟨y, hy, topic'⟩ := moves.wrote closed apart seated hj
      exact apart.wrote i j x y hx hy (topic.trans (topics.trans topic'.symm))
  · intro i n hcut
    obtain ⟨h, there, names⟩ : ∃ h, d.handles[i]? = some h ∧
        d.files.Names (d.path h.topic) n := by
      rcases moves.cut_new hcut with old | ⟨h, turn, stage, s, there, visit, does, cut⟩
      · exact apart.cut i n old
      · have node : stage.node? = some n := by
          cases does with
          | cuts => exact cut
          | _ => cases cut
        have file := (seated.visits i h _ there visit).2.2 n node
        exact ⟨h, there, recorded.named i h n there file⟩
    obtain ⟨h', there', topic⟩ := moves.handle there
    refine ⟨h', there', ?_⟩
    rw [moves.path, topic]
    exact names.grows moves.grows

/-! ## Where no write fails -/

/-- Files take what is written to them, so that no write to a file was stopped. -/
structure Smooth (d : SharedLog) : Prop where
  unbraked : ∀ size count, d.files.brake size count = none
  oneName : Files.OneName d.files
  stopped : ∀ (i n size : Nat) (c : Bytes), d.StoppedAt i n size →
    d.files.node? n ≠ some (.file c)
  cut : ∀ (i n : Nat) (c : Bytes), (i, n) ∈ d.cut → d.files.node? n ≠ some (.file c)

theorem Smooth.start {files : Files} (unbraked : ∀ size count, files.brake size count = none)
    (oneName : Files.OneName files) (root : Bytes) : (start root files).Smooth := by
  refine ⟨unbraked, oneName, ?_, by simp [SharedLog.start]⟩
  rintro i n size c ⟨h, v, written, e, there, -⟩
  simp [SharedLog.start] at there

/-- What has a name and is a file was one before. -/
theorem Moves.file_back (moves : Moves d m d') (oneName : Files.OneName d.files) {path c : Bytes}
    (names : d.files.Names path n) (hn : d'.files.node? n = some (.file c)) :
    ∃ c, d.files.node? n = some (.file c) := by
  obtain ⟨x, hx⟩ := names.node oneName
  cases moves with
  | works i h turn stage s there visit does =>
    rcases does.changes.1 with makes | ⟨k, touches⟩
    · exact ⟨c, makes.file_back hx hn⟩
    · exact touches.file_back hn
  | _ => exact ⟨c, hn⟩

theorem Moves.oneName (moves : Moves d m d') (oneName : Files.OneName d.files) :
    Files.OneName d'.files := by
  cases moves with
  | works i h turn stage s there visit does =>
    rcases does.changes.1 with makes | ⟨k, touches⟩
    · exact makes.oneName oneName
    · exact touches.oneName oneName
  | brakes => exact ⟨oneName.inside, oneName.apart⟩
  | _ => exact oneName

/-- A write that stops where no write to a file fails is one to something else. -/
theorem Moves.stopped_new (moves : Moves d m d')
    (unbraked : ∀ size count, d.files.brake size count = none) {size : Nat}
    (stopped : d'.StoppedAt i n size) :
    d.StoppedAt i n size ∨ ∃ h v, d.handles[i]? = some h ∧ h.visit = some v ∧
      v.stage.node? = some n ∧ ∀ c, d.files.node? n ≠ some (.file c) := by
  obtain ⟨h', v', written, e, there', visit', stage'⟩ := stopped
  cases moves.becomes there' with
  | stays _ there => exact .inl ⟨h', v', written, e, there, visit', stage'⟩
  | new topic => cases visit'
  | enters x turn hx =>
    cases visit'
    cases stage'
  | works x turn stage s hx visit does =>
    cases visit'
    simp only at stage'
    cases does with
    | stops n' size' written' m e' f' next refused =>
      cases stage'
      refine .inr ⟨x, _, hx, visit, rfl, fun c hc => ?_⟩
      rw [Files.append, hc] at refused
      simp only [unbraked] at refused
      cases refused
    | _ => cases stage'
  | leaves x hx => cases visit'
  | takes x hx free =>
    rw [free] at visit'
    cases visit'

theorem Smooth.move (smooth : d.Smooth) (seated : d.Seated) (recorded : d.Recorded)
    (apart : d.Apart) (moves : Moves d m d') (free : ∀ brake, m ≠ .brake brake) : d'.Smooth := by
  have unbraked : ∀ size count, d'.files.brake size count = none := by
    intro size count
    cases moves with
    | works i h turn stage s there visit does =>
      exact (congrFun (congrFun does.changes.2 size) count).trans (smooth.unbraked size count)
    | brakes brake => exact absurd rfl (free brake)
    | _ => exact smooth.unbraked size count
  -- what a stage works on has a name
  have named : ∀ (i n : Nat) (h : LogHandle) (v : WriteVisit), d.handles[i]? = some h →
      h.visit = some v → v.stage.node? = some n → d.files.Names (d.path h.topic) n :=
    fun i n h v there visit node =>
      recorded.named i h n there ((seated.visits i h v there visit).2.2 n node)
  have stays : ∀ {path : Bytes} {n : Nat}, d.files.Names path n →
      (∀ c, d.files.node? n ≠ some (.file c)) → ∀ c, d'.files.node? n ≠ some (.file c) := by
    intro path n names device c hc
    obtain ⟨c', hc'⟩ := moves.file_back smooth.oneName names hc
    exact device c' hc'
  refine ⟨unbraked, moves.oneName smooth.oneName, ?_, ?_⟩
  · intro i n size c stopped
    rcases moves.stopped_new smooth.unbraked stopped with old | ⟨h, v, there, visit, node, device⟩
    · obtain ⟨h, v, written, e, there, visit, stage⟩ := id old
      have node : v.stage.node? = some n := by rw [stage]; rfl
      exact stays (named i n h v there visit node) (fun c => smooth.stopped i n size c old) c
    · exact stays (named i n h v there visit node) device c
  · intro i n c hcut
    rcases moves.cut_new hcut with old | ⟨h, turn, stage, s, there, visit, does, cut⟩
    · obtain ⟨h, there, names⟩ := apart.cut i n old
      exact stays names (fun c => smooth.cut i n c old) c
    · cases does with
      | cuts n' size written e f' events hf =>
        cases cut
        exact stays (named i n h _ there visit rfl)
          (fun c => smooth.stopped i n size c ⟨h, _, written, e, there, visit, rfl⟩) c
      | _ => cases cut

/-! ## All that no move breaks -/

structure Sound (d : SharedLog) : Prop where
  guarded : d.Guarded
  seated : d.Seated
  placed : d.Placed
  anchored : d.Anchored
  recorded : d.Recorded
  apart : d.Apart

theorem Sound.start (root : Bytes) (files : Files) : (start root files).Sound where
  guarded := .start root files
  seated := .start root files
  placed := .refl _
  anchored := .start root files
  recorded := .start root files
  apart := .start root files

theorem Sound.move (sound : d.Sound) (m : LogMove) : (d.move m).Sound := by
  have moves := move_moves d m
  exact {
    guarded := sound.guarded.move moves
    seated := sound.seated.move moves
    placed := sound.placed.run [m]
    anchored := sound.anchored.move moves
    recorded := sound.recorded.move sound.seated moves
    apart := sound.apart.move sound.guarded sound.seated sound.recorded moves }

theorem Sound.run (sound : d.Sound) (moves : List LogMove) : (d.run moves).Sound := by
  induction moves generalizing d with
  | nil => exact sound
  | cons m moves ih => exact ih (sound.move m)

theorem Smooth.run (smooth : d.Smooth) (sound : d.Sound) (moves : List LogMove)
    (free : ∀ brake, .brake brake ∉ moves) : (d.run moves).Smooth := by
  induction moves generalizing d with
  | nil => exact smooth
  | cons m moves ih =>
    have first : ∀ brake, m ≠ .brake brake := by
      rintro brake rfl
      exact free brake List.mem_cons_self
    have rest : ∀ brake, .brake brake ∉ moves := fun brake hb =>
      free brake (List.mem_cons_of_mem _ hb)
    exact ih (smooth.move sound.seated sound.recorded sound.apart (move_moves d m) first)
      (sound.move m) rest

/-! ## The log from the first closing on -/

/-- A write to the topic was stopped, and what came behind its last whole record was cut off the
file. -/
def CutBack (d : SharedLog) (topic : String) (n : Nat) : Prop :=
  ∃ i h, d.handles[i]? = some h ∧ h.topic = topic ∧ (i, n) ∈ d.cut

/-- What the calls on a topic told as stored. -/
def stored (d : SharedLog) (topic : String) : List Message :=
  WriteReturn.stored (·.topic == topic) d.returned

/-- All that was stored to a topic was stored through one handle. -/
theorem Sound.through (sound : d.Sound) {w : WriteReturn} (hw : w ∈ d.returned)
    (ok : w.result = .ok ()) : d.through w.turn.call.handle = d.stored w.topic := by
  obtain ⟨h, there, topic⟩ := sound.seated.returned w hw
  refine WriteReturn.stored_congr fun x hx xok => ?_
  obtain ⟨h', there', topic'⟩ := sound.seated.returned x hx
  rw [Bool.eq_iff_iff, beq_iff_eq, beq_iff_eq]
  constructor
  · intro same
    rw [same, there] at there'
    cases there'
    exact topic'.symm.trans topic
  · intro same
    exact sound.apart.wrote _ _ h' h ⟨there', .inr (.inl ⟨x, hx, rfl, xok⟩)⟩
      ⟨there, .inr (.inl ⟨w, hw, rfl, ok⟩)⟩ (topic'.trans (same.trans topic.symm))

/-- What was told to be stored is in the file of the topic, if no write to another topic that leads
to the same file was cut back. -/
theorem Sound.carries (sound : d.Sound) {w : WriteReturn} (hw : w ∈ d.returned)
    (ok : w.result = .ok ()) : ∃ n c, d.files.locate (d.path w.topic) = .ok n ∧
      d.files.node? n = some (.file c) ∧ (FileLog.Carries c (d.stored w.topic) ∨
        ∃ other, other ≠ w.topic ∧ d.files.locate (d.path other) = .ok n ∧ d.CutBack other n) := by
  obtain ⟨n, names, ⟨c, hc⟩, undone | safe⟩ := sound.recorded.returned w hw ok
  · refine ⟨n, c, names.locate, hc, .inr ?_⟩
    obtain ⟨j, apart, hcut⟩ := undone
    obtain ⟨h, there, names'⟩ := sound.apart.cut j n hcut
    obtain ⟨x, hx, topic⟩ := sound.seated.returned w hw
    refine ⟨h.topic, fun same => apart ?_, names'.locate, j, h, there, rfl, hcut⟩
    exact sound.apart.wrote j w.turn.call.handle h x ⟨there, .inl ⟨n, hcut⟩⟩
      ⟨hx, .inr (.inl ⟨w, hw, rfl, ok⟩)⟩ (same.trans topic.symm)
  · rw [sound.through hw ok] at safe
    exact ⟨n, c, names.locate, hc, .inl (safe.took.carries hc)⟩

/-- In whatever order tasks look up topics, write and close: what calls told as stored is in the
file of their topic, one behind another, if writes to files do not fail. Where writes fail it is
there as well, unless the path of another topic leads to the same file and a write to that one was
cut back. All closings come to the same. Once one has come back, nothing is open, no file is made or
changed any more, and all calls that come back are refused. Nobody who was called waits for ever. -/
theorem closed_for_good (root : Bytes) (files : Files) (earlier later : List LogMove) :
    let d := (start root files).run earlier
    let d' := d.run later
    ((∀ size count, files.brake size count = none) → Files.OneName files →
      (∀ brake, .brake brake ∉ earlier) →
      ∀ w ∈ d.returned, w.result = .ok () → ∃ n c, d.files.locate (d.path w.topic) = .ok n ∧
        d.files.node? n = some (.file c) ∧ FileLog.Carries c (d.stored w.topic)) ∧
      (∀ w ∈ d.returned, w.result = .ok () → ∃ n c, d.files.locate (d.path w.topic) = .ok n ∧
        d.files.node? n = some (.file c) ∧ (FileLog.Carries c (d.stored w.topic) ∨
          ∃ other, other ≠ w.topic ∧ d.files.locate (d.path other) = .ok n ∧
            d.CutBack other n)) ∧
      (∀ r ∈ d.told, ∀ r' ∈ d'.told, r' = r) ∧
      (d.told ≠ [] →
        (∀ h ∈ d'.handles, h.file = none) ∧
        d'.files.nodes = d.files.nodes ∧ d'.files.home = d.files.home ∧
        ∃ late, d'.returned = late ++ d.returned ∧ ∀ w ∈ late, w.result = .error w.refusal) ∧
      Settles (fun d => d.AtRest ∧ (d.returned.map (·.turn.number)).Perm (List.range d.calls))
        d := by
  intro d d'
  have start := Sound.start root files
  have sound : d.Sound := start.run earlier
  have sound' : d'.Sound := sound.run later
  have closed : ∀ r ∈ d.told, StaysClosed r d d' := fun r hr =>
    over_run sound.guarded sound.seated (sound.guarded.told r hr) later
  refine ⟨fun unbraked oneName free w hw ok => ?_, fun w hw ok => sound.carries hw ok,
    fun r hr r' hr' => ?_, fun told => ?_, settles sound.anchored sound.seated sound.placed⟩
  · have smooth : d.Smooth := (Smooth.start unbraked oneName root).run start earlier free
    obtain ⟨n, c, located, hc, carries | ⟨other, -, -, i, h, -, -, hcut⟩⟩ := sound.carries hw ok
    · exact ⟨n, c, located, hc, carries⟩
    · exact absurd hc (smooth.cut i n c hcut)
  · have ended := (closed r hr).closing
    rw [sound'.guarded.told r' hr'] at ended
    exact Closing.over.inj ended
  · obtain ⟨r, hr⟩ := List.exists_mem_of_ne_nil _ told
    have stays := closed r hr
    refine ⟨fun h hh => ?_, stays.nodes, stays.home, stays.returned⟩
    obtain ⟨i, there⟩ := List.mem_iff_getElem?.1 hh
    exact (sound'.guarded.quiet stays.closing there).shut

/-- A message is written to `t`, and the log is closed. -/
def writtenAndClosed : List LogMove :=
  [.look "t", .create 0, .call ⟨0, [.ofText "a"], false, false⟩, .enter 0] ++
  List.replicate 7 (.advance 0) ++ [.close] ++ List.replicate 5 (.goOn 0) ++ [.comeBack]

/-- The message is in the file, and an empty batch that is written afterwards is refused. -/
theorem closed_for_good_written :
    let d := (start [47, 104] (.start [47, 104])).run writtenAndClosed
    let d' := d.run [.call ⟨0, [], true, false⟩, .enter 0, .advance 0, .advance 0]
    d.stored "t" = [.ofText "a"] ∧ (∃ n c, d.files.locate (d.path "t") = .ok n ∧
      d.files.node? n = some (.file c) ∧ FileLog.Carries c (d.stored "t")) ∧
      d'.returned.length = d.returned.length + 1 ∧
      ∃ late, d'.returned = late ++ d.returned ∧ ∀ w ∈ late, w.result = .error w.refusal := by
  intro d d'
  obtain ⟨taken, -, -, refused, -⟩ := closed_for_good [47, 104] (.start [47, 104]) writtenAndClosed
    [.call ⟨0, [], true, false⟩, .enter 0, .advance 0, .advance 0]
  let w : WriteReturn := ⟨⟨0, 0, [.ofText "a"], false, false⟩, "t", .ok ()⟩
  have back : d.returned = [w] := rfl
  have closed : d.told = [.ok ()] := rfl
  have hw : w ∈ d.returned := by rw [back]; exact List.mem_singleton_self w
  have free : ∀ brake, .brake brake ∉ writtenAndClosed := by simp [writtenAndClosed]
  have stored := taken (fun _ _ => rfl) (Files.oneName_start _) free w hw rfl
  obtain ⟨-, -, -, late⟩ := refused (by rw [closed]; exact List.cons_ne_nil _ _)
  exact ⟨rfl, stored, rfl, late⟩

/-- A batch of two messages is written to `t`. After its first record a message is written to `./t`,
which is the same file, and told as stored. Then the disk is full, and the batch is cut back. -/
def crossing : List LogMove :=
  [.look "t", .create 0, .look "./t", .create 0,
    .call ⟨0, [.ofText "a", .ofText "b"], true, false⟩, .enter 0] ++
  List.replicate 4 (.advance 0) ++
  [.call ⟨1, [.ofText "c"], false, false⟩, .enter 0] ++ List.replicate 7 (.advance 1) ++
  [.brake fun _ _ => some (0, .noSpace)] ++ List.replicate 2 (.advance 0)

/-- The message to `./t` is lost with what was cut back: two topics that share a file have a lock
each. -/
theorem crossing_loses :
    let d := (start [47, 104] (.start [47, 104])).run crossing
    d.returned.map (fun w => (w.topic, w.turn.call.batch, w.result.isOk)) =
        [("./t", [.ofText "c"], true)] ∧
      (d.files.readPath (d.path "./t")).toOption = some (Record.line (.ofText "a")) := by
  decide +kernel

end SharedLog

end PubSub
