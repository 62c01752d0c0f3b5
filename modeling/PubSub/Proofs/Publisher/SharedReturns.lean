import Mathlib.Data.List.Perm.Basic
import Mathlib.Data.List.Range
import PubSub.Proofs.Publisher.Shared

/-!
# Calls on a shared log

Every call is in one place until it comes back, and keeps its handle. Once the closing is over,
calls come back refused and no file is changed any more (`Moves.over`).
-/

namespace PubSub

/-- The open file that a stage of a write works on. -/
def WriteStage.node? : WriteStage → Option Nat
  | .opened n | .appending n _ _ | .stopped n _ _ _ | .securing n => some n
  | .locked | .opening | .leaving _ => none

/-- What a call comes back with from a log that is closed. -/
def WriteReturn.refusal (w : WriteReturn) : Error :=
  if w.turn.call.cancelled then .cancelled else FileLog.closedError w.topic

/-- The file that a stage leaves open is the one that its next stage works on. -/
theorem Proceeds.node {h : LogHandle} {path : Bytes} {closed : Bool} {f : Files} {c : WriteCall}
    {stage : WriteStage} {s : WriteStep} (does : Proceeds h path closed f c stage s)
    (before : ∀ n, stage.node? = some n → h.file = some n) :
    ∀ n, s.stage.node? = some n → s.file = some n := by
  cases does with
  | turnedAway | admitted | fails | cuts | secures => exact fun n hn => by cases hn
  | finds | opens => exact fun n hn => hn
  | sizes | finishes | appends | stops => exact before

namespace SharedLog

variable {d d' : SharedLog} {m : LogMove}

/-! ## Handles -/

/-- Handles stay, and keep their topics. -/
theorem Moves.handle (moves : Moves d m d') {i : Nat} {h : LogHandle}
    (there : d.handles[i]? = some h) :
    ∃ h', d'.handles[i]? = some h' ∧ h'.topic = h.topic := by
  have replaced : ∀ (j : Nat) (x y : LogHandle), d.handles[j]? = some x → y.topic = x.topic →
      ∃ h', (d.handles.set j y)[i]? = some h' ∧ h'.topic = h.topic := by
    intro j x y hx hy
    by_cases hj : j = i
    · subst hj
      rw [there] at hx
      cases hx
      exact ⟨y, by rw [List.getElem?_set_self', there]; rfl, hy⟩
    · exact ⟨h, by rw [List.getElem?_set_ne hj]; exact there, rfl⟩
  cases moves with
  | makes =>
    refine ⟨h, ?_, rfl⟩
    rw [List.getElem?_append_left (List.getElem?_eq_some_iff.1 there).1]
    exact there
  | enters place turn x waiting hx => exact replaced _ x _ hx rfl
  | works j x turn stage s hx => exact replaced j x _ hx rfl
  | leaves j x turn result hx => exact replaced j x _ hx rfl
  | takes place topic j x left result closing next hx => exact replaced j x _ hx rfl
  | _ => exact ⟨h, there, rfl⟩

/-- Who waits, works or came back did so through a handle that is there, and works on the file that
is open in it. -/
structure Seated (d : SharedLog) : Prop where
  waiting : ∀ turn ∈ d.waiting,
    turn.call.cancelled = false ∧ ∃ h, d.handles[turn.call.handle]? = some h
  visits : ∀ (i : Nat) (h : LogHandle) (v : WriteVisit), d.handles[i]? = some h →
    h.visit = some v → v.turn.call.handle = i ∧ v.turn.call.cancelled = false ∧
      ∀ n, v.stage.node? = some n → h.file = some n
  returned : ∀ w ∈ d.returned, ∃ h, d.handles[w.turn.call.handle]? = some h ∧ h.topic = w.topic

theorem Seated.start (root : Bytes) (files : Files) : (start root files).Seated := by
  constructor <;> simp [SharedLog.start]

/-- Who came back did so through a handle that stays. -/
theorem Seated.returned_move (seated : d.Seated) (moves : Moves d m d') :
    ∀ w ∈ d.returned, ∃ h, d'.handles[w.turn.call.handle]? = some h ∧ h.topic = w.topic := by
  intro w hw
  obtain ⟨h, there, topic⟩ := seated.returned w hw
  obtain ⟨h', there', topic'⟩ := moves.handle there
  exact ⟨h', there', topic'.trans topic⟩

theorem Seated.waiting_move (seated : d.Seated) (moves : Moves d m d') :
    ∀ turn ∈ d.waiting,
      turn.call.cancelled = false ∧ ∃ h, d'.handles[turn.call.handle]? = some h := by
  intro turn hturn
  obtain ⟨live, h, there⟩ := seated.waiting turn hturn
  obtain ⟨h', there', -⟩ := moves.handle there
  exact ⟨live, h', there'⟩

theorem Seated.visits_move (seated : d.Seated) (moves : Moves d m d') (i : Nat) (h : LogHandle)
    (v : WriteVisit) (there : d'.handles[i]? = some h) (visit : h.visit = some v) :
    v.turn.call.handle = i ∧ v.turn.call.cancelled = false ∧
      ∀ n, v.stage.node? = some n → h.file = some n := by
  cases moves.becomes there with
  | stays _ there => exact seated.visits i h v there visit
  | new topic => cases visit
  | enters x turn hx free waiting handle =>
    cases visit
    exact ⟨handle, (seated.waiting turn waiting).1, fun n hn => by cases hn⟩
  | works x turn stage s hx working does =>
    cases visit
    obtain ⟨handle, live, node⟩ := seated.visits i x _ hx working
    exact ⟨handle, live, does.node node⟩
  | leaves x hx => cases visit
  | takes x hx free =>
    rw [free] at visit
    cases visit

theorem Seated.move (seated : d.Seated) (moves : Moves d m d') : d'.Seated := by
  have hwaiting := seated.waiting_move moves
  have hreturned := seated.returned_move moves
  have hvisits := seated.visits_move moves
  cases moves with
  | refused c h there =>
    refine ⟨hwaiting, hvisits, fun w hw => ?_⟩
    rcases List.mem_cons.1 hw with rfl | hw
    · exact ⟨h, there, rfl⟩
    · exact hreturned w hw
  | waits c h there live =>
    refine ⟨fun turn hturn => ?_, hvisits, hreturned⟩
    rcases List.mem_append.1 hturn with hturn | hturn
    · exact hwaiting turn hturn
    · rw [List.mem_singleton] at hturn
      subst hturn
      exact ⟨live, h, there⟩
  | enters place turn h waiting there free =>
    exact ⟨fun t ht => hwaiting t (List.mem_of_mem_eraseIdx ht), hvisits, hreturned⟩
  | leaves i h turn result there visit =>
    refine ⟨hwaiting, hvisits, fun w hw => ?_⟩
    rcases List.mem_cons.1 hw with rfl | hw
    · have handle := (seated.visits i h _ there visit).1
      refine ⟨{ h with visit := none }, ?_, rfl⟩
      subst handle
      change (d.handles.set turn.call.handle _)[turn.call.handle]? = _
      rw [List.getElem?_set_self', there]
      rfl
    · exact hreturned w hw
  | _ => exact ⟨hwaiting, hvisits, hreturned⟩

/-! ## Where the calls are -/

/-- A handle that is replaced gives way to the new one. -/
theorem set_perm {hs : List LogHandle} {i : Nat} {h : LogHandle} (there : hs[i]? = some h)
    (h' : LogHandle) : (h :: hs.set i h').Perm (h' :: hs) := by
  obtain ⟨bound, rfl⟩ := List.getElem?_eq_some_iff.1 there
  have new := (List.set_perm_cons_eraseIdx bound h').cons hs[i]
  have old := (List.getElem_cons_eraseIdx_perm bound).cons h'
  exact new.trans ((List.Perm.swap _ _ _).trans old)

/-- The calls that have the lock of their handle. -/
def inside (d : SharedLog) : List WriteTurn := d.handles.filterMap fun h => h.visit.map (·.turn)

/-- The calls wherever they are. -/
def turns (d : SharedLog) : List WriteTurn := d.returned.map (·.turn) ++ d.inside ++ d.waiting

/-- Every call made is in one place. -/
def Placed (d : SharedLog) : Prop := (d.turns.map (·.number)).Perm (List.range d.calls)

theorem Moves.turns (moves : Moves d m d') :
    d'.turns.Perm d.turns ∧ d'.calls = d.calls ∨
      ∃ c, d'.turns.Perm (⟨d.calls, c⟩ :: d.turns) ∧ d'.calls = d.calls + 1 := by
  have replaced : ∀ {i : Nat} {h : LogHandle}, d.handles[i]? = some h → ∀ h',
      ((h :: d.handles.set i h').filterMap fun h => h.visit.map (·.turn)).Perm
        ((h' :: d.handles).filterMap fun h => h.visit.map (·.turn)) :=
    fun there h' => (set_perm there h').filterMap _
  cases moves with
  | makes =>
    refine .inl ⟨?_, rfl⟩
    simp [SharedLog.turns, inside, LogHandle.fresh]
  | refused c => exact .inr ⟨c, .refl _, rfl⟩
  | waits c =>
    refine .inr ⟨c, ?_, rfl⟩
    have last := List.perm_append_singleton (⟨d.calls, c⟩ : WriteTurn) d.turns
    simpa [SharedLog.turns, inside] using last
  | enters place turn h waiting there free =>
    refine .inl ⟨?_, rfl⟩
    obtain ⟨bound, rfl⟩ := List.getElem?_eq_some_iff.1 waiting
    have taken := List.getElem_cons_eraseIdx_perm bound
    have moved := replaced there { h with visit := some ⟨d.waiting[place], .locked⟩ }
    simp only [List.filterMap_cons, free, Option.map_none, Option.map_some] at moved
    have all := (moved.append_right (d.waiting.eraseIdx place)).trans
      ((List.perm_middle.symm).trans (taken.append_left d.inside))
    simpa [SharedLog.turns, inside] using all.append_left (d.returned.map (·.turn))
  | works i h turn stage s there visit does =>
    refine .inl ⟨?_, rfl⟩
    have moved := replaced there { h with file := s.file, visit := some ⟨turn, s.stage⟩ }
    simp only [List.filterMap_cons, visit, Option.map_some, List.perm_cons] at moved
    exact (moved.append_left _).append_right _
  | leaves i h turn result there visit =>
    refine .inl ⟨?_, rfl⟩
    have moved := replaced there { h with visit := none }
    simp only [List.filterMap_cons, visit, Option.map_some, Option.map_none] at moved
    have all := List.perm_middle.symm.trans (moved.append_left (d.returned.map (·.turn)))
    exact all.append_right d.waiting
  | takes place topic i h left result closing next there free =>
    refine .inl ⟨?_, rfl⟩
    have moved := replaced there { h with file := none }
    simp only [List.filterMap_cons, free, Option.map_none] at moved
    rw [SharedLog.turns, inside, free]
    exact (moved.append_left _).append_right _
  | _ => exact .inl ⟨.refl _, rfl⟩

theorem Placed.run (placed : d.Placed) (moves : List LogMove) : (d.run moves).Placed := by
  induction moves generalizing d with
  | nil => exact placed
  | cons m moves ih =>
    refine ih ?_
    unfold Placed at placed ⊢
    rcases (move_moves d m).turns with ⟨turns, calls⟩ | ⟨c, turns, calls⟩
    · rw [calls]
      exact (turns.map _).trans placed
    · rw [calls, List.range_succ]
      exact (turns.map _).trans ((placed.cons _).trans (List.perm_append_singleton _ _).symm)

/-! ## After the closing -/

variable {r : Except Error Unit}

/-- Once the closing is over, nothing is open. -/
theorem Guarded.quiet (guarded : d.Guarded) (ended : d.closing = .over r) {i : Nat} {h : LogHandle}
    (there : d.handles[i]? = some h) : h.Quiet := by
  have emptied := guarded.emptied (by rw [ended]; rfl) i h there
  rw [ended] at emptied
  exact emptied.resolve_left List.not_mem_nil

/-- What a move can still do once the closing is over. -/
structure StaysClosed (r : Except Error Unit) (d d' : SharedLog) : Prop where
  closing : d'.closing = .over r
  nodes : d'.files.nodes = d.files.nodes
  home : d'.files.home = d.files.home
  returned : ∃ late, d'.returned = late ++ d.returned ∧ ∀ w ∈ late, w.result = .error w.refusal

theorem StaysClosed.same (closing : d'.closing = .over r) (files : d'.files = d.files)
    (returned : d'.returned = d.returned) : StaysClosed r d d' :=
  ⟨closing, by rw [files], by rw [files], [], returned, by simp⟩

/-- A call comes back refused. -/
theorem StaysClosed.refuses {w : WriteReturn} (closing : d'.closing = .over r)
    (files : d'.files = d.files) (returned : d'.returned = w :: d.returned)
    (refused : w.result = .error w.refusal) : StaysClosed r d d' :=
  ⟨closing, by rw [files], by rw [files], [w], returned, by simpa using refused⟩

theorem StaysClosed.trans {d'' : SharedLog} (h : StaysClosed r d d') (h' : StaysClosed r d' d'') :
    StaysClosed r d d'' := by
  obtain ⟨late, eq, refused⟩ := h.returned
  obtain ⟨late', eq', refused'⟩ := h'.returned
  refine ⟨h'.closing, h'.nodes.trans h.nodes, h'.home.trans h.home, late' ++ late, ?_, ?_⟩
  · rw [eq', eq, List.append_assoc]
  · intro w hw
    rcases List.mem_append.1 hw with hw | hw
    · exact refused' w hw
    · exact refused w hw

/-- Once the closing is over it stays so, no file is changed and calls come back refused. -/
theorem Moves.over (moves : Moves d m d') (guarded : d.Guarded) (seated : d.Seated)
    (ended : d.closing = .over r) : StaysClosed r d d' := by
  have elsewhere : ∀ {c : Closing}, d.closing = c → (∀ r, c ≠ .over r) → StaysClosed r d d' :=
    fun hc hne => absurd (hc.symm.trans ended) (hne r)
  cases moves with
  | idle | misses | meets | makes | waits | enters | asks | comesBack => exact .same ended rfl rfl
  | brakes => exact ⟨ended, rfl, rfl, [], rfl, by simp⟩
  | refused c h there cancelled =>
    exact .refuses ended rfl rfl (by rw [WriteReturn.refusal, if_pos cancelled])
  | works i h turn stage s there visit does =>
    have isClosed : d.closed = true := by rw [guarded.marked, ended]; rfl
    rw [isClosed] at does
    exact .same ended (Quiet.proceeds (guarded.quiet ended there) visit does).2.1 rfl
  | leaves i h turn result there visit =>
    have quiet := guarded.quiet ended there
    have live : turn.call.cancelled = false := (seated.visits i h _ there visit).2.1
    refine .refuses ended rfl rfl ?_
    rcases quiet.visit _ visit with locked | leaving
    · cases locked
    · cases leaving
      rw [WriteReturn.refusal, live]
      rfl
  | closes closing | marks _ closing | drains _ closing | ends _ _ closing =>
    exact elsewhere closing (by simp)
  | takes _ _ _ _ _ _ closing | secures _ _ _ _ _ closing | fails _ _ _ _ _ _ closing =>
    exact elsewhere closing (by simp)

theorem over_run (guarded : d.Guarded) (seated : d.Seated) (ended : d.closing = .over r)
    (moves : List LogMove) : StaysClosed r d (d.run moves) := by
  induction moves generalizing d with
  | nil => exact .same ended rfl rfl
  | cons m moves ih =>
    have moved := move_moves d m
    have first := moved.over guarded seated ended
    exact first.trans (ih (guarded.move moved) (seated.move moved) first.closing)

end SharedLog

end PubSub
