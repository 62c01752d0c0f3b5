import Mathlib.Algebra.BigOperators.Group.List.Basic
import Mathlib.Algebra.GroupWithZero.Nat
import PubSub.Proofs.Publisher.SharedReturns

/-!
# A shared log at rest

No call on a shared log waits for ever: each move of those who were called lowers `todo`, and as
long as somebody has not come back there is such a move (`settles`).
-/

namespace PubSub

/-- A move of somebody who was called and has not come back. -/
def LogMove.isInner : LogMove → Bool
  | .create _ | .enter _ | .advance _ | .goOn _ | .comeBack => true
  | .look _ | .call _ | .close | .brake _ => false

/-! ## What is left to do -/

/-- How many stages a write with so many messages has left. -/
def WriteStage.todo (messages : Nat) : WriteStage → Nat
  | .locked => messages + 6
  | .opening => messages + 5
  | .opened _ => messages + 4
  | .appending _ _ written => messages - written + 3
  | .stopped _ _ _ _ | .securing _ => 2
  | .leaving _ => 1

def LogHandle.todo (h : LogHandle) : Nat :=
  match h.visit with
  | none => 0
  | some v => v.stage.todo v.turn.call.batch.length

theorem LogHandle.todo_of_free {h : LogHandle} (free : h.visit = none) : h.todo = 0 := by
  rw [todo, free]

theorem LogHandle.todo_of_visit {h : LogHandle} {turn : WriteTurn} {stage : WriteStage}
    (visit : h.visit = some ⟨turn, stage⟩) : h.todo = stage.todo turn.call.batch.length := by
  rw [todo, visit]

/-- How many moves the closing has left, if it finds so many handles in the cache. -/
def Closing.todo (handles : Nat) : Closing → Nat
  | .idle | .over _ => 0
  | .begun => 2 * handles + 4
  | .marked => 2 * handles + 3
  | .emptying left _ => 2 * left.length + 1
  | .securing _ _ left _ => 2 * left.length + 2

theorem Closing.todo_succ (c : Closing) (n : Nat) : c.todo (n + 1) ≤ c.todo n + 2 := by
  cases c <;> simp only [todo] <;> omega

theorem Closing.todo_mono (c : Closing) {n k : Nat} (h : n ≤ k) : c.todo n ≤ c.todo k := by
  cases c <;> simp only [todo] <;> omega

theorem Proceeds.todo_lt {h : LogHandle} {path : Bytes} {closed : Bool} {f : Files} {c : WriteCall}
    {stage : WriteStage} {s : WriteStep} (does : Proceeds h path closed f c stage s) :
    s.stage.todo c.batch.length < stage.todo c.batch.length := by
  cases does with
  | appends n size written m f' next =>
    have := (List.getElem?_eq_some_iff.1 next).1
    simp only [WriteStage.todo]
    omega
  | _ =>
    simp only [WriteStage.todo]
    omega

theorem NameMap.length_insertEntry_le {α : Type} (name : String) (value : α)
    (es : List (String × α)) : (insertEntry name value es).length ≤ es.length + 1 := by
  induction es with
  | nil => exact Nat.le_refl _
  | cons e es ih =>
    unfold insertEntry
    split
    · exact Nat.le_refl _
    · split
      · exact Nat.le_succ _
      · exact Nat.succ_le_succ ih

namespace SharedLog

variable {d d' : SharedLog} {m : LogMove}

/-- A bound on the moves that are left to those who were called. -/
def todo (d : SharedLog) : Nat :=
  3 * d.missed.length + (d.waiting.map fun turn => turn.call.batch.length + 7).sum +
    (d.handles.map (·.todo)).sum + d.closing.todo d.cache.held.entries.length + d.closers

theorem sum_set {i : Nat} {h : LogHandle} (there : d.handles[i]? = some h) (h' : LogHandle) :
    h.todo + ((d.handles.set i h').map (·.todo)).sum =
      h'.todo + (d.handles.map (·.todo)).sum := by
  have swapped := ((set_perm there h').map (·.todo)).sum_eq
  simpa only [List.map_cons, List.sum_cons] using swapped

/-- Every move of somebody who was called changes nothing or brings the end nearer. -/
theorem Moves.todo_lt (moves : Moves d m d') (inner : m.isInner = true) :
    d' = d ∨ d'.todo < d.todo := by
  cases moves with
  | idle => exact .inl rfl
  | misses | refused | waits | closes | asks | brakes => cases inner
  | meets place topic missed =>
    obtain ⟨bound, -⟩ := List.getElem?_eq_some_iff.1 missed
    refine .inr ?_
    simp only [todo, List.length_eraseIdx_of_lt bound]
    omega
  | makes place topic missed new =>
    obtain ⟨bound, -⟩ := List.getElem?_eq_some_iff.1 missed
    have longer := NameMap.length_insertEntry_le topic d.handles.length d.cache.held.entries
    have closing := (d.closing.todo_mono longer).trans (d.closing.todo_succ _)
    refine .inr ?_
    simp only [todo, List.length_eraseIdx_of_lt bound, List.map_append, List.sum_append,
      List.map_singleton, List.sum_singleton, LogHandle.fresh, LogHandle.todo, NameMap.insert]
    omega
  | enters place turn h waiting there free =>
    obtain ⟨bound, rfl⟩ := List.getElem?_eq_some_iff.1 waiting
    have taken := ((List.getElem_cons_eraseIdx_perm bound).map
      fun turn : WriteTurn => turn.call.batch.length + 7).sum_eq
    have seat := sum_set there { h with visit := some ⟨d.waiting[place], .locked⟩ }
    rw [LogHandle.todo_of_free free, LogHandle.todo_of_visit rfl, WriteStage.todo] at seat
    simp only [List.map_cons, List.sum_cons] at taken
    refine .inr ?_
    simp only [todo]
    omega
  | works i h turn stage s there visit does =>
    have less := does.todo_lt
    have seat := sum_set there { h with file := s.file, visit := some ⟨turn, s.stage⟩ }
    rw [LogHandle.todo_of_visit visit, LogHandle.todo_of_visit rfl] at seat
    refine .inr ?_
    simp only [todo]
    omega
  | leaves i h turn result there visit =>
    have seat := sum_set there { h with visit := none }
    rw [LogHandle.todo_of_visit visit, LogHandle.todo_of_free rfl, WriteStage.todo] at seat
    refine .inr ?_
    simp only [todo]
    omega
  | marks place closing | drains place closing | ends place result closing
  | secures place topic n left result closing | fails place topic n left result e closing =>
    refine .inr ?_
    simp [todo, closing, Closing.todo]
  | takes place topic i h left result closing next there free =>
    obtain ⟨bound, -⟩ := List.getElem?_eq_some_iff.1 next
    have seat := sum_set there { h with file := none }
    have vacant : LogHandle.todo { h with file := none } = 0 := LogHandle.todo_of_free free
    rw [LogHandle.todo_of_free free, vacant] at seat
    have shorter : (h.file.elim (Closing.emptying (left.eraseIdx place) result) fun n =>
        .securing topic n (left.eraseIdx place) result).todo d.cache.held.entries.length <
          2 * left.length + 1 := by
      cases h.file <;>
        simp only [Option.elim, Closing.todo, List.length_eraseIdx_of_lt bound] <;> omega
    have before : d.closing.todo d.cache.held.entries.length = 2 * left.length + 1 := by
      rw [closing]
      rfl
    refine .inr ?_
    simp only [todo]
    omega
  | comesBack result closers ended asked =>
    refine .inr ?_
    simp only [todo, asked]
    omega

/-! ## Nobody waits for ever -/

/-- The cache leads to handles of its topics, the handles that the closing is to come to are there,
and nobody waits for a closing that has not begun. -/
structure Anchored (d : SharedLog) : Prop where
  cached : ∀ (topic : String) (i : Nat), d.cache.get? topic = some i →
    ∃ h, d.handles[i]? = some h ∧ h.topic = topic
  left : ∀ i ∈ d.closing.left, ∃ h, d.handles[i]? = some h
  asked : d.closing = .idle → d.closers = 0

theorem Anchored.start (root : Bytes) (files : Files) : (start root files).Anchored :=
  ⟨fun _ _ h => (by cases h), fun _ h => (by cases h), fun _ => rfl⟩

theorem Anchored.move (anchored : d.Anchored) (moves : Moves d m d') : d'.Anchored := by
  have asked := anchored.asked
  have cached : ∀ (topic : String) (i : Nat), d.cache.get? topic = some i →
      ∃ h, d'.handles[i]? = some h ∧ h.topic = topic := by
    intro topic i found
    obtain ⟨h, there, named⟩ := anchored.cached topic i found
    obtain ⟨h', there', kept⟩ := moves.handle there
    exact ⟨h', there', kept.trans named⟩
  have left : ∀ i ∈ d.closing.left, ∃ h, d'.handles[i]? = some h := by
    intro i hi
    obtain ⟨h, there⟩ := anchored.left i hi
    obtain ⟨h', there', -⟩ := moves.handle there
    exact ⟨h', there'⟩
  cases moves with
  | makes place topic missed new =>
    refine ⟨fun t i found => ?_, left, asked⟩
    simp only [TopicCache.get?, NameMap.get?_insert] at found
    split at found
    · next same =>
      cases found
      exact ⟨.fresh topic, by simp, same.symm⟩
    · exact cached t i found
  | closes first => exact ⟨cached, fun i hi => (by cases hi), fun h => (by cases h)⟩
  | asks later => exact ⟨cached, left, fun h => absurd h later⟩
  | marks => exact ⟨cached, fun i hi => (by cases hi), fun h => (by cases h)⟩
  | drains place marked =>
    refine ⟨fun t i found => (by cases found), fun i hi => ?_, fun h => (by cases h)⟩
    obtain ⟨⟨t, j⟩, he, rfl⟩ := List.mem_map.1 hi
    obtain ⟨h, there, -⟩ := cached t j (NameMap.get?_eq_some_iff.2 he)
    exact ⟨h, there⟩
  | takes place topic i h rest result closing next there free =>
    rw [closing] at left
    refine ⟨cached, fun j hj => ?_, fun h' => ?_⟩
    · have member : j ∈ (rest.eraseIdx place).map (·.2) := by
        cases file : h.file <;> simpa only [file, Option.elim, Closing.left] using hj
      obtain ⟨e, he, rfl⟩ := List.mem_map.1 member
      exact left _ (List.mem_map_of_mem (List.mem_of_mem_eraseIdx he))
    · cases file : h.file <;> simp [file] at h'
  | secures place topic n rest result closing | fails place topic n rest result e closing =>
    rw [closing] at left
    exact ⟨cached, left, fun h => (by cases h)⟩
  | ends => exact ⟨cached, fun i hi => (by cases hi), fun h => (by cases h)⟩
  | comesBack result closers ended =>
    refine ⟨cached, left, fun h => ?_⟩
    rw [ended] at h
    cases h
  | _ => exact ⟨cached, left, asked⟩

/-- Everybody who was called has come back. -/
structure AtRest (d : SharedLog) : Prop where
  missed : d.missed = []
  waiting : d.waiting = []
  free : ∀ (i : Nat) (h : LogHandle), d.handles[i]? = some h → h.visit = none
  closers : d.closers = 0
  closing : d.closing = .idle ∨ ∃ result, d.closing = .over result

/-- The call that has the lock of a handle can go on. -/
theorem advance_ne {i : Nat} {h : LogHandle} {turn : WriteTurn} {stage : WriteStage}
    (there : d.handles[i]? = some h) (visit : h.visit = some ⟨turn, stage⟩) :
    d.move (.advance i) ≠ d := by
  have changed : ∀ x : LogHandle, x.visit ≠ h.visit →
      (d.move (.advance i)).handles = d.handles.set i x → d.move (.advance i) ≠ d := by
    intro x hx handles same
    have seat : (d.handles.set i x)[i]? = some h := by rw [← handles, same, there]
    rw [List.getElem?_set_self', there] at seat
    exact hx (congrArg (·.visit) (Option.some.inj seat))
  obtain ⟨topic, file, v⟩ := h
  simp only at visit
  subst visit
  by_cases leaving : ∃ result, stage = .leaving result
  · obtain ⟨result, rfl⟩ := leaving
    refine changed ⟨topic, file, none⟩ (by simp) ?_
    simp only [move, there, advance]
  · have stays : ∀ result, stage ≠ .leaving result := fun result hr => leaving ⟨result, hr⟩
    have less := (proceed_proceeds ⟨topic, file, some ⟨turn, stage⟩⟩ (d.path topic) d.closed d.files
      turn.call stays).todo_lt
    let s := LogHandle.proceed ⟨topic, file, some ⟨turn, stage⟩⟩ (d.path topic) d.closed d.files
      turn.call stage
    have moved : s.stage ≠ stage := by
      intro same
      rw [show LogHandle.proceed _ _ _ _ _ stage = s from rfl, same] at less
      exact Nat.lt_irrefl _ less
    refine changed ⟨topic, s.file, some ⟨turn, s.stage⟩⟩ ?_ ?_
    · simpa using moved
    · simp only [move, there]
      cases stage with
      | leaving result => exact absurd rfl (stays result)
      | _ => rfl

/-- The closing can go on once no call has a lock. -/
theorem goOn_ne (anchored : d.Anchored)
    (free : ∀ (i : Nat) (h : LogHandle), d.handles[i]? = some h → h.visit = none)
    (idle : d.closing ≠ .idle) (ended : ∀ result, d.closing ≠ .over result) :
    d.move (.goOn 0) ≠ d := by
  have changed : (d.move (.goOn 0)).closing ≠ d.closing → d.move (.goOn 0) ≠ d :=
    fun h same => h (congrArg (·.closing) same)
  refine changed ?_
  cases closing : d.closing with
  | idle => exact absurd closing idle
  | «over» result => exact absurd closing (ended result)
  | begun => simp [move, goOn, closing]
  | marked => simp [move, goOn, closing]
  | securing topic n left result =>
    simp only [move, goOn, closing]
    split <;> simp
  | emptying left result =>
    cases left with
    | nil => simp [move, goOn, closing]
    | cons e left =>
      obtain ⟨topic, i⟩ := e
      obtain ⟨h, there⟩ := anchored.left i (by rw [closing]; exact List.mem_cons_self)
      have vacant := free i h there
      obtain ⟨name, file, visit⟩ := h
      simp only at vacant
      subst vacant
      cases file <;> simp [move, goOn, closing, there]

/-- As long as somebody has not come back, somebody can go on. -/
theorem atRest_of_stuck (anchored : d.Anchored) (seated : d.Seated)
    (stuck : ∀ m : LogMove, m.isInner = true → d.move m = d) : d.AtRest := by
  have free : ∀ (i : Nat) (h : LogHandle), d.handles[i]? = some h → h.visit = none := by
    intro i h there
    cases visit : h.visit with
    | none => rfl
    | some v => exact absurd (stuck (.advance i) rfl) (advance_ne there visit)
  have closing : d.closing = .idle ∨ ∃ result, d.closing = .over result := by
    by_contra going
    rw [not_or, not_exists] at going
    exact goOn_ne anchored free going.1 going.2 (stuck (.goOn 0) rfl)
  refine ⟨?_, ?_, free, ?_, closing⟩
  · cases missed : d.missed with
    | nil => rfl
    | cons topic rest =>
      have shorter : (d.move (.create 0)).missed = rest := by
        simp only [move, missed, List.getElem?_cons_zero, List.eraseIdx_cons_zero]
        split <;> rfl
      rw [stuck _ rfl, missed] at shorter
      exact absurd shorter (List.cons_ne_self _ _)
  · cases waiting : d.waiting with
    | nil => rfl
    | cons turn rest =>
      obtain ⟨-, h, there⟩ := seated.waiting turn (by rw [waiting]; exact List.mem_cons_self)
      have vacant := free _ h there
      obtain ⟨topic, file, visit⟩ := h
      simp only at vacant
      subst vacant
      have shorter : (d.move (.enter 0)).waiting = rest := by
        simp only [move, waiting, List.getElem?_cons_zero, there, List.eraseIdx_cons_zero]
      rw [stuck _ rfl, waiting] at shorter
      exact absurd shorter (List.cons_ne_self _ _)
  · rcases closing with idle | ⟨result, ended⟩
    · exact anchored.asked idle
    · cases closers : d.closers with
      | zero => rfl
      | succ n =>
        have fewer : (d.move .comeBack).closers = n := by simp only [move, ended, closers]
        rw [stuck _ rfl, closers] at fewer
        omega

/-- However those who were called go on, all of them come back, and `P` holds then. -/
inductive Settles (P : SharedLog → Prop) : SharedLog → Prop
  | rest {d : SharedLog} : (∀ m : LogMove, m.isInner = true → d.move m = d) → P d → Settles P d
  | step {d : SharedLog} : (∃ m : LogMove, m.isInner = true ∧ d.move m ≠ d) →
      (∀ m : LogMove, m.isInner = true → d.move m ≠ d → Settles P (d.move m)) → Settles P d

theorem settles (anchored : d.Anchored) (seated : d.Seated) (placed : d.Placed) :
    Settles (fun d => d.AtRest ∧ (d.returned.map (·.turn.number)).Perm (List.range d.calls)) d := by
  induction hn : d.todo using Nat.strongRecOn generalizing d with
  | ind n ih =>
    by_cases goes : ∃ m : LogMove, m.isInner = true ∧ d.move m ≠ d
    · refine .step goes fun m inner changes => ?_
      have moved := move_moves d m
      have less := (moved.todo_lt inner).resolve_left changes
      exact ih _ (hn ▸ less) (anchored.move moved) (seated.move moved) (placed.run [m]) rfl
    · have stuck : ∀ m : LogMove, m.isInner = true → d.move m = d := fun m inner =>
        Classical.byContradiction fun changes => goes ⟨m, inner, changes⟩
      have rest := atRest_of_stuck anchored seated stuck
      have nobody : d.inside = [] := by
        refine List.filterMap_eq_nil_iff.2 fun h hh => ?_
        obtain ⟨i, there⟩ := List.mem_iff_getElem?.1 hh
        rw [rest.free i h there]
        rfl
      refine .rest stuck ⟨rest, ?_⟩
      rw [Placed, turns, nobody, rest.waiting, List.append_nil, List.append_nil,
        List.map_map] at placed
      exact placed

end SharedLog

end PubSub
