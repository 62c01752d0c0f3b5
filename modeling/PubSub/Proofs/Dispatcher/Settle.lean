import PubSub.Proofs.Dispatcher.Serial

/-!
# All calls come back

The lock is never lost: whatever happened before, the calls of a shared dispatcher come back when
they are left to themselves and the handler answers (`Sound.comes_back`).
-/

namespace PubSub

variable {τ : Type} {h : Handler} {own : String} {d : SharedDispatcher τ}

/-- How many moves a call needs at most, at this stage, to come back. -/
def DispatchStage.movesLeft : DispatchStage → Nat
  | .locked => 5
  | .checked => 4
  | .handling _ => 3
  | .answering _ => 2
  | .leaving _ => 1

/-- How many moves the calls that were given the lock need at most. -/
def Visit.movesLeft : List (Visit τ) → Nat
  | [] => 0
  | visit :: others => visit.stage.movesLeft + movesLeft others

namespace SharedDispatcher

/-- How many moves all calls need at most to come back. -/
def movesLeft (d : SharedDispatcher τ) : Nat :=
  7 * d.passed.length + 6 * d.queue.length + Visit.movesLeft d.inside

theorem movesLeft_arrive {turn : Turn τ} {passed : List (Turn τ)}
    (first : d.passed = turn :: passed) : (d.move h own (.arrive 0)).movesLeft < d.movesLeft := by
  simp [move, movesLeft, first]
  omega

theorem movesLeft_lock (alone : d.Alone) (free : d.inside = []) {turn : Turn τ}
    {queue : List (Turn τ)} (first : d.queue = turn :: queue) :
    (d.move h own .lock).movesLeft < d.movesLeft := by
  obtain ⟨-, taken⟩ | ⟨visit, inside, -⟩ := alone
  · simp [move, movesLeft, first, taken, free, Visit.movesLeft,
      DispatchStage.movesLeft]
    omega
  · simp [free] at inside

theorem movesLeft_advance (alone : d.Alone) {visit : Visit τ} {others : List (Visit τ)}
    (first : d.inside = visit :: others) : (d.move h own (.advance 0)).movesLeft < d.movesLeft := by
  obtain ⟨free, -⟩ | ⟨⟨turn, stage⟩, inside, -⟩ := alone
  · simp [free] at first
  · simp only [move, inside, List.getElem?_cons_zero, movesLeft, Visit.movesLeft]
    cases stage with
    | locked =>
      by_cases stopped : d.state.isStopped
      · simp [proceed, stopped, reach, inside, Visit.movesLeft, DispatchStage.movesLeft]
      · simp [proceed, stopped, reach, inside, Visit.movesLeft, DispatchStage.movesLeft]
    | checked | handling =>
      simp [proceed, reach, inside, Visit.movesLeft, DispatchStage.movesLeft]
    | answering outcome =>
      cases outcome <;>
        simp [proceed, reach, release, inside, Visit.movesLeft, DispatchStage.movesLeft]
    | leaving delivery =>
      simp [proceed, release, inside, Visit.movesLeft, DispatchStage.movesLeft]

/-- Letting the calls go on is a run of their moves. -/
theorem settle_run (h : Handler) (own : String) (d : SharedDispatcher τ) (gated : Bool)
    (permits fuel : Nat) :
    ∃ moves : List (DispatchMove τ), (∀ m ∈ moves, m.isOutside = false) ∧
      (d.settle h own gated permits fuel).1 = d.run h own moves := by
  induction fuel generalizing d permits with
  | zero => exact ⟨[], by simp, rfl⟩
  | succ fuel ih =>
    have step (m : DispatchMove τ) (inner : m.isOutside = false) (permits : Nat) :
        ∃ moves : List (DispatchMove τ), (∀ m ∈ moves, m.isOutside = false) ∧
          (settle h own gated (d.move h own m) permits fuel).1 = d.run h own moves := by
      obtain ⟨moves, inners, same⟩ := ih (d.move h own m) permits
      refine ⟨m :: moves, ?_, same⟩
      rintro other (_ | ⟨_, member⟩)
      · exact inner
      · exact inners other member
    unfold settle
    split
    · exact step _ rfl _
    · split
      · exact ⟨[], by simp, rfl⟩
      · exact step _ rfl _
    · exact step _ rfl _
    · exact step _ rfl _
    · exact ⟨[], by simp, rfl⟩

theorem Alone.settle (alone : d.Alone) (permits : Nat) {fuel : Nat} (enough : d.movesLeft ≤ fuel) :
    (d.settle h own false permits fuel).1.movesLeft = 0 := by
  induction fuel generalizing d permits with
  | zero => exact Nat.le_zero.mp enough
  | succ fuel ih =>
    have step (m : DispatchMove τ) (permits : Nat)
        (less : (d.move h own m).movesLeft < d.movesLeft) :
        (settle h own false (d.move h own m) permits fuel).1.movesLeft = 0 :=
      ih (alone.move (move_moves h own alone m)) permits (by omega)
    unfold SharedDispatcher.settle
    split
    · next first => exact step _ _ (movesLeft_arrive first)
    · next first =>
      rw [if_neg (by simp)]
      exact step _ _ (movesLeft_advance alone first)
    · next first => exact step _ _ (movesLeft_advance alone first)
    · next free first => exact step _ _ (movesLeft_lock alone free first)
    · next passed inside queue => simp [movesLeft, passed, inside, queue, Visit.movesLeft]

theorem Alone.movesLeft_inside (alone : d.Alone) :
    d.inside.length ≤ Visit.movesLeft d.inside ∧
      Visit.movesLeft d.inside ≤ 5 * d.inside.length := by
  obtain ⟨free, -⟩ | ⟨visit, inside, -⟩ := alone
  · simp [free, Visit.movesLeft]
  · cases stage : visit.stage <;> simp [inside, stage, Visit.movesLeft, DispatchStage.movesLeft]

/-- Left to themselves, all calls come back. -/
theorem Sound.comes_back (sound : d.Sound h) (calm : h.NeverPanics) (permits : Nat) :
    (d.settleAll h own false permits).1.returned.length =
      (d.settleAll h own false permits).1.calls := by
  have enough : d.movesLeft ≤ 7 * (d.passed.length + d.queue.length + d.inside.length) := by
    have bound := sound.alone.movesLeft_inside
    unfold movesLeft
    omega
  have done : (d.settleAll h own false permits).1.movesLeft = 0 := sound.alone.settle permits enough
  have still : (d.settleAll h own false permits).1.Sound h := by
    obtain ⟨moves, -, same⟩ := settle_run h own d false permits
      (7 * (d.passed.length + d.queue.length + d.inside.length))
    rw [settleAll, same]
    exact sound.run calm moves
  have bound := still.alone.movesLeft_inside
  have counted := still.placed.length_eq
  simp only [turns, List.length_map, List.length_append, List.length_range] at counted
  unfold movesLeft at done
  omega

end SharedDispatcher

end PubSub
