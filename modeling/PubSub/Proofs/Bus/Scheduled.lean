import PubSub.Proofs.Bus.OneThread

/-!
# A bus left to itself

A bus that is left to itself makes its steps in an order that is possible on one thread
(`settle_runs`), so that what holds of one thread holds of it.
-/

namespace PubSub

/-- A loop that does not wait makes a step. -/
theorem advance_of_not_waits {s : Subscription Loop} (h : s.phase.waits = false) (favours : Bool)
    (w : World) : ∃ w' s', s.advance Loop.act favours w = some (w', s') := by
  rw [Subscription.advance]
  cases hphase : s.phase with
  | running l =>
    have hact : l.act.waits = false := by simpa [hphase, Phase.waits] using h
    cases ha : l.act with
    | receive | awaitCancel => simp [ha, Action.waits] at hact
    | dispatch m next =>
      simp only [ha, Subscription.perform]
      split <;> exact ⟨_, _, rfl⟩
    | check | fail | cancel | cancelOwn | take | putBack | report | log | pause | finish | panic =>
      simp only [ha, Subscription.perform]
      exact ⟨_, _, rfl⟩
  | called m next =>
    simp only
    split <;> exact ⟨_, _, rfl⟩
  | handling | ended | «over» | abandoned => simp [hphase, Phase.waits] at h

namespace Thread

variable {t : Thread} {b b' : Bus Loop}

/-- The thread is as the bus, and the loop that has it is the one whose turn it is. -/
structure Mirrors (t : Thread) (b : Bus Loop) : Prop where
  bus : ∃ turn, t.bus = { b with turn := turn }
  busy : ∀ i, t.busy = some i → b.turn = i ∧ ∃ p, b.phase? i = some p ∧ p.waits = false

theorem loop?_turn (b : Bus Loop) (turn i : Nat) (favours : Bool) :
    ({ b with turn := turn } : Bus Loop).loop? Loop.act i favours =
      (b.loop? Loop.act i favours).map fun b' => { b' with turn := turn } := by
  simp only [Bus.loop?]
  cases b.subscriptions[i]? with
  | none => rfl
  | some s => cases hadv : s.advance Loop.act favours b.world <;> simp [hadv, Bus.set]

theorem reader?_turn (b : Bus Loop) (turn i : Nat) :
    ({ b with turn := turn } : Bus Loop).reader? i =
      (b.reader? i).map fun b' => { b' with turn := turn } := by
  simp only [Bus.reader?]
  cases b.subscriptions[i]? with
  | none => rfl
  | some s => cases hread : s.readAhead b.world <;> simp [hread, Bus.set]

theorem loop?_of_not_waits {i : Nat} {p : Phase Loop} (hp : b.phase? i = some p)
    (h : p.waits = false) (favours : Bool) : ∃ b', b.loop? Loop.act i favours = some b' := by
  obtain ⟨s, hs, rfl⟩ := Option.map_eq_some_iff.1 hp
  obtain ⟨w, s', hadv⟩ := advance_of_not_waits h favours b.world
  exact ⟨_, by simp only [Bus.loop?, hs, hadv, Option.bind_eq_bind, Option.bind_some]; rfl⟩

/-- The loop that has the thread makes the next step. -/
theorem Mirrors.goes_on (h : t.Mirrors b) {i : Nat} (hbusy : t.busy = some i) :
    ∃ b', b.stepOf Loop.act i = some b' ∧ b.step? Loop.act = some b' := by
  obtain ⟨hturn, p, hp, hwaits⟩ := h.busy i hbusy
  obtain ⟨b₁, hloop⟩ := loop?_of_not_waits hp hwaits true
  obtain ⟨s, hs, -⟩ := Option.map_eq_some_iff.1 hp
  have hi : i < b.subscriptions.length := (List.getElem?_eq_some_iff.1 hs).1
  have hstep : ∃ b', b.stepOf Loop.act i = some b' := by
    rw [Bus.stepOf]
    split
    · exact ⟨_, rfl⟩
    · rw [hloop]
      exact ⟨_, rfl⟩
  obtain ⟨b', hb'⟩ := hstep
  have hrange : List.range b.subscriptions.length =
      0 :: (List.range (b.subscriptions.length - 1)).map Nat.succ := by
    rw [← List.range_succ_eq_map]
    congr 1
    omega
  have hfirst : (b.turn + 0) % b.subscriptions.length = i := by
    rw [hturn]
    exact Nat.mod_eq_of_lt hi
  exact ⟨b', hb', by simp only [Bus.step?, hrange, List.findSome?_cons, hfirst, hb']⟩

/-- Whoever makes the next step may do so on the thread. -/
theorem Mirrors.next (h : t.Mirrors b) (hb : b.step? Loop.act = some b') :
    ∃ i, (t.busy = none ∨ t.busy = some i) ∧ b.stepOf Loop.act i = some b' := by
  cases hbusy : t.busy with
  | none =>
    rw [Bus.step?] at hb
    obtain ⟨k, -, hk⟩ := List.exists_of_findSome?_eq_some hb
    exact ⟨_, .inl rfl, hk⟩
  | some i =>
    obtain ⟨b₂, hstep, hfirst⟩ := h.goes_on hbusy
    exact ⟨i, .inr rfl, hstep.trans (hfirst.symm.trans hb)⟩

/-- A step of the bus is one on the thread. -/
theorem Mirrors.step (h : t.Mirrors b) (hb : b.step? Loop.act = some b') :
    ∃ c, t.Admits c ∧ (t.after c).Mirrors b' := by
  obtain ⟨i, hadmits, hstep⟩ := h.next hb
  obtain ⟨turn, hbus⟩ := h.bus
  rw [Bus.stepOf] at hstep
  cases hread : b.reader? i with
  | some b₁ =>
    rw [hread] at hstep
    obtain rfl := Option.some.inj hstep
    have hmove : b.apply (.move (.reader i)) = b₁ := by simp [Bus.apply, Bus.move, hread]
    refine ⟨.move (.reader i), trivial, ⟨turn, ?_⟩, fun j hj => ?_⟩
    · rw [after, Bus.apply, Bus.move, hbus, reader?_turn, hread]
      rfl
    · have hbusy : t.busy = some j := hj
      obtain rfl : i = j := by simpa [hbusy, eq_comm] using hadmits
      obtain ⟨-, p, hp, hwaits⟩ := h.busy i hbusy
      have hphase := Bus.phase?_reader (b := b) i i
      rw [hmove] at hphase
      exact ⟨rfl, p, hphase.trans hp, hwaits⟩
  | none =>
    rw [hread] at hstep
    obtain ⟨b₁, hloop, rfl⟩ := Option.map_eq_some_iff.1 hstep
    have hmove : t.bus.apply (.move (.loop i true)) = { b₁ with turn := turn } := by
      rw [Bus.apply, Bus.move, hbus, loop?_turn, hloop]
      rfl
    refine ⟨.move (.loop i true), hadmits, ⟨turn, hmove⟩, fun j hj => ?_⟩
    have hkeeps : t.busyAfter (.move (.loop i true)) = some j := hj
    rw [busyAfter, hmove] at hkeeps
    split at hkeeps
    · cases hkeeps
    · next hgoes =>
      obtain rfl := Option.some.inj hkeeps
      rw [Bool.not_eq_true, Bool.or_eq_false_iff, hbus] at hgoes
      obtain ⟨hstays, hgoeson⟩ := hgoes
      have hturn : b.givesWay Loop.act i = false := hstays
      refine ⟨by simp [hturn], ?_⟩
      cases hp : b₁.phase? i with
      | none =>
        have hall : (b₁.phase? i).all (·.waits) = false := hgoeson
        simp [hp] at hall
      | some p =>
        have hall : (b₁.phase? i).all (·.waits) = false := hgoeson
        rw [hp] at hall
        exact ⟨p, hp, hall⟩

theorem Mirrors.settle (fuel : Nat) (h : t.Mirrors b) :
    ∃ cs t', Runs t cs t' ∧ t'.Mirrors (b.settle Loop.act fuel) := by
  induction fuel generalizing t b with
  | zero => exact ⟨[], t, .rest t, h⟩
  | succ fuel ih =>
    rw [Bus.settle]
    cases hstep : b.step? Loop.act with
    | none => exact ⟨[], t, .rest t, h⟩
    | some b' =>
      obtain ⟨c, hc, hafter⟩ := h.step hstep
      obtain ⟨cs, t', hrun, hend⟩ := ih hafter
      exact ⟨c :: cs, t', .step hc hrun, hend⟩

/-- A bus that is left to itself makes its steps in an order that is possible on one thread, and
when it has come to rest no loop has the thread. -/
theorem settle_runs (b : Bus Loop) (fuel : Nat) :
    ∃ cs t, Runs ⟨b, none⟩ cs t ∧ (∃ turn, t.bus = { b.settle Loop.act fuel with turn := turn }) ∧
      ((b.settle Loop.act fuel).step? Loop.act = none → t.busy = none) := by
  have hstart : Mirrors ⟨b, none⟩ b := ⟨⟨b.turn, rfl⟩, fun i hi => by cases hi⟩
  obtain ⟨cs, t, hrun, hend⟩ := hstart.settle fuel
  refine ⟨cs, t, hrun, hend.bus, fun hrest => ?_⟩
  cases hbusy : t.busy with
  | none => rfl
  | some i =>
    obtain ⟨b', -, hb'⟩ := hend.goes_on hbusy
    rw [hrest] at hb'
    cases hb'

end Thread

end PubSub
