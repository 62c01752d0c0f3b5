import PubSub.Proofs.Bus.Chronicle

/-!
# What reaches a subscription

Whatever the parties of a bus do, there is little that can happen to one subscription: its loop or
its reader makes a step, somebody asks it to stop or releases its handler, or others change the
shared world and cancel tokens (`Bus.influence`, `Attended.influence`).
-/

namespace PubSub

variable {σ : Type} {drive : σ → Action σ} {i : Nat} {b : Bus σ} {a : Attended σ}
  {s s' : Subscription σ} {w w' : World}

/-- What one deed can do to a subscription in a world. -/
inductive Influence (drive : σ → Action σ) (w : World) (s : Subscription σ) :
    World → Subscription σ → Prop
  /-- Others have made their steps. -/
  | others {w' : World} : w.cancelled ⊆ w'.cancelled → Influence drive w s w' s
  | loop {c : Bool} {w' : World} {s' : Subscription σ} :
      s.advance drive c w = some (w', s') → Influence drive w s w' s'
  | reader {s' : Subscription σ} : s.readAhead w = some s' → Influence drive w s w s'
  | asked : Influence drive w s w s.cancel
  | dropped : Influence drive w s w s.drop
  | released (n : Nat) : Influence drive w s w (s.release n)

namespace Influence

theorem still : Influence drive w s w s := .others (List.Subset.refl _)

end Influence

namespace Bus

theorem move_loop {c : Bool} (hs : b.subscriptions[i]? = some s)
    (h : s.advance drive c b.world = some (w', s')) :
    b.move drive (.loop i c) = { b.set i s' with world := w' } := by
  simp [move, loop?, hs, h]

theorem set_get (j : Nat) (hs : b.subscriptions[i]? = some s) (x' : Subscription σ) :
    (b.set j x').subscriptions[i]? = some (if j = i then x' else s) := by
  rw [set, List.getElem?_set]
  split
  · next hj =>
    have hlt : i < b.subscriptions.length := (List.getElem?_eq_some_iff.1 hs).1
    rw [if_pos (hj ▸ hlt)]
  · exact hs

theorem change_get (j : Nat) (hs : b.subscriptions[i]? = some s)
    (f : Subscription σ → Subscription σ) :
    (b.change j f).subscriptions[i]? = some (if j = i then f s else s) := by
  rw [change, List.getElem?_modify, hs]
  split <;> rfl

/-- What a move can do to subscription `i`. -/
theorem influence (drive : σ → Action σ) (hs : b.subscriptions[i]? = some s) (m : Move σ) :
    ∃ s', (b.move drive m).subscriptions[i]? = some s' ∧
      Influence drive b.world s (b.move drive m).world s' := by
  cases m with
  | loop j c =>
    cases hloop : b.loop? drive j c with
    | none =>
      have hmove : b.move drive (.loop j c) = b := by rw [move, hloop]; rfl
      rw [hmove]
      exact ⟨s, hs, .still⟩
    | some b' =>
      have hmove : b.move drive (.loop j c) = b' := by rw [move, hloop]; rfl
      obtain ⟨x, w, x', hx, hadv, rfl⟩ := loop?_eq_some hloop
      rw [hmove]
      refine ⟨_, set_get j hs x', ?_⟩
      by_cases hj : j = i
      · subst hj
        obtain rfl : x = s := Option.some.inj (hx.symm.trans hs)
        rw [if_pos rfl]
        exact .loop hadv
      · rw [if_neg hj]
        exact .others (cancelled_advance hadv)
  | reader j =>
    cases hreader : b.reader? j with
    | none =>
      have hmove : b.move drive (.reader j) = b := by rw [move, hreader]; rfl
      rw [hmove]
      exact ⟨s, hs, .still⟩
    | some b' =>
      have hmove : b.move drive (.reader j) = b' := by rw [move, hreader]; rfl
      obtain ⟨x, x', hx, hread, rfl⟩ := reader?_eq_some hreader
      rw [hmove]
      refine ⟨_, set_get j hs x', ?_⟩
      by_cases hj : j = i
      · subst hj
        obtain rfl : x = s := Option.some.inj (hx.symm.trans hs)
        rw [if_pos rfl]
        exact .reader hread
      · rw [if_neg hj]
        exact .still
  | cancel token => exact ⟨s, hs, .others (List.subset_cons_self token _)⟩
  | close j =>
    refine ⟨_, change_get j hs _, ?_⟩
    split
    · exact .asked
    · exact .still
  | drop j =>
    refine ⟨_, change_get j hs _, ?_⟩
    split
    · exact .dropped
    · exact .still
  | release j n =>
    refine ⟨_, change_get j hs _, ?_⟩
    split
    · exact .released n
    · exact .still
  | closeSubscriber n =>
    refine ⟨s, hs, .others ?_⟩
    rw [move, World.cancelled_closeSubscriber]
    exact List.Subset.refl _
  | start x =>
    have hlt : i < b.subscriptions.length := (List.getElem?_eq_some_iff.1 hs).1
    refine ⟨s, ?_, .still⟩
    rw [move, add, List.getElem?_append_left hlt]
    exact hs

end Bus

/-- Whether a deed is a step of loop `i`. -/
def Deed.isStepOf (i : Nat) : Deed σ → Bool
  | .move (.loop j _) => j = i
  | _ => false

namespace Attended

/-- What a deed can do to subscription `i`. -/
theorem influence (drive : σ → Action σ) (hs : a.bus.subscriptions[i]? = some s) (d : Deed σ) :
    ∃ s', (a.after drive d).bus.subscriptions[i]? = some s' ∧
      Influence drive a.bus.world s (a.after drive d).bus.world s' := by
  cases d with
  | move m => exact Bus.influence drive hs m
  | wait j =>
    rw [after]
    split <;> exact ⟨s, hs, .still⟩
  | close j =>
    rw [after]
    split
    · exact Bus.influence drive hs (.close j)
    · exact ⟨s, hs, .still⟩
  | comeBack place =>
    rw [after]
    split <;> exact ⟨s, hs, .still⟩
  | poll j => exact ⟨s, hs, .still⟩

end Attended

end PubSub
