import PubSub.Bus.Settled
import PubSub.Proofs.Rest

/-!
# Runs of a bus

The parties of a bus take steps in any order. `Ends` says that they come to rest whatever the order
is, and what holds then.
-/

namespace PubSub.Bus

variable {σ : Type}

/-- A step of one of the parties. -/
inductive Step (drive : σ → Action σ) (b : Bus σ) : Bus σ → Prop
  | loop {b' : Bus σ} (i : Nat) (favoursCancel : Bool) :
      b.loop? drive i favoursCancel = some b' → Step drive b b'
  | reader {b' : Bus σ} (i : Nat) : b.reader? i = some b' → Step drive b b'

/-- However the parties go on, they come to rest, and `P` holds then. -/
def Ends (drive : σ → Action σ) (P : Bus σ → Prop) (b : Bus σ) : Prop := Rests (Step drive) P b

/-! ## One subscription -/

/-- With one subscription, every step is one of its loop or of its reader. -/
theorem step_one {drive : σ → Action σ} {b b' : Bus σ} {s : Subscription σ}
    (hs : b.subscriptions = [s]) (h : Step drive b b') :
    (∃ c w s', s.advance drive c b.world = some (w, s') ∧ b'.world = w ∧ b'.subscriptions = [s']) ∨
      ∃ s', s.readAhead b.world = some s' ∧ b'.world = b.world ∧ b'.subscriptions = [s'] := by
  cases h with
  | loop i c h =>
    cases i with
    | zero =>
      simp only [loop?, hs, List.getElem?_cons_zero, Option.bind_eq_bind, Option.bind_some,
        Option.bind_eq_some_iff, Prod.exists, Option.pure_def, Option.some.injEq] at h
      obtain ⟨w, s', hadv, rfl⟩ := h
      exact .inl ⟨c, w, s', hadv, rfl, by simp [set, hs]⟩
    | succ i => simp [loop?, hs] at h
  | reader i h =>
    cases i with
    | zero =>
      simp only [reader?, hs, List.getElem?_cons_zero, Option.bind_eq_bind, Option.bind_some,
        Option.bind_eq_some_iff, Option.pure_def, Option.some.injEq] at h
      obtain ⟨s', hread, rfl⟩ := h
      exact .inr ⟨s', hread, rfl, by simp [set, hs]⟩
    | succ i => simp [reader?, hs] at h

theorem step_of_advance {drive : σ → Action σ} {b : Bus σ} {s : Subscription σ} {c : Bool}
    (hs : b.subscriptions = [s]) (h : s.advance drive c b.world ≠ none) :
    ∃ b', Step drive b b' := by
  obtain ⟨⟨w, s'⟩, hadv⟩ := Option.ne_none_iff_exists'.1 h
  refine ⟨{ b.set 0 s' with world := w }, .loop 0 c ?_⟩
  simp [loop?, hs, hadv]

theorem step_of_readAhead {drive : σ → Action σ} {b : Bus σ} {s : Subscription σ}
    (hs : b.subscriptions = [s]) (h : s.readAhead b.world ≠ none) : ∃ b', Step drive b b' := by
  obtain ⟨s', hread⟩ := Option.ne_none_iff_exists'.1 h
  exact ⟨b.set 0 s', .reader 0 (by simp [reader?, hs, hread])⟩

/-- A bus with one subscription ends if each step of its loop and of its reader keeps `I` with a
smaller number, and `P` holds where neither can make one. -/
theorem one_ends {drive : σ → Action σ} {P : Bus σ → Prop} {I : Nat → World → Subscription σ → Prop}
    (hadvance : ∀ n w s c w' s', I n w s → s.advance drive c w = some (w', s') →
      ∃ m, m < n ∧ I m w' s')
    (hread : ∀ n w s s', I n w s → s.readAhead w = some s' → ∃ m, m < n ∧ I m w s')
    (hrest : ∀ n b s, b.subscriptions = [s] → I n b.world s → s.advance drive true b.world = none →
      s.readAhead b.world = none → P b)
    {n : Nat} {b : Bus σ} {s : Subscription σ} (hs : b.subscriptions = [s]) (h : I n b.world s) :
    Ends drive P b := by
  have hone : ∃ x, b.subscriptions = [x] ∧ I n b.world x := ⟨s, hs, h⟩
  refine rests_of_bound (I := fun n b => ∃ x, b.subscriptions = [x] ∧ I n b.world x) ?_ ?_ hone
  · rintro n b b' ⟨x, hx, hI⟩ hb
    rcases step_one hx hb with ⟨c, w', x', hadv, rfl, hx'⟩ | ⟨x', hahead, hw, hx'⟩
    · obtain ⟨m, hlt, hm⟩ := hadvance n _ x c _ x' hI hadv
      exact ⟨m, hlt, x', hx', hm⟩
    · obtain ⟨m, hlt, hm⟩ := hread n _ x x' hI hahead
      exact ⟨m, hlt, x', hx', hw ▸ hm⟩
  · rintro n b ⟨x, hx, hI⟩ hstuck
    refine hrest n b x hx hI (Classical.byContradiction fun hadv => ?_)
      (Classical.byContradiction fun hahead => ?_)
    · obtain ⟨b', hb'⟩ := step_of_advance hx hadv
      exact hstuck b' hb'
    · obtain ⟨b', hb'⟩ := step_of_readAhead hx hahead
      exact hstuck b' hb'

end PubSub.Bus
