/-!
# Coming to rest

Something goes on by steps, of which several may be possible at a time. `Rests` says that it comes
to rest whichever are taken, and what holds then.
-/

namespace PubSub

variable {α : Type} {step : α → α → Prop} {P Q : α → Prop}

/-- However it goes on, it comes to rest, and `P` holds then. -/
inductive Rests (step : α → α → Prop) (P : α → Prop) : α → Prop
  | rest {a : α} : (∀ b, ¬ step a b) → P a → Rests step P a
  | step {a : α} : (∃ b, step a b) → (∀ b, step a b → Rests step P b) → Rests step P a

/-- An invariant `I n` that every step keeps with a smaller `n`, so that at most `n` are left. -/
theorem rests_of_bound {I : Nat → α → Prop}
    (hstep : ∀ n a b, I n a → step a b → ∃ m, m < n ∧ I m b)
    (hrest : ∀ n a, I n a → (∀ b, ¬ step a b) → P a) {n : Nat} {a : α} (ha : I n a) :
    Rests step P a := by
  induction n using Nat.strongRecOn generalizing a with
  | ind n ih =>
    by_cases hs : ∃ b, step a b
    · refine .step hs fun b hb => ?_
      obtain ⟨m, hlt, hm⟩ := hstep n a b ha hb
      exact ih m hlt hm
    · have hstuck : ∀ b, ¬ step a b := fun b h => hs ⟨b, h⟩
      exact .rest hstuck (hrest n a ha hstuck)

theorem Rests.mono {a : α} (h : Rests step P a) (hPQ : ∀ a, P a → Q a) : Rests step Q a := by
  induction h with
  | rest hstuck hP => exact .rest hstuck (hPQ _ hP)
  | step hsome _ ih => exact .step hsome ih

/-- Whatever holds at the end of all runs holds together at the end of one. -/
theorem Rests.both {a : α} (hP : Rests step P a) (hQ : Rests step Q a) : ∃ b, P b ∧ Q b := by
  induction hP with
  | rest hstuck hP =>
    cases hQ with
    | rest _ hQ => exact ⟨_, hP, hQ⟩
    | step hsome _ =>
      obtain ⟨b, hb⟩ := hsome
      exact absurd hb (hstuck b)
  | step hsome _ ih =>
    obtain ⟨b, hb⟩ := hsome
    cases hQ with
    | rest hstuck _ => exact absurd hb (hstuck b)
    | step _ hQ => exact ih b hb (hQ b hb)

end PubSub
