import PubSub.Proofs.Bus

/-!
# A bus that is left to itself

Left to itself a bus makes steps of its parties, as long as there is one and fuel is left. If every
step lowers a number that the fuel is not less than, it comes to rest (`settle_rests`).
-/

namespace PubSub

variable {σ : Type} {drive : σ → Action σ} {w : World} {s : Subscription σ}

/-! ## Whose step is next -/

/-- A loop that has to wait, although a cancelled token would come first, has to wait. -/
theorem Subscription.advance_waits (h : s.advance drive true w = none) (c : Bool) :
    s.advance drive c w = none := by
  rw [advance] at h ⊢
  cases hphase : s.phase with
  | running st =>
    simp only [hphase] at h ⊢
    cases hact : drive st with
    | receive next =>
      simp only [hact, perform, Option.map_eq_none_iff] at h ⊢
      rw [receive] at h ⊢
      cases hfeed : s.feed with
      | none => simpa only [hfeed] using h
      | some f =>
        cases hcancelled : s.isCancelled w with
        | true => simp [hfeed, hcancelled] at h
        | false => simpa [hfeed, hcancelled] using h
    | check | dispatch | fail | cancel | cancelOwn | awaitCancel | take | putBack | report | log |
      pause | finish | panic =>
      simp only [hact] at h
      exact h
  | called | handling | ended =>
    simp only [hphase] at h ⊢
    exact h
  | «over» | abandoned => rfl

namespace Bus

variable {b b' : Bus σ}

theorem stepOf_eq_some {i : Nat} (h : b.stepOf drive i = some b') :
    ∃ b₁ turn, Step drive b b₁ ∧ b' = { b₁ with turn := turn } := by
  rw [stepOf] at h
  cases hread : b.reader? i with
  | some b₁ =>
    simp only [hread, Option.some.injEq] at h
    exact ⟨b₁, i, .reader i hread, h.symm⟩
  | none =>
    simp only [hread, Option.map_eq_some_iff] at h
    obtain ⟨b₁, hloop, rfl⟩ := h
    exact ⟨b₁, _, .loop i true hloop, rfl⟩

theorem stepOf_eq_none {i : Nat} (h : b.stepOf drive i = none) :
    b.reader? i = none ∧ ∀ c, b.loop? drive i c = none := by
  rw [stepOf] at h
  cases hread : b.reader? i with
  | some b₁ => simp [hread] at h
  | none =>
    simp only [hread, Option.map_eq_none_iff] at h
    refine ⟨rfl, fun c => ?_⟩
    rw [loop?] at h ⊢
    cases hs : b.subscriptions[i]? with
    | none => rfl
    | some s =>
      cases hadv : s.advance drive true b.world with
      | some r => simp [hs, hadv] at h
      | none => simp [Subscription.advance_waits hadv c]

/-- Everybody has a turn. -/
theorem exists_turn {n i : Nat} (turn : Nat) (hi : i < n) : ∃ k < n, (turn + k) % n = i := by
  have hturn : turn % n < n := Nat.mod_lt turn (Nat.zero_lt_of_lt hi)
  have hmod : ∀ k, (turn + k) % n = (turn % n + k) % n := fun k => (Nat.mod_add_mod turn n k).symm
  by_cases hle : turn % n ≤ i
  · refine ⟨i - turn % n, by omega, ?_⟩
    rw [hmod, Nat.add_sub_cancel' hle, Nat.mod_eq_of_lt hi]
  · refine ⟨i + n - turn % n, by omega, ?_⟩
    rw [hmod, Nat.add_sub_cancel' (by omega), Nat.add_mod_right, Nat.mod_eq_of_lt hi]

theorem step?_eq_some (h : b.step? drive = some b') :
    ∃ b₁ turn, Step drive b b₁ ∧ b' = { b₁ with turn := turn } := by
  obtain ⟨k, -, hk⟩ := List.exists_of_findSome?_eq_some h
  exact stepOf_eq_some hk

/-- A bus without a next step is at rest. -/
theorem step?_eq_none (h : b.step? drive = none) (b' : Bus σ) : ¬ Step drive b b' := by
  have hnone : ∀ i s, b.subscriptions[i]? = some s → b.stepOf drive i = none := by
    intro i s hs
    obtain ⟨k, hk, hturn⟩ := exists_turn b.turn (List.getElem?_eq_some_iff.1 hs).1
    have hall := List.findSome?_eq_none_iff.1 h k (List.mem_range.2 hk)
    rwa [hturn] at hall
  intro hstep
  cases hstep with
  | loop i c hloop =>
    cases hs : b.subscriptions[i]? with
    | none => simp [loop?, hs] at hloop
    | some s =>
      rw [(stepOf_eq_none (hnone i s hs)).2 c] at hloop
      cases hloop
  | reader i hread =>
    cases hs : b.subscriptions[i]? with
    | none => simp [reader?, hs] at hread
    | some s =>
      rw [(stepOf_eq_none (hnone i s hs)).1] at hread
      cases hread

/-! ## Coming to rest -/

/-- With an invariant `I n` that every step keeps with a smaller `n`, whoever's turn it is, a bus comes
to rest within `n` steps. -/
theorem settle_rests {I : Nat → Bus σ → Prop}
    (hstep : ∀ n b b', I n b → Step drive b b' → ∃ m, m < n ∧ I m b')
    (hturn : ∀ n b turn, I n b → I n { b with turn := turn }) {n fuel : Nat} (hn : n ≤ fuel)
    (hb : I n b) :
    ∃ m, I m (b.settle drive fuel) ∧ ∀ b', ¬ Step drive (b.settle drive fuel) b' := by
  induction fuel generalizing n b with
  | zero =>
    refine ⟨n, hb, fun b' hb' => ?_⟩
    obtain ⟨m, hm, -⟩ := hstep n b b' hb hb'
    omega
  | succ fuel ih =>
    rw [settle]
    cases hnext : b.step? drive with
    | none => exact ⟨n, hb, step?_eq_none hnext⟩
    | some b' =>
      obtain ⟨b₁, turn, hstep₁, rfl⟩ := step?_eq_some hnext
      obtain ⟨m, hm, hb₁⟩ := hstep n b b₁ hb hstep₁
      exact ih (by omega) (hturn m b₁ turn hb₁)

end Bus

end PubSub
