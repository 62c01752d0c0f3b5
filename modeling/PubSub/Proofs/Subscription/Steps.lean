import PubSub.Subscription.Basic

/-!
# Steps of a subscription

What a loop that waits for a record can get, and what its reader can do.
-/

namespace PubSub

variable {σ : Type} {w : World} {s s' : Subscription σ}

/-- All that a loop can get that waits for a record. -/
inductive Receives (w : World) (s : Subscription σ) (next : Received → σ) : Subscription σ → Prop
  | cancelled : s.isCancelled w = true → Receives w s next (s.goOn (next .cancelled))
  | finished (f : Feed) : s.feed = some f → f.isDry = true →
      Receives w s next (s.goOn (next .finished))
  | message (f : Feed) (m : Message) (queue : List (Except DecodeError Message)) :
      s.feed = some f → f.queued = .ok m :: queue →
      Receives w s next
        ({ s with feed := some { f with queued := queue } }.goOn (next (.message m)))
  | broken (f : Feed) (e : DecodeError) (queue : List (Except DecodeError Message)) :
      s.feed = some f → f.queued = .error e :: queue →
      Receives w s next
        ({ s with feed := some { f with queued := queue } }.goOn (next (.broken e)))

theorem receives {c : Bool} {next : Received → σ} (h : s.receive c w next = some s') :
    Receives w s next s' := by
  simp only [Subscription.receive] at h
  split at h
  · split at h
    · next hcancelled =>
      obtain rfl := Option.some.inj h
      exact .cancelled hcancelled
    · simp at h
  · next f hfeed =>
    split at h
    · next hcancelled =>
      obtain rfl := Option.some.inj h
      exact .cancelled hcancelled.1
    · split at h
      · next r queue hq =>
        cases r with
        | ok m =>
          obtain rfl := Option.some.inj h
          exact .message f m queue hfeed hq
        | error e =>
          obtain rfl := Option.some.inj h
          exact .broken f e queue hfeed hq
      · split at h
        · next hdry =>
          obtain rfl := Option.some.inj h
          exact .finished f hfeed hdry
        · split at h
          · next hcancelled =>
            obtain rfl := Option.some.inj h
            exact .cancelled hcancelled
          · simp at h

/-- Whatever a loop gets, it goes on and only its feed may have changed. -/
theorem Receives.goOn {next : Received → σ} (h : Receives w s next s') :
    ∃ feed r, s' = { s with feed := feed }.goOn (next r) := by
  cases h with
  | cancelled | finished => exact ⟨s.feed, _, rfl⟩
  | message f m queue | broken f e queue => exact ⟨_, _, rfl⟩

/-- The reader of a subscription changes its feed only. -/
theorem readAhead_eq_some (h : s.readAhead w = some s') :
    ∃ f f', s.feed = some f ∧ f.read? (w.files.read f.node) = some f' ∧
      s' = { s with feed := some f' } := by
  rw [Subscription.readAhead] at h
  split at h
  · simp at h
  · next f hfeed =>
    split at h
    · obtain ⟨f', hf, rfl⟩ := Option.map_eq_some_iff.1 h
      exact ⟨f, f', hfeed, hf, rfl⟩
    · simp at h

end PubSub
