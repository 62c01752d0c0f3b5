import PubSub.Proofs.Bus.Chronicle
import PubSub.Subscription.Subscribe

/-!
# The lifecycle of a subscription

A subscription of a backend has one result, which it comes to once and then tells to all who ask,
and its handler is not called after a request to stop (`subscription_lifecycle`). This is so for any
number of calls that overlap, repeat and come back late, and whatever the other parties do.
-/

namespace PubSub

variable {σ : Type} {l : Life} {w : World} {s : Subscription σ} {t : List Happening}

def Phase.isHandling : Phase σ → Bool
  | .handling _ _ => true
  | _ => false

/-- The subscription is as the history tells. -/
structure Subscription.Matches (s : Subscription σ) (t : List Happening) : Prop where
  handled : s.seen.reverse = t.filterMap Happening.message?
  inFlight : s.phase.isHandling = Life.inFlight false t
  result : ∀ r, s.result = some r ↔ .captured r ∈ t

theorem Tracks.isHandling (h : Tracks l w s) : s.phase.isHandling = l.stage.isBusy := by
  have hstage := h.stage
  cases hp : s.phase <;> cases hr : s.result <;>
    simp only [hp, hr, Phase.stage?, Option.some.injEq, reduceCtorEq] at hstage <;>
    rw [← hstage] <;> rfl

theorem Follows.matches {revoked : Bool} (h : Follows (.start revoked) t w s) : s.Matches t where
  handled := by
    rw [← h.tracks.handled, Life.handled_afterAll, List.reverse_append, List.reverse_reverse]
    rfl
  inFlight := h.tracks.isHandling.trans h.runs.isBusy
  result r := by
    rw [h.tracks.result, ← h.runs.over_iff rfl]
    cases ((Life.start revoked).afterAll t).stage <;> simp [LifeStage.result?]

/-- Where the messages of a new subscription come from. -/
inductive Origin (w : World) (x : Subscribing) (n : Nat) : Option Feed → Loop → Prop
  | memory : (∀ root, w.subscribers[n]? ≠ some (.files root)) →
      Origin w x n none (.memory (.start n x.topic))
  | missing {root : Bytes} : w.subscribers[n]? = some (.files root) →
      w.files.locate (Path.join root (Utf8.ofText x.topic)) = .error .notFound →
      Origin w x n none (.replay (.stop (.ok ())))
  | file {root : Bytes} {node : Nat} : w.subscribers[n]? = some (.files root) →
      w.files.locate (Path.join root (Utf8.ofText x.topic)) = .ok node →
      Origin w x n (some (.start node)) (.replay .wait)

/-- A subscription of either backend is spawned. -/
theorem toSubscriber_origin {x : Subscribing} {n : Nat} {s : Subscription Loop}
    (h : x.toSubscriber w n = .ok s) :
    ∃ feed loop, Origin w x n feed loop ∧ s = x.spawn feed loop := by
  cases hstart : x.options.resolveStart .oldest [.oldest] with
  | error e =>
    simp only [Subscribing.toSubscriber, Subscribing.toFiles, Subscribing.toMemory, hstart] at h
    split at h <;> simp [bind, Except.bind] at h
  | ok p =>
    simp only [Subscribing.toSubscriber, Subscribing.toFiles, Subscribing.toMemory, hstart] at h
    split at h
    · next root hroot =>
      simp only [bind, Except.bind, pure, Except.pure] at h
      split at h
      · next node hnode => exact ⟨_, _, .file hroot hnode, (Except.ok.inj h).symm⟩
      · next e he =>
        split at h
        · next hmissing =>
          exact ⟨_, _, .missing hroot (hmissing ▸ he), (Except.ok.inj h).symm⟩
        · simp [throw, throwThe, MonadExceptOf.throw] at h
    · next hother => exact ⟨_, _, .memory hother, (Except.ok.inj h).symm⟩

theorem toSubscriber_spawn {x : Subscribing} {n : Nat} {s : Subscription Loop}
    (h : x.toSubscriber w n = .ok s) : ∃ feed loop, s = x.spawn feed loop := by
  obtain ⟨feed, loop, -, hs⟩ := toSubscriber_origin h
  exact ⟨feed, loop, hs⟩

/-- The history of a subscription of either backend has all the laws of a lifecycle, and at each
point the subscription is as its history tells. -/
theorem subscription_lifecycle {a : Attended Loop} {x : Subscribing} {n : Nat}
    {s : Subscription Loop} (hs : x.toSubscriber a.bus.world n = .ok s) (deeds : List (Deed Loop)) :
    let i := a.bus.subscriptions.length
    let history := (a.add s).chronicle Loop.act i deeds
    Life.Lifecycle (a.bus.world.isCancelled? x.options.governor) history ∧
      ∃ s', ((a.add s).afterAll Loop.act deeds).bus.subscriptions[i]? = some s' ∧
        s'.Matches history := by
  obtain ⟨feed, loop, rfl⟩ := toSubscriber_spawn hs
  obtain ⟨s', hs', hfollows⟩ :=
    chronicle_spawn Loop.act a x.topic x.options x.handler x.gated feed loop deeds
  exact ⟨hfollows.runs.lifecycle, s', hs', hfollows.matches⟩

/-! ## A close while the handler works -/

/-- A bus on which nothing has begun, with a subscriber in memory that holds two messages. -/
def twoPending : Attended Loop :=
  ⟨.start ((World.start ⟨[], [], fun _ _ => none⟩).addSubscriber "m"
    (.memory (NameMap.empty.insert "t" [.ofText "a", .ofText "b"]))), []⟩

/-- A handler that goes on, but waits for a permit before it answers. -/
def Subscribing.waiting : Subscribing :=
  ⟨"t", ⟨none, some "g", true⟩, fun _ _ => .continue, true⟩

/-- The close comes while the handler has the first message; all calls come back after that. -/
def closeMeanwhile : List (Deed Loop) :=
  [.poll 0, .wait 0] ++ List.replicate 4 (.move (.loop 0 true)) ++
    [.close 0, .comeBack 1, .move (.loop 0 true), .move (.release 0 1)] ++
    List.replicate 5 (.move (.loop 0 true)) ++
    [.comeBack 1, .close 0, .poll 0, .move (.cancel "g"), .comeBack 1, .move (.drop 0), .comeBack 0]

theorem lifecycle_closeMeanwhile :
    ∃ s, Subscribing.waiting.toSubscriber twoPending.bus.world 0 = .ok s ∧
      let history := (twoPending.add s).chronicle Loop.act 0 closeMeanwhile
      history = [.polled false, .begun (.ofText "a"), .asked, .answered (.flow .continue),
        .ended (.returned (.error .cancelled)), .captured (.ok ()), .told (.ok ()), .asked,
        .polled true, .revoked, .told (.ok ()), .asked, .told (.ok ())] ∧
      Life.Lifecycle false history ∧
        ∃ s', ((twoPending.add s).afterAll Loop.act closeMeanwhile).bus.subscriptions[0]? =
          some s' ∧ s'.Matches history :=
  ⟨Subscribing.waiting.spawn none (.memory (.start 0 "t")), rfl, rfl,
    subscription_lifecycle (a := twoPending) (x := .waiting) (n := 0) rfl closeMeanwhile⟩

end PubSub
