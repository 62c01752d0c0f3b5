import PubSub.Proofs.Subscription.Life
import PubSub.Proofs.Subscription.Steps
import PubSub.Proofs.World

/-!
# Subscriptions as they live

Every step of a subscription is told as happenings, and these follow the rules of a life
(`Tracks.advance`). So does what others do to the subscription or to its governing token.
-/

namespace PubSub

variable {σ : Type}

/-! ## What a step tells -/

/-- What others see of an action. -/
def Action.tells : Action σ → List Happening
  | .fail e _ => [.failed e]
  | .finish r => [.ended (.returned r)]
  | .panic text => [.ended (.panicked text)]
  | _ => []

namespace Subscription

/-- What happens to a subscription with its next step. -/
def doing (drive : σ → Action σ) (w : World) (s : Subscription σ) : List Happening :=
  match s.phase with
  | .running st => (drive st).tells
  | .called m _ => if s.isStopped w then [] else [.begun m]
  | .handling m _ =>
    match (s.handler s.seen.tail m).outcome with
    | .flow flow => [.answered (.flow flow)]
    | .panic text => [.answered (.panic text), .ended (.panicked text)]
  | .ended e => [.captured (conclude (w.isCancelled? s.options.governor) s.dispatcher.failure e)]
  | .over | .abandoned => []

/-- That the governing token is cancelled, if it was not so in `w` and is in `w'`. -/
def revoking (s : Subscription σ) (w w' : World) : List Happening :=
  if !w.isCancelled? s.options.governor && w'.isCancelled? s.options.governor then [.revoked]
  else []

end Subscription

/-! ## A subscription and its life -/

/-- The stage of a life that a phase and a result show. -/
def Phase.stage? : Phase σ → Option (Except Error Unit) → Option LifeStage
  | .running _, none | .called _ _, none => some .idle
  | .handling _ _, none => some .busy
  | .ended e, none => some (.ended e)
  | .over, some r => some (.over r)
  | _, _ => none

structure Tracks (l : Life) (w : World) (s : Subscription σ) : Prop where
  stopped : l.stopped = true → s.isStopped w = true
  revoked : l.revoked = w.isCancelled? s.options.governor
  failure : l.failure = s.dispatcher.failure
  handled : l.handled = s.seen
  stage : s.phase.stage? s.result = some l.stage

variable {drive : σ → Action σ} {l : Life} {w w' : World} {s s' : Subscription σ}

theorem tracks_spawn (topic : String) (options : SubscribeOptions) (handler : Handler)
    (gated : Bool) (feed : Option Feed) (st : σ) :
    Tracks (.start (w.isCancelled? options.governor)) w
      (.spawn topic options handler gated feed st) := by
  refine ⟨fun h => ?_, rfl, rfl, rfl, rfl⟩
  have hg : w.isCancelled? options.governor = true := h
  simp [Subscription.isStopped, Subscription.isCancelled, Subscription.spawn, hg]

/-- A subscription as others see it: all but what its own loop and reader work with. -/
theorem Tracks.same (h : Tracks l w s) (hoptions : s'.options = s.options)
    (hdispatcher : s'.dispatcher = s.dispatcher) (hseen : s'.seen = s.seen)
    (hstage : s'.phase.stage? s'.result = s.phase.stage? s.result) : Tracks l w s' := by
  obtain ⟨hstopped, hrevoked, hfailure, hhandled, hst⟩ := h
  refine ⟨fun hl => ?_, ?_, ?_, ?_, hstage.trans hst⟩
  · simpa [Subscription.isStopped, Subscription.isCancelled, hoptions, hdispatcher]
      using hstopped hl
  · rw [hoptions, hrevoked]
  · rw [hdispatcher, hfailure]
  · rw [hseen, hhandled]

/-- The token of a subscription is cancelled, by itself or on request. -/
theorem Tracks.cancel (h : Tracks l w s) (stopped : Bool) :
    Tracks { l with stopped := stopped } w s.cancel := by
  refine ⟨fun _ => ?_, h.revoked, h.failure, h.handled, h.stage⟩
  simp [Subscription.isStopped, Subscription.isCancelled, Subscription.cancel, Dispatcher.cancel]

theorem Tracks.result (h : Tracks l w s) : s.result = l.stage.result? := by
  have hstage := h.stage
  cases hp : s.phase <;> cases hr : s.result <;>
    simp only [hp, hr, Phase.stage?, Option.some.injEq, reduceCtorEq] at hstage <;>
    rw [← hstage] <;> rfl

theorem Tracks.outcome? (h : Tracks l w s) : s.outcome? = l.stage.result? := by
  rw [← h.result, Subscription.outcome?]
  have hstage := h.stage
  cases hp : s.phase <;> cases hr : s.result <;>
    simp only [hp, hr, Phase.stage?, reduceCtorEq] at hstage <;> rfl

/-- The history may happen, and after it the life is that of the subscription. -/
structure Follows (l : Life) (t : List Happening) (w : World) (s : Subscription σ) : Prop where
  runs : l.Runs t
  tracks : Tracks (l.afterAll t) w s

theorem Follows.append {t t' : List Happening} (h : Follows l t w s)
    (h' : Follows (l.afterAll t) t' w' s') : Follows l (t ++ t') w' s' := by
  refine ⟨Life.runs_append.2 ⟨h.runs, h'.runs⟩, ?_⟩
  rw [Life.afterAll_append]
  exact h'.tracks

/-! ## Steps of others -/

/-- What others do to the shared world tells nothing but that the governing token is cancelled. -/
theorem Tracks.world (h : Tracks l w s) (hw : w.cancelled ⊆ w'.cancelled) :
    Follows l (s.revoking w w') w' s := by
  have hkeep : s.isStopped w = true → s.isStopped w' = true := by
    simp only [Subscription.isStopped, Subscription.isCancelled, Bool.or_eq_true]
    rintro (hh | hc | hg)
    · exact .inl hh
    · exact .inr (.inl hc)
    · exact .inr (.inr (World.isCancelled?_of_subset hw hg))
  obtain ⟨hstopped, hrevoked, hfailure, hhandled, hstage⟩ := h
  rw [Subscription.revoking]
  cases hg : w.isCancelled? s.options.governor with
  | true =>
    have hrevoked' := hrevoked.trans (hg.trans (World.isCancelled?_of_subset hw hg).symm)
    exact ⟨trivial, fun hl => hkeep (hstopped hl), hrevoked', hfailure, hhandled, hstage⟩
  | false =>
    cases hg' : w'.isCancelled? s.options.governor with
    | true =>
      refine ⟨⟨trivial, trivial⟩, fun _ => ?_, hg'.symm, hfailure, hhandled, hstage⟩
      simp [Subscription.isStopped, Subscription.isCancelled, hg']
    | false =>
      have hrevoked' := hrevoked.trans (hg.trans hg'.symm)
      exact ⟨trivial, fun hl => hkeep (hstopped hl), hrevoked', hfailure, hhandled, hstage⟩

/-! ## Steps of its own -/

theorem cancelled_perform {c : Bool} {a : Action σ} (h : s.perform c w a = some (w', s')) :
    w.cancelled ⊆ w'.cancelled := by
  cases a with
  | cancel token next =>
    simp only [Subscription.perform, Option.some.injEq, Prod.mk.injEq] at h
    rw [← h.1]
    exact List.subset_cons_self token w.cancelled
  | dispatch m next =>
    rw [Subscription.perform] at h
    split at h <;> simp_all
  | awaitCancel next =>
    rw [Subscription.perform] at h
    split at h <;> simp_all
  | take n topic next =>
    simp only [Subscription.perform, Option.some.injEq, Prod.mk.injEq] at h
    rw [← h.1, World.cancelled_take]
    exact fun _ h => h
  | putBack n topic m next =>
    simp only [Subscription.perform, Option.some.injEq, Prod.mk.injEq] at h
    rw [← h.1, World.putBack, World.cancelled_setPending]
    exact fun _ h => h
  | receive next =>
    simp only [Subscription.perform, Option.map_eq_some_iff, Prod.mk.injEq] at h
    obtain ⟨_, -, rfl, -⟩ := h
    exact fun _ h => h
  | report | log | check | fail | cancelOwn | pause | finish | panic =>
    simp only [Subscription.perform, Option.some.injEq, Prod.mk.injEq] at h
    rw [← h.1]
    exact fun _ h => h

theorem cancelled_advance {c : Bool} (h : s.advance drive c w = some (w', s')) :
    w.cancelled ⊆ w'.cancelled := by
  rw [Subscription.advance] at h
  split at h
  · exact cancelled_perform h
  · split at h <;> simp_all
  · split at h
    · simp at h
    · next m next _ _ =>
      have hw : w' = (s.handler s.seen.tail m).effects.foldl World.act w := by
        rw [Subscription.answer] at h
        cases ho : (s.handler s.seen.tail m).outcome <;> simp_all
      rw [hw]
      exact w.cancelled_acts _
  · simp only [Option.some.injEq, Prod.mk.injEq] at h
    rw [← h.1]
    exact fun _ h => h
  · simp at h
  · simp at h

theorem Tracks.idle {st : σ} (h : Tracks l w s) (hphase : s.phase = .running st) :
    s.result = none ∧ l.stage = .idle := by
  have hstage := h.stage
  rw [hphase] at hstage
  cases hr : s.result with
  | none => simpa [hr, Phase.stage?, eq_comm] using hstage
  | some r => simp [hr, Phase.stage?] at hstage

/-- A step that tells nothing, with which the loop goes on. -/
theorem Tracks.goOn {st next : σ} (h : Tracks l w s) (hphase : s.phase = .running st)
    (hoptions : s'.options = s.options) (hdispatcher : s'.dispatcher = s.dispatcher)
    (hseen : s'.seen = s.seen) (hresult : s'.result = s.result)
    (hnext : s'.phase = .running next) : Follows l [] w s' := by
  refine ⟨trivial, h.same hoptions hdispatcher hseen ?_⟩
  rw [hphase, hnext, hresult]
  cases s.result <;> rfl

theorem Tracks.perform {st : σ} {c : Bool} (h : Tracks l w' s) (hphase : s.phase = .running st)
    {a : Action σ} (hs : s.perform c w a = some (w', s')) : Follows l a.tells w' s' := by
  obtain ⟨hresult, hidle⟩ := h.idle hphase
  cases a with
  | check | cancel | take | putBack | report | log | pause =>
    simp only [Subscription.perform, Option.some.injEq, Prod.mk.injEq] at hs
    obtain ⟨-, rfl⟩ := hs
    exact h.goOn hphase rfl rfl rfl rfl rfl
  | dispatch m next =>
    rw [Subscription.perform] at hs
    split at hs
    · simp only [Option.some.injEq, Prod.mk.injEq] at hs
      obtain ⟨-, rfl⟩ := hs
      exact h.goOn hphase rfl rfl rfl rfl rfl
    · simp only [Option.some.injEq, Prod.mk.injEq] at hs
      obtain ⟨-, rfl⟩ := hs
      refine ⟨trivial, h.same rfl rfl rfl ?_⟩
      rw [hphase, hresult]
      rfl
  | awaitCancel next =>
    rw [Subscription.perform] at hs
    split at hs
    · simp only [Option.some.injEq, Prod.mk.injEq] at hs
      obtain ⟨-, rfl⟩ := hs
      exact h.goOn hphase rfl rfl rfl rfl rfl
    · simp at hs
  | receive next =>
    simp only [Subscription.perform, Option.map_eq_some_iff, Prod.mk.injEq] at hs
    obtain ⟨s₁, hs₁, -, rfl⟩ := hs
    obtain ⟨feed, r, rfl⟩ := (receives hs₁).goOn
    exact h.goOn hphase rfl rfl rfl rfl rfl
  | cancelOwn next =>
    simp only [Subscription.perform, Option.some.injEq, Prod.mk.injEq] at hs
    obtain ⟨-, rfl⟩ := hs
    exact (h.cancel l.stopped).goOn hphase rfl rfl rfl rfl rfl
  | fail e next =>
    simp only [Subscription.perform, Option.some.injEq, Prod.mk.injEq] at hs
    obtain ⟨-, rfl⟩ := hs
    refine ⟨⟨hidle, trivial⟩, ⟨fun _ => rfl, h.revoked, rfl, h.handled, ?_⟩⟩
    simp [Subscription.goOn, hresult, Phase.stage?, Life.after, hidle, Action.tells]
  | finish | panic =>
    simp only [Subscription.perform, Option.some.injEq, Prod.mk.injEq] at hs
    obtain ⟨-, rfl⟩ := hs
    refine ⟨⟨hidle, trivial⟩, ⟨h.stopped, h.revoked, h.failure, h.handled, ?_⟩⟩
    rw [hresult]
    rfl

/-- The handler's answer. -/
theorem Tracks.answer {m : Message} {next : Delivery → σ} (h : Tracks l w' s)
    (hphase : s.phase = .handling m next) (hs : s.answer w m next = (w', s')) :
    Follows l (s.doing drive w) w' s' := by
  have hstage := h.stage
  rw [hphase] at hstage
  have hresult : s.result = none := by
    cases hr : s.result with
    | none => rfl
    | some r => simp [hr, Phase.stage?] at hstage
  have hbusy : l.stage = .busy := by simpa [hresult, Phase.stage?, eq_comm] using hstage
  rw [Subscription.doing, hphase]
  rw [Subscription.answer] at hs
  cases ho : (s.handler s.seen.tail m).outcome with
  | panic text =>
    simp only [ho, Prod.mk.injEq] at hs ⊢
    obtain ⟨-, rfl⟩ := hs
    refine ⟨⟨hbusy, rfl, trivial⟩, ⟨h.stopped, h.revoked, h.failure, h.handled, ?_⟩⟩
    simp only [hresult]
    rfl
  | flow flow =>
    simp only [ho, Prod.mk.injEq] at hs ⊢
    obtain ⟨-, rfl⟩ := hs
    cases flow with
    | «continue» =>
      refine ⟨⟨hbusy, trivial⟩, ⟨h.stopped, h.revoked, h.failure, h.handled, ?_⟩⟩
      simp only [Subscription.deliver, hresult]
      rfl
    | done =>
      refine ⟨⟨hbusy, trivial⟩, ⟨fun _ => rfl, h.revoked, h.failure, h.handled, ?_⟩⟩
      simp only [Subscription.deliver, hresult]
      rfl
    | abort cause =>
      refine ⟨⟨hbusy, trivial⟩, ⟨fun _ => rfl, h.revoked, rfl, h.handled, ?_⟩⟩
      simp only [Subscription.deliver, hresult]
      rfl

/-- Every step of a subscription follows the rules of a life. -/
theorem Tracks.advance {c : Bool} (h : Tracks l w s) (hs : s.advance drive c w = some (w', s')) :
    Follows l (s.revoking w w' ++ s.doing drive w) w' s' := by
  refine (h.world (cancelled_advance hs)).append ?_
  have ht := (h.world (cancelled_advance hs)).tracks
  generalize l.afterAll (s.revoking w w') = l' at ht
  have hstage := ht.stage
  rw [Subscription.advance] at hs
  cases hphase : s.phase with
  | running st =>
    rw [hphase] at hs
    rw [Subscription.doing, hphase]
    exact ht.perform hphase hs
  | called m next =>
    simp only [hphase] at hs hstage
    rw [Subscription.doing, hphase]
    have hresult : s.result = none ∧ l'.stage = .idle := by
      cases hr : s.result <;> simp_all [Phase.stage?]
    split at hs
    · next hstopped =>
      simp only [Option.some.injEq, Prod.mk.injEq] at hs
      obtain ⟨-, rfl⟩ := hs
      simp only [hstopped, if_true]
      refine ⟨trivial, ht.same rfl rfl rfl ?_⟩
      simp only [Subscription.deliver, hphase, hresult.1]
      rfl
    · next hgoes =>
      simp only [Option.some.injEq, Prod.mk.injEq] at hs
      obtain ⟨rfl, rfl⟩ := hs
      simp only [hgoes]
      have hl : l'.stopped = false := by
        cases hl : l'.stopped with
        | false => rfl
        | true => exact absurd (ht.stopped hl) hgoes
      refine ⟨⟨⟨hresult.2, hl⟩, trivial⟩, ⟨ht.stopped, ht.revoked, ht.failure, ?_, ?_⟩⟩
      · exact congrArg (m :: ·) ht.handled
      · simp only [hresult.1]
        rfl
  | handling m next =>
    simp only [hphase] at hs
    split at hs
    · simp at hs
    · exact ht.answer hphase (Option.some.inj hs)
  | ended e =>
    simp only [hphase, Option.some.injEq, Prod.mk.injEq] at hs hstage
    obtain ⟨rfl, rfl⟩ := hs
    have hresult : l'.stage = .ended e := by
      cases hr : s.result <;> simp_all [Phase.stage?]
    rw [Subscription.doing, hphase, ← ht.revoked, ← ht.failure]
    exact ⟨⟨⟨e, hresult, rfl⟩, trivial⟩, ⟨ht.stopped, ht.revoked, ht.failure, ht.handled, rfl⟩⟩
  | «over» | abandoned => simp [hphase] at hs

end PubSub
