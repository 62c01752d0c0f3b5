import PubSub.Proofs.Subscription.Steps
import PubSub.Proofs.World

/-!
# What a step does to its subscription and to tokens

A subscription stops by itself when its handler is done or aborts, and when its loop fails it or
cancels it. A token is cancelled by its name only. As long as a subscription has not stopped, the
messages that its loop dispatches reach the handler (`turns_advance`), and this is kept when steps are
put together (`Turns.trans`).
-/

namespace PubSub

variable {σ : Type}

namespace Action

/-- The token that an action cancels by its name. -/
def names : Action σ → List String
  | .cancel token _ => [token]
  | _ => []

/-- Whether an action stops its own subscription. -/
def stops : Action σ → Bool
  | .fail _ _ | .cancelOwn _ => true
  | _ => false

def offers : Action σ → List Message
  | .dispatch m _ => [m]
  | _ => []

end Action

def Effect.token? : Effect → Option String
  | .cancel token => some token
  | _ => none

/-- Whether an answer of the handler stops its own subscription. -/
def Outcome.stops : Outcome → Bool
  | .flow .done | .flow (.abort _) => true
  | _ => false

/-- The message that was dispatched and is on its way to the handler. -/
def Phase.onItsWay : Phase σ → List Message
  | .called m _ => [m]
  | _ => []

namespace Subscription

/-- The tokens that the next step of the loop cancels by their names. -/
def names (drive : σ → Action σ) (s : Subscription σ) : List String :=
  match s.phase with
  | .running st => (drive st).names
  | .handling m _ => (s.handler s.seen.tail m).effects.filterMap Effect.token?
  | _ => []

/-- Whether the next step of the loop stops its own subscription. -/
def stops (drive : σ → Action σ) (s : Subscription σ) : Bool :=
  match s.phase with
  | .running st => (drive st).stops
  | .handling m _ => (s.handler s.seen.tail m).outcome.stops
  | _ => false

/-- The message that the next step of the loop dispatches. -/
def offers (drive : σ → Action σ) (s : Subscription σ) : List Message :=
  match s.phase with
  | .running st => (drive st).offers
  | _ => []

/-- The messages that the handler was given, and the one that is on its way to it. -/
def accepted (s : Subscription σ) : List Message := s.seen.reverse ++ s.phase.onItsWay

end Subscription

variable {drive : σ → Action σ} {c : Bool} {s s' s'' : Subscription σ} {w w' w'' : World}
  {names names' : List String} {stops stops' : Bool} {offers offers' : List Message}

/-! ## What becomes of one subscription -/

theorem Subscription.isStopped_eq (s : Subscription σ) (w : World) :
    s.isStopped w = (s.dispatcher.isStopped || w.isCancelled? s.options.governor) :=
  (Bool.or_assoc _ _ _).symm

/-- A world and a subscription come to others, in which these tokens were cancelled by their names and
the subscription dispatched these messages; `stops` tells whether it had a reason of its own to stop. -/
structure Turns (names : List String) (stops : Bool) (offers : List Message) (w : World)
    (s : Subscription σ) (w' : World) (s' : Subscription σ) : Prop where
  options : s'.options = s.options
  tokens : ∀ token, w'.isCancelled token = (names.contains token || w.isCancelled token)
  stopped : s'.dispatcher.isStopped = (s.dispatcher.isStopped || stops)
  /-- Once it has stopped, the handler is given no more messages. -/
  quiet : s.isStopped w = true → s'.seen = s.seen
  /-- As long as it has not stopped, all messages reach the handler and none is discarded. -/
  reaches : s'.isStopped w' = false → s'.accepted = s.accepted ++ offers ∧
    (.discarded ∈ s'.deliveries → .discarded ∈ s.deliveries)

namespace Turns

theorem governor (h : Turns names stops offers w s w' s')
    (hg : w.isCancelled? s.options.governor = true) :
    w'.isCancelled? s'.options.governor = true := by
  rw [h.options]
  cases hgov : s.options.governor with
  | none => simp [hgov, World.isCancelled?] at hg
  | some token =>
    have hw : w.isCancelled token = true := by simpa [hgov, World.isCancelled?] using hg
    have hw' : w'.isCancelled token = true := by rw [h.tokens, hw, Bool.or_true]
    simpa [World.isCancelled?] using hw'

/-- What has stopped stays so. -/
theorem isStopped (h : Turns names stops offers w s w' s') (hs : s.isStopped w = true) :
    s'.isStopped w' = true := by
  rw [Subscription.isStopped_eq, Bool.or_eq_true] at hs ⊢
  rcases hs with hs | hs
  · exact .inl (by rw [h.stopped, hs, Bool.true_or])
  · exact .inr (h.governor hs)

theorem still : Turns [] false [] w s w s where
  options := rfl
  tokens _ := rfl
  stopped := (Bool.or_false _).symm
  quiet _ := rfl
  reaches _ := ⟨(List.append_nil _).symm, id⟩

theorem trans (h : Turns names stops offers w s w' s')
    (h' : Turns names' stops' offers' w' s' w'' s'') :
    Turns (names ++ names') (stops || stops') (offers ++ offers') w s w'' s'' where
  options := h'.options.trans h.options
  tokens token := by
    rw [h'.tokens, h.tokens, List.contains_append, ← Bool.or_assoc, Bool.or_comm (names'.contains _)]
  stopped := by rw [h'.stopped, h.stopped, Bool.or_assoc]
  quiet hs := (h'.quiet (h.isStopped hs)).trans (h.quiet hs)
  reaches hgoes := by
    have hbefore : s'.isStopped w' = false := by
      cases hs : s'.isStopped w' with
      | false => rfl
      | true => rw [h'.isStopped hs] at hgoes; cases hgoes
    obtain ⟨haccepted, hdiscarded⟩ := h.reaches hbefore
    obtain ⟨haccepted', hdiscarded'⟩ := h'.reaches hgoes
    exact ⟨by rw [haccepted', haccepted, List.append_assoc], hdiscarded ∘ hdiscarded'⟩

/-- A step that leaves alone what others can see of the subscription. -/
theorem plain (hoptions : s'.options = s.options) (hdispatcher : s'.dispatcher = s.dispatcher)
    (hseen : s'.seen = s.seen) (hdeliveries : s'.deliveries = s.deliveries)
    (hphase : s'.phase.onItsWay = s.phase.onItsWay)
    (htokens : ∀ token, w'.isCancelled token = (names.contains token || w.isCancelled token)) :
    Turns names false [] w s w' s' where
  options := hoptions
  tokens := htokens
  stopped := by rw [hdispatcher, Bool.or_false]
  quiet _ := hseen
  reaches _ := by
    rw [Subscription.accepted, Subscription.accepted, hphase, hseen, hdeliveries, List.append_nil]
    exact ⟨rfl, id⟩

/-- A step with which the subscription stops. -/
theorem stop {d : Dispatcher} (hoptions : s'.options = s.options) (hdispatcher : s'.dispatcher = d)
    (hd : d.isStopped = true) (hseen : s'.seen = s.seen)
    (htokens : ∀ token, w'.isCancelled token = (names.contains token || w.isCancelled token)) :
    Turns names true [] w s w' s' where
  options := hoptions
  tokens := htokens
  stopped := by rw [hdispatcher, hd, Bool.or_true]
  quiet _ := hseen
  reaches hgoes := by
    rw [Subscription.isStopped_eq, hdispatcher, hd] at hgoes
    cases hgoes

/-- Tokens that no name was given of stay as they were. -/
theorem unnamed (h : w'.cancelled = w.cancelled) (token : String) :
    w'.isCancelled token = (([] : List String).contains token || w.isCancelled token) := by
  rw [World.isCancelled, h]
  rfl

theorem cancel : Turns [] true [] w s w s.cancel :=
  .stop rfl rfl (Bool.or_true _) rfl (unnamed rfl)

theorem drop : Turns [] true [] w s w s.drop :=
  .stop rfl rfl (Bool.or_true _) rfl (unnamed rfl)

theorem perform {st : σ} {act : Action σ} (hphase : s.phase = .running st)
    (h : s.perform c w act = some (w', s')) :
    Turns act.names act.stops act.offers w s w' s' := by
  have hnone : s.phase.onItsWay = [] := by rw [hphase]; rfl
  cases act with
  | check | report | log | pause | finish | panic =>
    cases h
    exact .plain rfl rfl rfl rfl hnone.symm (unnamed rfl)
  | cancel token next =>
    cases h
    refine .plain rfl rfl rfl rfl hnone.symm fun other => ?_
    simp [World.isCancelled, World.cancel, Action.names]
  | fail e next =>
    cases h
    exact .stop rfl rfl rfl rfl (unnamed rfl)
  | cancelOwn next =>
    cases h
    exact .stop rfl rfl (Bool.or_true _) rfl (unnamed rfl)
  | awaitCancel next =>
    rw [Subscription.perform] at h
    split at h
    · cases h
      exact .plain rfl rfl rfl rfl hnone.symm (unnamed rfl)
    · cases h
  | receive next =>
    simp only [Subscription.perform, Option.map_eq_some_iff, Prod.mk.injEq] at h
    obtain ⟨s₁, hs₁, rfl, rfl⟩ := h
    obtain ⟨feed, r, rfl⟩ := (receives hs₁).goOn
    exact .plain rfl rfl rfl rfl hnone.symm (unnamed rfl)
  | take k t next =>
    cases h
    exact .plain rfl rfl rfl rfl hnone.symm (unnamed (World.cancelled_take w k t))
  | putBack k t m next =>
    cases h
    exact .plain rfl rfl rfl rfl hnone.symm (unnamed (World.cancelled_setPending w k t _))
  | dispatch m next =>
    rw [Subscription.perform] at h
    split at h
    · next hstopped =>
      cases h
      refine ⟨rfl, unnamed rfl, (Bool.or_false _).symm, fun _ => rfl, fun hgoes => ?_⟩
      have hstays : (s.deliver .discarded next).isStopped w = true := hstopped
      rw [hstays] at hgoes
      cases hgoes
    · cases h
      refine ⟨rfl, unnamed rfl, (Bool.or_false _).symm, fun _ => rfl, fun _ => ⟨?_, id⟩⟩
      rw [Subscription.accepted, Subscription.accepted, hnone, List.append_nil]
      rfl

/-- What the handler does on the way cancels the tokens that it names, and its answer can stop its own
subscription. -/
theorem answer {m : Message} {next : Delivery → σ} (hphase : s.phase = .handling m next)
    (h : s.answer w m next = (w', s')) :
    let reaction := s.handler s.seen.tail m
    Turns (reaction.effects.filterMap Effect.token?) reaction.outcome.stops [] w s w' s' := by
  intro reaction
  have hnone : s.phase.onItsWay = [] := by rw [hphase]; rfl
  have htokens : ∀ token, (reaction.effects.foldl World.act w).isCancelled token =
      ((reaction.effects.filterMap Effect.token?).contains token || w.isCancelled token) := by
    intro token
    rw [w.isCancelled_acts]
    congr 1
    rw [Bool.eq_iff_iff, List.contains_iff_mem, List.contains_iff_mem, List.mem_filterMap]
    constructor
    · exact fun hmem => ⟨_, hmem, rfl⟩
    · rintro ⟨e, he, htoken⟩
      cases e with
      | cancel other =>
        obtain rfl : other = token := Option.some.inj htoken
        exact he
      | closeSubscriber | publish => cases htoken
  rw [Subscription.answer] at h
  cases ho : reaction.outcome with
  | panic text =>
    simp only [show (s.handler s.seen.tail m).outcome = .panic text from ho] at h
    cases h
    exact .plain rfl rfl rfl rfl hnone.symm htokens
  | flow flow =>
    simp only [show (s.handler s.seen.tail m).outcome = .flow flow from ho] at h
    cases h
    cases flow with
    | «continue» =>
      refine ⟨rfl, htokens, (Bool.or_false _).symm, fun _ => rfl, fun _ => ⟨?_, fun hmem => ?_⟩⟩
      · rw [Subscription.accepted, Subscription.accepted, hnone, List.append_nil]
        rfl
      · exact (List.mem_cons.1 hmem).resolve_left nofun
    | done | abort => exact .stop rfl rfl rfl rfl htokens

end Turns

theorem turns_advance (h : s.advance drive c w = some (w', s')) :
    Turns (s.names drive) (s.stops drive) (s.offers drive) w s w' s' := by
  rw [Subscription.advance] at h
  cases hphase : s.phase with
  | running st =>
    rw [hphase] at h
    have hperform := Turns.perform hphase h
    simpa only [Subscription.names, Subscription.stops, Subscription.offers, hphase] using hperform
  | called m next =>
    simp only [hphase] at h
    simp only [Subscription.names, Subscription.stops, Subscription.offers, hphase]
    split at h
    · next hstopped =>
      cases h
      refine ⟨rfl, Turns.unnamed rfl, (Bool.or_false _).symm, fun _ => rfl, fun hgoes => ?_⟩
      have hstays : (s.deliver .discarded next).isStopped w = true := hstopped
      rw [hstays] at hgoes
      cases hgoes
    · next hgoes =>
      cases h
      refine ⟨rfl, Turns.unnamed rfl, (Bool.or_false _).symm, fun hstopped => absurd hstopped hgoes,
        fun _ => ⟨?_, id⟩⟩
      rw [Subscription.accepted, Subscription.accepted, hphase, List.append_nil]
      simp [Phase.onItsWay]
  | handling m next =>
    simp only [hphase] at h
    split at h
    · cases h
    · have hanswer := Turns.answer hphase (Option.some.inj h)
      simpa only [Subscription.names, Subscription.stops, Subscription.offers, hphase] using hanswer
  | ended e =>
    simp only [hphase] at h
    cases h
    simp only [Subscription.names, Subscription.stops, Subscription.offers, hphase]
    exact .plain rfl rfl rfl rfl (by rw [hphase]; rfl) (Turns.unnamed rfl)
  | «over» | abandoned => simp [hphase] at h

end PubSub
