import PubSub.Proofs.Subscription.Memory

/-!
# What loops do to pending messages

A loop on the pending messages of a topic takes the oldest one, and either gives it to its handler
or puts it back. In between the message is in its hands: it is neither pending nor handled. Each
step of a loop is one of these, or leaves the messages of the topic alone (`advance_trades`); only
closing the subscriber takes messages away.
-/

namespace PubSub

/-! ## Pending messages -/

namespace World

/-- Number `n` is a subscriber in memory. -/
def InMemory (w : World) (n : Nat) : Prop := ∃ shelf, w.subscribers[n]? = some (.memory shelf)

variable {w w' : World} {n : Nat}

theorem InMemory.of_subscribers (h : w.InMemory n) (hsame : w'.subscribers = w.subscribers) :
    w'.InMemory n := by
  obtain ⟨shelf, hn⟩ := h
  exact ⟨shelf, by rw [hsame, hn]⟩

theorem InMemory.setPending (h : w.InMemory n) (k : Nat) (topic : String) (ms : List Message) :
    (w.setPending k topic ms).InMemory n := by
  obtain ⟨shelf, hn⟩ := h
  rw [World.setPending]
  split
  · next pending hk =>
    by_cases hkn : k = n
    · subst hkn
      obtain ⟨hlt, -⟩ := List.getElem?_eq_some_iff.1 hn
      exact ⟨_, List.getElem?_set_self hlt⟩
    · exact ⟨shelf, (List.getElem?_set_ne hkn).trans hn⟩
  · exact ⟨shelf, hn⟩

theorem InMemory.pending_setPending (h : w.InMemory n) (topic : String) (ms : List Message) :
    (w.setPending n topic ms).pending n topic = ms := by
  obtain ⟨shelf, hn⟩ := h
  obtain ⟨hlt, -⟩ := List.getElem?_eq_some_iff.1 hn
  rw [World.setPending, hn, World.pending, List.getElem?_set_self hlt]
  simp [Shelf.messages, NameMap.get?_insert]

theorem pending_setPending_other {k : Nat} {t topic : String} (h : ¬ (k = n ∧ t = topic))
    (ms : List Message) : (w.setPending k t ms).pending n topic = w.pending n topic := by
  rw [setPending]
  split
  · next pending hk =>
    by_cases hkn : k = n
    · subst hkn
      obtain ⟨hlt, -⟩ := List.getElem?_eq_some_iff.1 hk
      have ht : topic ≠ t := fun ht => h ⟨rfl, ht.symm⟩
      rw [World.pending, World.pending, List.getElem?_set_self hlt, hk]
      simp [Shelf.messages, NameMap.get?_insert, ht]
    · rw [World.pending, World.pending, List.getElem?_set_ne hkn]
  · rfl

theorem pending_closeSubscriber (w : World) (k n : Nat) (topic : String) :
    (w.closeSubscriber k).pending n topic = if k = n then [] else w.pending n topic := by
  rw [closeSubscriber]
  split
  · next shelf hk =>
    obtain ⟨hlt, -⟩ := List.getElem?_eq_some_iff.1 hk
    by_cases hkn : k = n
    · subst hkn
      rw [if_pos rfl, pending, List.getElem?_set_self hlt]
      rfl
    · rw [if_neg hkn, pending, pending, List.getElem?_set_ne hkn]
  · next hk =>
    by_cases hkn : k = n
    · subst hkn
      rw [if_pos rfl, pending]
      split
      · next shelf hs => exact absurd hs (hk shelf)
      · rfl
    · rw [if_neg hkn]

theorem InMemory.closeSubscriber (h : w.InMemory n) (k : Nat) :
    (w.closeSubscriber k).InMemory n := by
  obtain ⟨shelf, hn⟩ := h
  rw [World.closeSubscriber]
  split
  · next pending hk =>
    obtain ⟨hlt, -⟩ := List.getElem?_eq_some_iff.1 hk
    by_cases hkn : k = n
    · subst hkn
      exact ⟨_, List.getElem?_set_self hlt⟩
    · exact ⟨shelf, (List.getElem?_set_ne hkn).trans hn⟩
  · exact ⟨shelf, hn⟩

theorem subscribers_publish (w : World) (n : Nat) (cancelled : Bool) (topic : String)
    (m : Message) : (w.publish n cancelled topic m).2.subscribers = w.subscribers := by
  rw [publish, callPublisher]
  split <;> rfl

/-- Whether an effect closes subscriber `n`. -/
def closes (w : World) (n : Nat) : Effect → Bool
  | .closeSubscriber name => w.subscriberNames.get? name = some n
  | _ => false

theorem subscriberNames_act (w : World) (e : Effect) :
    (w.act e).subscriberNames = w.subscriberNames := by
  cases e with
  | cancel token => rfl
  | closeSubscriber name =>
    rw [act]
    split
    · rfl
    · rw [closeSubscriber]
      split <;> rfl
  | publish name topic m =>
    rw [act]
    split
    · rfl
    · rw [publish, callPublisher]
      split <;> rfl

theorem pending_act (w : World) (e : Effect) (n : Nat) (topic : String) :
    (w.act e).pending n topic = if w.closes n e then [] else w.pending n topic := by
  cases e with
  | cancel token => rfl
  | closeSubscriber name =>
    rw [act, closes]
    cases hk : w.subscriberNames.get? name with
    | none => simp
    | some k =>
      simp only [pending_closeSubscriber, Option.some.injEq, decide_eq_true_eq]
  | publish name topic' m =>
    have hsame : (w.act (.publish name topic' m)).pending n topic = w.pending n topic := by
      rw [act]
      split
      · rfl
      · rw [pending, subscribers_publish, pending]
    exact hsame

theorem InMemory.act (h : w.InMemory n) (e : Effect) : (w.act e).InMemory n := by
  cases e with
  | cancel token => exact h
  | closeSubscriber name =>
    rw [World.act]
    split
    · exact h
    · exact h.closeSubscriber _
  | publish name topic m =>
    rw [World.act]
    split
    · exact h
    · exact h.of_subscribers (subscribers_publish _ _ _ _ _)

theorem pending_acts (w : World) (es : List Effect) (n : Nat) (topic : String) :
    (es.foldl World.act w).pending n topic =
      if es.any (w.closes n) then [] else w.pending n topic := by
  induction es generalizing w with
  | nil => rfl
  | cons e es ih =>
    have hcloses : (w.act e).closes n = w.closes n := by
      funext e'
      cases e' <;> simp [closes, subscriberNames_act]
    rw [List.foldl_cons, ih, hcloses, pending_act, List.any_cons]
    cases w.closes n e <;> simp

theorem InMemory.acts (h : w.InMemory n) (es : List Effect) :
    (es.foldl World.act w).InMemory n := by
  induction es generalizing w with
  | nil => exact h
  | cons e es ih => exact ih (h.act e)

end World

/-! ## Messages in hand -/

/-- The loop works on the messages of this topic. -/
def Loop.draws (n : Nat) (topic : String) : Loop → Bool
  | .memory l => l.subscriber = n ∧ l.topic = topic
  | _ => false

/-- The message that was taken and not put back. -/
def MemoryPoint.held : MemoryPoint → Option Message
  | .offer m | .putBack m => some m
  | _ => none

namespace Phase

def draws (n : Nat) (topic : String) : Phase Loop → Bool
  | .running l => l.draws n topic
  | .called _ next | .handling _ next => (next .ack).draws n topic
  | _ => false

/-- The message of the topic that the loop has in its hands. -/
def held (n : Nat) (topic : String) : Phase Loop → Option Message
  | .running (.memory l) => if l.subscriber = n ∧ l.topic = topic then l.point.held else none
  | .called m next => if (next .ack).draws n topic then some m else none
  | _ => none

/-- What is being delivered was offered by a loop. -/
def Wired : Phase Loop → Prop
  | .called m next | .handling m next => ∃ l, Loop.act l = .dispatch m next
  | _ => True

end Phase

namespace Subscription

/-- The messages of the topic with which the handler was called on the way from `s` to `s'`. -/
def given (n : Nat) (topic : String) (s s' : Subscription Loop) : List Message :=
  if s.phase.draws n topic then s'.seen.take (s'.seen.length - s.seen.length) else []

/-- Whether the handler closes subscriber `n` in the next step. -/
def closes (n : Nat) (w : World) (s : Subscription Loop) : Bool :=
  match s.phase with
  | .handling m _ => (s.handler s.seen.tail m).effects.any (w.closes n)
  | _ => false

variable {n : Nat} {topic : String} {s s' : Subscription Loop}

theorem given_of_seen (h : s'.seen = s.seen) : s.given n topic s' = [] := by
  rw [given, h, Nat.sub_self, List.take_zero, ite_self]

theorem given_cons {m : Message} (h : s'.seen = m :: s.seen) :
    s.given n topic s' = if s.phase.draws n topic then [m] else [] := by
  have hone : (m :: s.seen).length - s.seen.length = 1 := by simp
  rw [given, h, hone, List.take_succ_cons, List.take_zero]

end Subscription

/-- What a step does to the messages of a topic: the message in hand and those that are pending,
before and after, and in the middle what is given to the handler. -/
inductive Trade : Option Message → List Message → List Message → Option Message → List Message →
    Prop
  | nothing (h : Option Message) (ms : List Message) : Trade h ms [] h ms
  | take (m : Message) (ms : List Message) : Trade none (m :: ms) [] (some m) ms
  | give (m : Message) (ms : List Message) : Trade (some m) ms [m] none ms
  | putBack (m : Message) (ms : List Message) : Trade (some m) ms [] none (m :: ms)

/-- No message comes from elsewhere or gets lost, and their order stays. -/
theorem Trade.conserves {h h' : Option Message} {ms ms' given : List Message}
    (htrade : Trade h ms given h' ms') : h.toList ++ ms = given ++ (h'.toList ++ ms') := by
  cases htrade with
  | nothing | take | give | putBack => rfl

/-! ## What an action does -/

/-- The loop may go on as `l` after the action. -/
def Action.Leads : Action Loop → Loop → Prop
  | .check next, l => ∃ b, l = next b
  | .dispatch _ next, l => ∃ d, l = next d
  | .take _ _ next, l => ∃ m, l = next m
  | .receive next, l => ∃ r, l = next r
  | .fail _ next, l | .cancel _ next, l | .cancelOwn next, l | .awaitCancel next, l
  | .putBack _ _ _ next, l | .report _ next, l | .log _ next, l | .pause next, l => l = next
  | .finish _, _ | .panic _, _ => False

/-- Whether the action is on pending messages. -/
def Action.touches : Action Loop → Bool
  | .take _ _ _ | .putBack _ _ _ _ => true
  | _ => false

/-- What is so after an action. -/
structure Performed (a : Action Loop) (w : World) (s : Subscription Loop) (w' : World)
    (s' : Subscription Loop) : Prop where
  /-- An action does not call the handler. -/
  seen : s'.seen = s.seen
  subscribers : w'.subscribers = w.subscribers ∨
    a.touches = true ∧ ∃ k t ms, w' = w.setPending k t ms
  phase : (∃ l, a.Leads l ∧ s'.phase = .running l) ∨
    (∃ m next, a = .dispatch m next ∧ s'.phase = .called m next) ∨ ∃ e, s'.phase = .ended e

variable {n : Nat} {topic : String} {w w' : World} {s s' : Subscription Loop} {c : Bool}

theorem performed {a : Action Loop} (h : s.perform c w a = some (w', s')) :
    Performed a w s w' s' := by
  cases a with
  | check next =>
    cases h
    exact ⟨rfl, .inl rfl, .inl ⟨_, ⟨_, rfl⟩, rfl⟩⟩
  | fail | cancel | cancelOwn | report | log | pause =>
    cases h
    exact ⟨rfl, .inl rfl, .inl ⟨_, rfl, rfl⟩⟩
  | finish | panic =>
    cases h
    exact ⟨rfl, .inl rfl, .inr (.inr ⟨_, rfl⟩)⟩
  | dispatch m next =>
    rw [Subscription.perform] at h
    split at h
    · cases h
      exact ⟨rfl, .inl rfl, .inl ⟨_, ⟨_, rfl⟩, rfl⟩⟩
    · cases h
      exact ⟨rfl, .inl rfl, .inr (.inl ⟨m, next, rfl, rfl⟩)⟩
  | awaitCancel next =>
    rw [Subscription.perform] at h
    split at h
    · cases h
      exact ⟨rfl, .inl rfl, .inl ⟨_, rfl, rfl⟩⟩
    · cases h
  | receive next =>
    simp only [Subscription.perform, Option.map_eq_some_iff, Prod.mk.injEq] at h
    obtain ⟨s₁, hs₁, rfl, rfl⟩ := h
    obtain ⟨feed, r, rfl⟩ := (receives hs₁).goOn
    exact ⟨rfl, .inl rfl, .inl ⟨_, ⟨r, rfl⟩, rfl⟩⟩
  | take k t next =>
    simp only [Subscription.perform, World.take] at h
    split at h
    · cases h
      exact ⟨rfl, .inl rfl, .inl ⟨_, ⟨_, rfl⟩, rfl⟩⟩
    · cases h
      exact ⟨rfl, .inr ⟨rfl, k, t, _, rfl⟩, .inl ⟨_, ⟨_, rfl⟩, rfl⟩⟩
  | putBack k t m next =>
    cases h
    exact ⟨rfl, .inr ⟨rfl, k, t, _, rfl⟩, .inl ⟨_, rfl, rfl⟩⟩

/-! ## Loops that work on other things -/

/-- The action is not on pending messages, and the loop goes on as one that is not. -/
structure Action.Elsewhere (a : Action Loop) : Prop where
  spares : a.touches = false
  leads : ∀ l, a.Leads l → ∀ n topic, l.draws n topic = false

theorem elsewhere_replay (l : ReplayLoop) : (Loop.act (.replay l)).Elsewhere := by
  cases l <;>
    exact ⟨rfl, by simp [Loop.act, ReplayLoop.act, Action.map, Action.Leads, Loop.draws]⟩

theorem elsewhere_script (l : ScriptLoop) : (Loop.act (.script l)).Elsewhere := by
  cases l with
  | next rest =>
    cases rest with
    | nil => exact ⟨rfl, by simp [Loop.act, ScriptLoop.act, Action.map, Action.Leads]⟩
    | cons i rest =>
      cases i <;>
        exact ⟨rfl, by simp [Loop.act, ScriptLoop.act, Action.map, Action.Leads, Loop.draws]⟩
  | offer | stop =>
    exact ⟨rfl, by simp [Loop.act, ScriptLoop.act, Action.map, Action.Leads, Loop.draws]⟩

theorem held_of_not_draws {l : Loop} {n : Nat} {topic : String} (h : l.draws n topic = false) :
    (Phase.running l).held n topic = none := by
  cases l with
  | memory l =>
    rw [Phase.held, if_neg]
    simpa [Loop.draws] using h
  | replay | script => rfl

theorem perform_elsewhere (n : Nat) (topic : String) {a : Action Loop} (ha : a.Elsewhere)
    (h : s.perform c w a = some (w', s')) :
    w'.subscribers = w.subscribers ∧ s'.phase.held n topic = none := by
  obtain ⟨-, hworld, hphase⟩ := performed h
  constructor
  · rcases hworld with hsame | ⟨htouches, -⟩
    · exact hsame
    · rw [ha.spares] at htouches
      cases htouches
  · rcases hphase with ⟨l, hl, hrun⟩ | ⟨m, next, rfl, hcalled⟩ | ⟨e, hend⟩
    · rw [hrun]
      exact held_of_not_draws (ha.leads l hl n topic)
    · rw [hcalled, Phase.held, if_neg]
      simp [ha.leads _ ⟨.ack, rfl⟩ n topic]
    · rw [hend]
      rfl

/-- A loop that offers a message is one on pending messages, or none of them is concerned. -/
theorem dispatch_cases {l : Loop} {m : Message} {next : Delivery → Loop}
    (h : l.act = .dispatch m next) :
    (∃ k t, l = .memory ⟨k, t, .offer m⟩ ∧ next = fun d => .memory ⟨k, t, .afterward m d⟩) ∨
      ∀ d n topic, (next d).draws n topic = false := by
  cases l with
  | memory l =>
    obtain ⟨k, t, p⟩ := l
    cases p with
    | offer m' =>
      rw [MemoryLoop.act_offer] at h
      cases h
      exact .inl ⟨k, t, rfl, rfl⟩
    | look | take | putBack | rest | stop => cases h
  | replay l =>
    have hl := elsewhere_replay l
    rw [h] at hl
    exact .inr fun d => hl.leads (next d) ⟨d, rfl⟩
  | script l =>
    have hl := elsewhere_script l
    rw [h] at hl
    exact .inr fun d => hl.leads (next d) ⟨d, rfl⟩

/-! ## Steps -/

variable {m : Message} {next : Delivery → Loop}

/-- A handler that answers does what it does to the world, and the loop goes on unless the handler
has panicked. -/
theorem answer_eq (h : s.answer w m next = (w', s')) :
    w' = (s.handler s.seen.tail m).effects.foldl World.act w ∧ s'.seen = s.seen ∧
      ((∃ e, s'.phase = .ended e) ∨ ∃ d, d ≠ .discarded ∧ s'.phase = .running (next d)) := by
  rw [Subscription.answer] at h
  cases ho : (s.handler s.seen.tail m).outcome with
  | panic text =>
    simp only [ho, Prod.mk.injEq] at h
    obtain ⟨rfl, rfl⟩ := h
    exact ⟨rfl, rfl, .inl ⟨_, rfl⟩⟩
  | flow flow =>
    simp only [ho, Prod.mk.injEq] at h
    obtain ⟨rfl, rfl⟩ := h
    refine ⟨rfl, rfl, .inr ⟨_, ?_, rfl⟩⟩
    cases flow <;> simp [Dispatcher.answer]

/-- What is given to the handler is in nobody's hands any more. -/
theorem held_answered (hwired : (Phase.handling m next).Wired)
    (h : (∃ e, s'.phase = .ended e) ∨ ∃ d, d ≠ .discarded ∧ s'.phase = .running (next d)) :
    s'.phase.held n topic = none := by
  rcases h with ⟨e, he⟩ | ⟨d, hd, hrun⟩
  · rw [he]
    rfl
  · rw [hrun]
    obtain ⟨l, hl⟩ := hwired
    rcases dispatch_cases hl with ⟨k, t, -, rfl⟩ | hnone
    · cases d with
      | discarded => exact absurd rfl hd
      | ack | ackAndStop | reject => simp [Phase.held, MemoryPoint.afterward, MemoryPoint.held]
    · exact held_of_not_draws (hnone d n topic)

/-- What the dispatcher discards stays in the hands of the loop. -/
theorem held_discarded (hwired : (Phase.called m next).Wired) :
    (Phase.running (next .discarded)).held n topic = (Phase.called m next).held n topic := by
  obtain ⟨l, hl⟩ := hwired
  rcases dispatch_cases hl with ⟨k, t, -, rfl⟩ | hnone
  · simp [Phase.held, MemoryPoint.afterward, MemoryPoint.held, Loop.draws]
  · rw [held_of_not_draws (hnone .discarded n topic)]
    simp [Phase.held, hnone .ack n topic]

theorem pending_of_subscribers (h : w'.subscribers = w.subscribers) :
    w'.pending n topic = w.pending n topic := by
  rw [World.pending, World.pending, h]

theorem held_memory (n k : Nat) (topic t : String) (p : MemoryPoint) :
    (Phase.running (.memory ⟨k, t, p⟩)).held n topic =
      if k = n ∧ t = topic then p.held else none := rfl

/-- A loop at a point with nothing in hand goes on to another one. -/
theorem Trade.idle {k : Nat} {t : String} {p p' : MemoryPoint} (hp : p.held = none)
    (hp' : p'.held = none) (ms : List Message) :
    Trade ((Phase.running (.memory ⟨k, t, p⟩)).held n topic) ms []
      ((Phase.running (.memory ⟨k, t, p'⟩)).held n topic) ms := by
  rw [held_memory, held_memory, hp, hp', ite_self]
  exact .nothing none ms

/-- The oldest pending message goes into the hands of the loop. -/
theorem perform_take (topic : String) (hmem : w.InMemory n) {k : Nat} {t : String}
    (h : s.perform c w (Loop.act (.memory ⟨k, t, .take⟩)) = some (w', s')) :
    Trade none (w.pending n topic) [] (s'.phase.held n topic) (w'.pending n topic) := by
  simp only [Loop.act, MemoryLoop.act, Action.map, Subscription.perform, World.take] at h
  cases hpending : w.pending k t with
  | nil =>
    simp only [hpending, Option.some.injEq, Prod.mk.injEq] at h
    obtain ⟨rfl, rfl⟩ := h
    have hnone : (Phase.running (.memory ⟨k, t, .stop (.ok ())⟩)).held n topic = none :=
      ite_self none
    rw [Subscription.goOn, hnone]
    exact .nothing none _
  | cons m ms =>
    simp only [hpending, Option.some.injEq, Prod.mk.injEq] at h
    obtain ⟨rfl, rfl⟩ := h
    rw [Subscription.goOn, held_memory]
    by_cases hkt : k = n ∧ t = topic
    · obtain ⟨rfl, rfl⟩ := hkt
      rw [hmem.pending_setPending, hpending, if_pos ⟨rfl, rfl⟩]
      exact .take m ms
    · rw [World.pending_setPending_other hkt, if_neg hkt]
      exact .nothing none _

/-- What a loop on pending messages does to those of a topic. -/
theorem perform_memory (topic : String) (hmem : w.InMemory n) {l : MemoryLoop}
    (hphase : s.phase = .running (.memory l))
    (h : s.perform c w (Loop.act (.memory l)) = some (w', s')) :
    Trade (s.phase.held n topic) (w.pending n topic) [] (s'.phase.held n topic)
      (w'.pending n topic) := by
  obtain ⟨k, t, p⟩ := l
  rw [hphase]
  cases p with
  | look =>
    cases h
    refine .idle rfl ?_ _
    split <;> rfl
  | rest =>
    cases h
    exact .idle rfl rfl _
  | stop r =>
    cases h
    have hbefore : (Phase.running (.memory ⟨k, t, .stop r⟩)).held n topic = none := ite_self none
    rw [hbefore]
    exact .nothing none _
  | take =>
    have hbefore : (Phase.running (.memory ⟨k, t, .take⟩)).held n topic = none := ite_self none
    rw [hbefore]
    exact perform_take topic hmem h
  | offer m =>
    rw [MemoryLoop.act_offer, Subscription.perform] at h
    split at h
    · cases h
      rw [Subscription.deliver, held_memory, held_memory]
      exact .nothing _ _
    · cases h
      have hsame : (Phase.called m fun d => Loop.memory ⟨k, t, .afterward m d⟩).held n topic =
          (Phase.running (.memory ⟨k, t, .offer m⟩)).held n topic := by
        simp [Phase.held, Loop.draws, MemoryPoint.held]
      rw [hsame]
      exact .nothing _ _
  | putBack m =>
    cases h
    rw [Subscription.goOn, held_memory, held_memory, World.putBack]
    by_cases hkt : k = n ∧ t = topic
    · obtain ⟨rfl, rfl⟩ := hkt
      rw [if_pos ⟨rfl, rfl⟩, if_pos ⟨rfl, rfl⟩, hmem.pending_setPending]
      exact .putBack m _
    · rw [if_neg hkt, if_neg hkt, World.pending_setPending_other hkt]
      exact .nothing none _

/-- With a step that closes nothing, a subscription takes the oldest pending message, gives the one
in hand to its handler, puts it back, or leaves the messages of the topic alone. -/
theorem advance_trades (topic : String) (hwired : s.phase.Wired) (hmem : w.InMemory n)
    (hopen : s.closes n w = false) (h : s.advance Loop.act c w = some (w', s')) :
    Trade (s.phase.held n topic) (w.pending n topic) (s.given n topic s') (s'.phase.held n topic)
      (w'.pending n topic) := by
  rw [Subscription.advance] at h
  cases hphase : s.phase with
  | running l =>
    simp only [hphase] at h
    rw [Subscription.given_of_seen (performed h).seen]
    cases l with
    | memory l =>
      have htrade := perform_memory topic hmem hphase h
      rwa [hphase] at htrade
    | replay l =>
      obtain ⟨hw, hheld⟩ := perform_elsewhere n topic (elsewhere_replay l) h
      rw [pending_of_subscribers hw, hheld]
      exact .nothing none _
    | script l =>
      obtain ⟨hw, hheld⟩ := perform_elsewhere n topic (elsewhere_script l) h
      rw [pending_of_subscribers hw, hheld]
      exact .nothing none _
  | called m next =>
    simp only [hphase] at h hwired
    split at h
    · simp only [Option.some.injEq, Prod.mk.injEq] at h
      obtain ⟨rfl, rfl⟩ := h
      have hseen : (s.deliver .discarded next).seen = s.seen := rfl
      rw [Subscription.given_of_seen hseen, Subscription.deliver, held_discarded hwired]
      exact .nothing _ _
    · simp only [Option.some.injEq, Prod.mk.injEq] at h
      obtain ⟨rfl, rfl⟩ := h
      rw [Subscription.given_cons rfl, hphase]
      by_cases hdraws : (next .ack).draws n topic = true
      · have hheld : (Phase.called m next).held n topic = some m := if_pos hdraws
        rw [hheld, Phase.draws, if_pos hdraws]
        exact .give m _
      · have hheld : (Phase.called m next).held n topic = none := if_neg hdraws
        rw [hheld, Phase.draws, if_neg hdraws]
        exact .nothing none _
  | handling m next =>
    simp only [hphase] at h hwired
    split at h
    · cases h
    · obtain ⟨rfl, hseen, hnext⟩ := answer_eq (Option.some.inj h)
      have hstays : (s.handler s.seen.tail m).effects.any (w.closes n) = false := by
        simpa only [Subscription.closes, hphase] using hopen
      have hpending : ((s.handler s.seen.tail m).effects.foldl World.act w).pending n topic =
          w.pending n topic := by
        rw [World.pending_acts, hstays]
        rfl
      rw [hpending, held_answered hwired hnext, Subscription.given_of_seen hseen]
      exact .nothing none _
  | ended e =>
    simp only [hphase, Option.some.injEq, Prod.mk.injEq] at h
    obtain ⟨rfl, h⟩ := h
    have hseen : s'.seen = s.seen := by rw [← h]
    have hheld : s'.phase.held n topic = none := by
      rw [← h]
      rfl
    rw [Subscription.given_of_seen hseen, hheld]
    exact .nothing none _
  | «over» | abandoned => simp [hphase] at h

/-- A handler that closes the subscriber leaves nothing pending, and its own subscription has
nothing in hand meanwhile. -/
theorem advance_closes (topic : String) (hwired : s.phase.Wired) (hclose : s.closes n w = true)
    (h : s.advance Loop.act c w = some (w', s')) :
    w'.pending n topic = [] ∧ s.given n topic s' = [] ∧ s'.phase.held n topic = none := by
  rw [Subscription.advance] at h
  cases hphase : s.phase with
  | handling m next =>
    simp only [hphase] at h hwired
    split at h
    · cases h
    · obtain ⟨rfl, hseen, hnext⟩ := answer_eq (Option.some.inj h)
      have hcloses : (s.handler s.seen.tail m).effects.any (w.closes n) = true := by
        simpa only [Subscription.closes, hphase] using hclose
      refine ⟨?_, Subscription.given_of_seen hseen, held_answered hwired hnext⟩
      rw [World.pending_acts, hcloses]
      rfl
  | running | called | ended | «over» | abandoned => simp [Subscription.closes, hphase] at hclose

/-- What is being delivered comes from a loop that offered it. -/
theorem advance_wired (hwired : s.phase.Wired) (h : s.advance Loop.act c w = some (w', s')) :
    s'.phase.Wired := by
  rw [Subscription.advance] at h
  cases hphase : s.phase with
  | running l =>
    simp only [hphase] at h
    rcases (performed h).phase with ⟨l', -, hrun⟩ | ⟨m, next, hact, hcalled⟩ | ⟨e, hend⟩
    · rw [hrun]
      trivial
    · rw [hcalled]
      exact ⟨l, hact⟩
    · rw [hend]
      trivial
  | called m next =>
    simp only [hphase] at h hwired
    split at h
    · cases h
      trivial
    · cases h
      exact hwired
  | handling m next =>
    simp only [hphase] at h
    split at h
    · cases h
    · obtain ⟨-, -, ⟨e, he⟩ | ⟨d, -, hrun⟩⟩ := answer_eq (Option.some.inj h)
      · rw [he]
        trivial
      · rw [hrun]
        trivial
  | ended e =>
    simp only [hphase] at h
    cases h
    trivial
  | «over» | abandoned => simp [hphase] at h

theorem advance_inMemory (hmem : w.InMemory n) (h : s.advance Loop.act c w = some (w', s')) :
    w'.InMemory n := by
  rw [Subscription.advance] at h
  split at h
  · rcases (performed h).subscribers with hsame | ⟨-, k, t, ms, rfl⟩
    · exact hmem.of_subscribers hsame
    · exact hmem.setPending k t ms
  · split at h <;> cases h <;> exact hmem
  · split at h
    · cases h
    · obtain ⟨rfl, -⟩ := answer_eq (Option.some.inj h)
      exact hmem.acts _
  · cases h
    exact hmem
  · cases h
  · cases h

end PubSub
