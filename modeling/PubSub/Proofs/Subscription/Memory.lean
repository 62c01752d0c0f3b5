import PubSub.Proofs.Bus
import PubSub.Proofs.NameMap
import PubSub.Proofs.Subscription.Steps
import PubSub.Proofs.Subscription.Stopping
import PubSub.Subscription.Subscribe

/-!
# Subscribing to messages in memory

A subscription to pending messages ends in whatever order its steps come, and comes to what its
handler and the messages are judged to (`drain_ends`).
-/

namespace PubSub

/-! ## Pending messages -/

/-- A subscriber that has a pending message keeps what is pending. -/
theorem World.pending_setPending {w : World} {n : Nat} {topic : String} {m : Message}
    {ms : List Message} (h : w.pending n topic = m :: ms) (ms' : List Message) :
    (w.setPending n topic ms').pending n topic = ms' := by
  cases hn : w.subscribers[n]? with
  | none => simp [World.pending, hn] at h
  | some x =>
    cases x with
    | files root => simp [World.pending, hn] at h
    | memory shelf =>
      obtain ⟨hlt, -⟩ := List.getElem?_eq_some_iff.1 hn
      rw [World.setPending, hn, World.pending, List.getElem?_set_self hlt]
      simp [Shelf.messages, NameMap.get?_insert]

/-- In the worlds of `K` a handler leaves the pending messages of a topic alone, and neither what
it does nor taking messages leads out of them. -/
structure Handler.SparesPending (h : Handler) (K : World → Prop) (n : Nat) (topic : String) :
    Prop where
  stays : ∀ earlier m w, K w → K ((h earlier m).effects.foldl World.act w)
  pending : ∀ earlier m w, K w →
    ((h earlier m).effects.foldl World.act w).pending n topic = w.pending n topic
  taken : ∀ w ms, K w → K (w.setPending n topic ms)

/-! ## Stages -/

/-- Where the loop goes on after a message. -/
def MemoryPoint.afterward (m : Message) : Delivery → MemoryPoint
  | .ack => .rest
  | .discarded => .putBack m
  | .ackAndStop | .reject => .stop (.ok ())

/-- The phases of a subscription to pending messages. -/
inductive DrainStage where
  | loop (p : MemoryPoint)
  | called (m : Message)
  | handling (m : Message)
  | ended (e : Ending)
  | closed

namespace DrainStage

def phase (n : Nat) (topic : String) : DrainStage → Phase Loop
  | .loop p => .running (.memory ⟨n, topic, p⟩)
  | .called m => .called m fun d => .memory ⟨n, topic, .afterward m d⟩
  | .handling m => .handling m fun d => .memory ⟨n, topic, .afterward m d⟩
  | .ended e => .ended e
  | .closed => .over

/-- How many steps the loop makes at most before it takes the next message. -/
def weight : DrainStage → Nat
  | .loop (.offer _) => 8
  | .called _ => 7
  | .handling _ => 6
  | .loop .rest => 5
  | .loop .look => 4
  | .loop .take | .loop (.putBack _) => 3
  | .loop (.stop _) => 2
  | .ended _ => 1
  | .closed => 0

end DrainStage

theorem MemoryLoop.act_offer (n : Nat) (topic : String) (m : Message) :
    Loop.act (.memory ⟨n, topic, .offer m⟩) =
      .dispatch m fun d => .memory ⟨n, topic, .afterward m d⟩ := by
  simp only [Loop.act, MemoryLoop.act, Action.map, Action.dispatch.injEq, true_and]
  funext d
  cases d <;> rfl

/-! ## The invariant -/

/-- At a stage, `v` is what the subscription comes to with the messages `coming`. -/
def DrainStage.Due (v : Judgement) (w : World) (s : Subscription Loop) (coming : List Message) :
    DrainStage → Prop
  | .loop .look | .loop .rest => Going v w s coming ∨ CutOff v w s
  | .loop .take => Going v w s coming
  | .loop (.offer m) | .called m => Going v w s (m :: coming)
  | .loop (.putBack _) => False
  | .handling m => ∃ earlier, Working v w s earlier m coming
  | .loop (.stop r) => Parted v w s (.returned r)
  | .ended e => Parted v w s e
  | .closed => s.seen = v.seen ∧ s.result = some v.result

/-- A subscription to pending messages that comes to `v`, at a stage. -/
structure Draining (K : World → Prop) (n : Nat) (topic : String) (v : Judgement) (w : World)
    (s : Subscription Loop) (stage : DrainStage) : Prop where
  feed : s.feed = none
  phase : s.phase = stage.phase n topic
  ungated : s.gated = false
  spares : s.handler.SparesPending K n topic
  world : K w
  due : stage.Due v w s (w.pending n topic)

/-- How many steps are left at most. -/
def drainSteps (w : World) (n : Nat) (topic : String) (stage : DrainStage) : Nat :=
  stage.weight + 8 * (w.pending n topic).length

variable {K : World → Prop} {n : Nat} {topic : String} {v : Judgement} {w w' : World}
  {s s' : Subscription Loop} {stage : DrainStage}

/-- The subscription has come to another stage, with fewer steps left than `k`. -/
def Drains (K : World → Prop) (n : Nat) (topic : String) (v : Judgement) (k : Nat) (w : World)
    (s : Subscription Loop) : Prop :=
  ∃ stage, Draining K n topic v w s stage ∧ drainSteps w n topic stage < k

/-- A step that takes no message. -/
theorem Draining.shift (h : Draining K n topic v w s stage) (stage' : DrainStage) (hK : K w')
    (hpending : w'.pending n topic = w.pending n topic) (hkin : s.Kin s')
    (hphase : s'.phase = stage'.phase n topic) (hdue : stage'.Due v w' s' (w.pending n topic))
    (hlt : stage'.weight < stage.weight) :
    Drains K n topic v (drainSteps w n topic stage) w' s' := by
  refine ⟨stage', ⟨hkin.feed.trans h.feed, hphase, hkin.gated.trans h.ungated, ?_, hK, ?_⟩, ?_⟩
  · rw [hkin.handler]
    exact h.spares
  · rw [hpending]
    exact hdue
  · rw [drainSteps, drainSteps, hpending]
    omega

/-! ## Steps -/

theorem Draining.look (h : Draining K n topic v w s (.loop .look)) {c : Bool}
    (hs : s.advance Loop.act c w = some (w', s')) :
    Drains K n topic v (drainSteps w n topic (.loop .look)) w' s' := by
  rw [Subscription.advance, h.phase] at hs
  simp only [DrainStage.phase, Loop.act, MemoryLoop.act, Action.map, Subscription.perform,
    Option.some.injEq, Prod.mk.injEq] at hs
  obtain ⟨rfl, rfl⟩ := hs
  rcases h.due with hgo | hcut
  · simp only [hgo.isCancelled, Bool.false_eq_true, if_false]
    exact h.shift (.loop .take) h.world rfl ⟨rfl, rfl, rfl, rfl⟩ rfl (hgo.move _ _) (by decide)
  · simp only [hcut.isCancelled, if_true]
    exact h.shift (.loop (.stop (.error .cancelled))) h.world rfl ⟨rfl, rfl, rfl, rfl⟩ rfl hcut.part
      (by decide)

theorem Draining.take (h : Draining K n topic v w s (.loop .take)) {c : Bool}
    (hs : s.advance Loop.act c w = some (w', s')) :
    Drains K n topic v (drainSteps w n topic (.loop .take)) w' s' := by
  have hgo : Going v w s (w.pending n topic) := h.due
  rw [Subscription.advance, h.phase] at hs
  simp only [DrainStage.phase, Loop.act, MemoryLoop.act, Action.map, Subscription.perform,
    Option.some.injEq, Prod.mk.injEq] at hs
  cases hp : w.pending n topic with
  | nil =>
    have htake : w.take n topic = (none, w) := by rw [World.take, hp]
    rw [htake] at hs
    obtain ⟨rfl, rfl⟩ := hs
    rw [hp] at hgo
    exact h.shift (.loop (.stop (.ok ()))) h.world rfl ⟨rfl, rfl, rfl, rfl⟩ rfl hgo.part (by decide)
  | cons m ms =>
    have htake : w.take n topic = (some m, w.setPending n topic ms) := by rw [World.take, hp]
    rw [htake] at hs
    obtain ⟨rfl, rfl⟩ := hs
    have hleft := World.pending_setPending hp ms
    rw [hp] at hgo
    refine ⟨.loop (.offer m),
      ⟨h.feed, rfl, h.ungated, h.spares, h.spares.taken w ms h.world, ?_⟩, ?_⟩
    · rw [hleft]
      exact ⟨hgo.fresh, (World.isCancelled?_setPending _ _ _ _ _).trans hgo.live, hgo.last, hgo.due⟩
    · rw [drainSteps, drainSteps, hleft, hp, List.length_cons]
      simp only [DrainStage.weight]
      omega

theorem Draining.offer {m : Message} (h : Draining K n topic v w s (.loop (.offer m))) {c : Bool}
    (hs : s.advance Loop.act c w = some (w', s')) :
    Drains K n topic v (drainSteps w n topic (.loop (.offer m))) w' s' := by
  have hgo : Going v w s (m :: w.pending n topic) := h.due
  rw [Subscription.advance, h.phase] at hs
  simp only [DrainStage.phase, MemoryLoop.act_offer, Subscription.perform, hgo.isStopped,
    Bool.false_eq_true, if_false, Option.some.injEq, Prod.mk.injEq] at hs
  obtain ⟨rfl, rfl⟩ := hs
  exact h.shift (.called m) h.world rfl ⟨rfl, rfl, rfl, rfl⟩ rfl (hgo.move _ _)
    (by simp [DrainStage.weight])

theorem Draining.call {m : Message} (h : Draining K n topic v w s (.called m)) {c : Bool}
    (hs : s.advance Loop.act c w = some (w', s')) :
    Drains K n topic v (drainSteps w n topic (.called m)) w' s' := by
  have hgo : Going v w s (m :: w.pending n topic) := h.due
  obtain ⟨rfl, rfl, hwork⟩ := hgo.call h.phase hs
  exact h.shift (.handling m) h.world rfl ⟨rfl, rfl, rfl, rfl⟩ rfl ⟨_, hwork⟩
    (by simp [DrainStage.weight])

theorem Draining.handle {m : Message} (h : Draining K n topic v w s (.handling m)) {c : Bool}
    (hs : s.advance Loop.act c w = some (w', s')) :
    Drains K n topic v (drainSteps w n topic (.handling m)) w' s' := by
  obtain ⟨earlier, hwork⟩ := h.due
  obtain ⟨rfl, hkin, hanswered⟩ := hwork.answer h.phase h.ungated hs
  have hK := h.spares.stays earlier m w h.world
  have hpending := h.spares.pending earlier m w h.world
  cases hanswered with
  | goes hphase hgo =>
    exact h.shift (.loop .rest) hK hpending hkin hphase (.inl hgo) (by simp [DrainStage.weight])
  | cutOff hphase hcut =>
    exact h.shift (.loop .rest) hK hpending hkin hphase (.inr hcut) (by simp [DrainStage.weight])
  | parts d hd hphase hpart =>
    refine h.shift (.loop (.stop (.ok ()))) hK hpending hkin (hphase.trans ?_) hpart
      (by simp [DrainStage.weight])
    rcases hd with rfl | rfl <;> rfl
  | breaks text hphase hpart =>
    exact h.shift (.ended (.panicked text)) hK hpending hkin hphase hpart
      (by simp [DrainStage.weight])

theorem Draining.rest (h : Draining K n topic v w s (.loop .rest)) {c : Bool}
    (hs : s.advance Loop.act c w = some (w', s')) :
    Drains K n topic v (drainSteps w n topic (.loop .rest)) w' s' := by
  rw [Subscription.advance, h.phase] at hs
  simp only [DrainStage.phase, Loop.act, MemoryLoop.act, Action.map, Subscription.perform,
    Option.some.injEq, Prod.mk.injEq] at hs
  obtain ⟨rfl, rfl⟩ := hs
  refine h.shift (.loop .look) h.world rfl ⟨rfl, rfl, rfl, rfl⟩ rfl ?_ (by decide)
  rcases h.due with hgo | hcut
  · exact .inl (hgo.move _ _)
  · exact .inr (hcut.move _ _)

theorem Draining.stop {r : Except Error Unit} (h : Draining K n topic v w s (.loop (.stop r)))
    {c : Bool} (hs : s.advance Loop.act c w = some (w', s')) :
    Drains K n topic v (drainSteps w n topic (.loop (.stop r))) w' s' := by
  rw [Subscription.advance, h.phase] at hs
  simp only [DrainStage.phase, Loop.act, MemoryLoop.act, Action.map, Subscription.perform,
    Option.some.injEq, Prod.mk.injEq] at hs
  obtain ⟨rfl, rfl⟩ := hs
  exact h.shift (.ended (.returned r)) h.world rfl ⟨rfl, rfl, rfl, rfl⟩ rfl h.due
    (by simp [DrainStage.weight])

theorem Draining.finish {e : Ending} (h : Draining K n topic v w s (.ended e)) {c : Bool}
    (hs : s.advance Loop.act c w = some (w', s')) :
    Drains K n topic v (drainSteps w n topic (.ended e)) w' s' := by
  have hpart : Parted v w s e := h.due
  obtain ⟨rfl, rfl, hseen⟩ := hpart.close h.phase hs
  exact h.shift .closed h.world rfl ⟨rfl, rfl, rfl, rfl⟩ rfl ⟨hseen, rfl⟩
    (by simp [DrainStage.weight])

/-- Whatever the subscription does next, it goes on. -/
theorem Draining.advance (h : Draining K n topic v w s stage) {c : Bool}
    (hs : s.advance Loop.act c w = some (w', s')) :
    Drains K n topic v (drainSteps w n topic stage) w' s' := by
  cases stage with
  | loop p =>
    cases p with
    | look => exact h.look hs
    | take => exact h.take hs
    | offer m => exact h.offer hs
    | putBack m => exact h.due.elim
    | rest => exact h.rest hs
    | stop r => exact h.stop hs
  | called m => exact h.call hs
  | handling m => exact h.handle hs
  | ended e => exact h.finish hs
  | closed =>
    rw [Subscription.advance, h.phase] at hs
    simp [DrainStage.phase] at hs

/-- A subscription whose loop cannot go on is over. -/
theorem Draining.closed (h : Draining K n topic v w s stage)
    (hadv : s.advance Loop.act true w = none) : stage = .closed := by
  rw [Subscription.advance, h.phase] at hadv
  cases stage with
  | loop p =>
    cases p with
    | offer m =>
      have hgo : Going v w s (m :: w.pending n topic) := h.due
      simp [DrainStage.phase, MemoryLoop.act_offer, Subscription.perform, hgo.isStopped] at hadv
    | putBack m => exact h.due.elim
    | look | take | rest | stop r =>
      simp [DrainStage.phase, Loop.act, MemoryLoop.act, Action.map, Subscription.perform] at hadv
  | called m =>
    have hgo : Going v w s (m :: w.pending n topic) := h.due
    simp [DrainStage.phase, hgo.isStopped] at hadv
  | handling m => simp [DrainStage.phase, h.ungated] at hadv
  | ended e => simp [DrainStage.phase] at hadv
  | closed => rfl

/-! ## Whole runs -/

/-- A subscription to pending messages ends, and comes to what its handler and the messages are
judged to. -/
theorem drain_ends {r : Subscribing} (hgate : r.gated = false) (hw : K w)
    (hlive : w.isCancelled? r.options.governor = false)
    (hspares : r.handler.SparesPending K n r.topic)
    (hlast : r.handler.SparesLast r.options.governor [] (w.pending n r.topic)) :
    Bus.Ends Loop.act
      (CameToJudgement (judged r.handler r.options.governor [] (w.pending n r.topic)))
      (Bus.alone w (r.spawn none (.memory (.start n r.topic)))) := by
  have hstart : Draining K n r.topic
      (judged r.handler r.options.governor [] (w.pending n r.topic)) w
      (r.spawn none (.memory (.start n r.topic))) (.loop .look) :=
    ⟨rfl, rfl, hgate, hspares, hw, .inl ⟨rfl, hlive, hlast, rfl⟩⟩
  refine Bus.one_ends
    (I := fun k w s => ∃ stage, Draining K n r.topic _ w s stage ∧ drainSteps w n r.topic stage = k)
    ?_ ?_ ?_ rfl ⟨_, hstart, rfl⟩
  · rintro k w s c w' s' ⟨stage, hdrain, rfl⟩ hadv
    obtain ⟨stage', hdrain', hlt⟩ := hdrain.advance hadv
    exact ⟨_, hlt, stage', hdrain', rfl⟩
  · rintro k w s s' ⟨stage, hdrain, -⟩ hread
    obtain ⟨f, -, hfeed, -⟩ := readAhead_eq_some hread
    simp [hdrain.feed] at hfeed
  · rintro k b s hs ⟨stage, hdrain, -⟩ hadv -
    obtain rfl := hdrain.closed hadv
    obtain ⟨hseen, hresult⟩ := hdrain.due
    exact cameToJudgement hs hseen hresult

end PubSub
