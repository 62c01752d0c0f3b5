import PubSub.Proofs.Subscription.Replay
import PubSub.Proofs.Subscription.Steps
import PubSub.Proofs.Subscription.Stopping

/-!
# The stop protocol on files

A replay of a file ends in whatever order its reader and its loop go on, also when its handler
cancels the governing token, and comes to what its handler and the messages of the file are judged
to (`file_ends`).
-/

namespace PubSub

/-- In the worlds of `K` the file has this content, and what a handler does leads not out of
them. -/
structure Handler.SparesFile (h : Handler) (K : World → Prop) (node : Nat) (content : Bytes) :
    Prop where
  stays : h.Spares K
  read : ∀ w, K w → w.files.read node = .ok content

/-! ## The invariant -/

/-- At a stage, `v` is what the subscription comes to with the messages `coming`. -/
def Stage.Owes (v : Judgement) (w : World) (s : Subscription Loop) (coming : List Message) :
    Stage → Prop
  | .loop .wait => Going v w s coming ∨ CutOff v w s ∧ coming ≠ []
  | .loop (.look m) => Going v w s (m :: coming) ∨ CutOff v w s
  | .loop (.offer m) | .called m => Going v w s (m :: coming)
  | .loop (.note _) | .loop (.tell _) => False
  | .handling m => ∃ earlier, Working v w s earlier m coming
  | .loop (.stop r) => Parted v w s (.returned r)
  | .ended e => Parted v w s e
  | .closed => s.seen = v.seen ∧ s.result = some v.result

/-- A replay of messages that comes to `v`, at a stage, with what it reads from. -/
structure Replaying (K : World → Prop) (node : Nat) (content : Bytes) (v : Judgement) (w : World)
    (s : Subscription Loop) (f : Feed) (stage : Stage) : Prop where
  feed : s.feed = some f
  opened : f.node = node
  phase : s.phase = stage.phase
  ungated : s.gated = false
  spares : s.handler.SparesFile K node content
  world : K w
  due : ∃ coming, f.coming content = coming.map .ok ∧ stage.Owes v w s coming

/-- The replay has come to another stage, with fewer steps left than `k`. -/
def Replays (K : World → Prop) (node : Nat) (content : Bytes) (v : Judgement) (k : Nat) (w : World)
    (s : Subscription Loop) : Prop :=
  ∃ f stage, Replaying K node content v w s f stage ∧ stepsLeft content f stage < k

variable {K : World → Prop} {node : Nat} {content : Bytes} {v : Judgement} {w w' : World}
  {s s' : Subscription Loop} {f : Feed} {stage : Stage}

/-- What a replay owes does not depend on its feed. -/
theorem Stage.Owes.feed {coming : List Message} (h : stage.Owes v w s coming) (g : Option Feed) :
    stage.Owes v w { s with feed := g } coming := by
  cases stage with
  | loop l =>
    cases l with
    | wait => exact h.imp (·.move g s.phase) fun hcut => ⟨hcut.1.move g s.phase, hcut.2⟩
    | look m => exact h.imp (·.move g s.phase) (·.move g s.phase)
    | offer m => exact Going.move h g s.phase
    | note e | tell e => exact h.elim
    | stop r => exact h
  | called m => exact Going.move h g s.phase
  | handling m =>
    obtain ⟨earlier, hfresh, hlive, hseen, hlast, hdue⟩ := h
    exact ⟨earlier, hfresh, hlive, hseen, hlast, hdue⟩
  | ended e => exact h
  | closed => exact h

/-! ## Steps of the reader -/

theorem Replaying.read (h : Replaying K node content v w s f stage)
    (hs : s.readAhead w = some s') :
    Replays K node content v (stepsLeft content f stage) w s' := by
  obtain ⟨x, f', hx, hf, rfl⟩ := readAhead_eq_some hs
  obtain rfl : f = x := Option.some.inj (h.feed.symm.trans hx)
  rw [h.opened, h.spares.read w h.world] at hf
  obtain ⟨hnode, hcoming, hwork⟩ := Feed.read?_reads hf
  obtain ⟨coming, hmessages, hdue⟩ := h.due
  refine ⟨f', stage, ⟨rfl, hnode.trans h.opened, h.phase, h.ungated, h.spares, h.world, coming,
    hcoming.trans hmessages, hdue.feed _⟩, ?_⟩
  rw [stepsLeft, stepsLeft, hcoming]
  omega

/-! ## Steps of the loop -/

/-- A step that takes no record. -/
theorem Replaying.shift {coming : List Message} (h : Replaying K node content v w s f stage)
    (stage' : Stage) (hK : K w') (hkin : s.Kin s') (hphase : s'.phase = stage'.phase)
    (hcoming : f.coming content = coming.map .ok) (hdue : stage'.Owes v w' s' coming)
    (hlt : stage'.weight < stage.weight) :
    Replays K node content v (stepsLeft content f stage) w' s' := by
  refine ⟨f, stage', ⟨hkin.feed.trans h.feed, h.opened, hphase, hkin.gated.trans h.ungated, ?_, hK,
    coming, hcoming, hdue⟩, ?_⟩
  · rw [hkin.handler]
    exact h.spares
  · rw [stepsLeft, stepsLeft]
    omega

/-- A step that takes a message off the queue. -/
theorem Replaying.taken {m : Message} {queue : List (Except DecodeError Message)}
    {coming : List Message} (h : Replaying K node content v w s f (.loop .wait))
    (hq : f.queued = .ok m :: queue)
    (hcoming : f.coming content = (m :: coming).map .ok)
    (hdue : Going v w s (m :: coming) ∨ CutOff v w s) :
    Replays K node content v (stepsLeft content f (.loop .wait)) w
      ({ s with feed := some { f with queued := queue } }.goOn (.replay (.look m))) := by
  have htaken := Feed.coming_taken hq content
  have hrest : ({ f with queued := queue } : Feed).coming content = coming.map .ok := by
    rw [hcoming, List.map_cons] at htaken
    exact (List.cons.inj htaken).2.symm
  refine ⟨{ f with queued := queue }, .loop (.look m), ⟨rfl, h.opened, rfl, h.ungated, h.spares,
    h.world, coming, hrest, hdue.imp (·.move _ _) (·.move _ _)⟩, ?_⟩
  have hwork : ({ f with queued := queue } : Feed).work content = f.work content := rfl
  rw [stepsLeft, stepsLeft, hrest, hcoming, hwork, List.length_map, List.length_map,
    List.length_cons]
  simp only [Stage.weight]
  omega

theorem Replaying.wait (h : Replaying K node content v w s f (.loop .wait)) {c : Bool}
    (hs : s.advance Loop.act c w = some (w', s')) :
    Replays K node content v (stepsLeft content f (.loop .wait)) w' s' := by
  obtain ⟨coming, hcoming, hdue⟩ := h.due
  have hstand : Going v w s coming ∨ CutOff v w s ∧ coming ≠ [] := hdue
  rw [Subscription.advance, h.phase] at hs
  simp only [Stage.phase, Loop.act, ReplayLoop.act, Action.map, Subscription.perform,
    Option.map_eq_some_iff, Prod.mk.injEq] at hs
  obtain ⟨x, hx, rfl, rfl⟩ := hs
  cases receives hx with
  | cancelled hcancelled =>
    rcases hstand with hgo | ⟨hcut, -⟩
    · simp [hgo.isCancelled] at hcancelled
    · exact h.shift (.loop (.stop (.error .cancelled))) h.world ⟨rfl, rfl, rfl, rfl⟩ rfl hcoming
        hcut.part (by decide)
  | finished g hg hdry =>
    obtain rfl : f = g := Option.some.inj (h.feed.symm.trans hg)
    have hnone : coming = [] := by
      rw [Feed.coming_of_isDry hdry] at hcoming
      simpa using hcoming.symm
    rcases hstand with hgo | ⟨-, hsome⟩
    · rw [hnone] at hgo
      exact h.shift (.loop (.stop (.ok ()))) h.world ⟨rfl, rfl, rfl, rfl⟩ rfl hcoming hgo.part
        (by decide)
    · exact absurd hnone hsome
  | message g m queue hg hq =>
    obtain rfl : f = g := Option.some.inj (h.feed.symm.trans hg)
    have hfirst := (Feed.coming_taken hq content).symm.trans hcoming
    cases coming with
    | nil => simp at hfirst
    | cons m' rest =>
      obtain rfl : m = m' := by simpa using (List.cons.inj hfirst).1
      exact h.taken hq hcoming (hstand.imp_right (·.1))
  | broken g e queue hg hq =>
    obtain rfl : f = g := Option.some.inj (h.feed.symm.trans hg)
    have hfirst := (Feed.coming_taken hq content).symm.trans hcoming
    cases coming <;> simp at hfirst

theorem Replaying.look {m : Message} (h : Replaying K node content v w s f (.loop (.look m)))
    {c : Bool} (hs : s.advance Loop.act c w = some (w', s')) :
    Replays K node content v (stepsLeft content f (.loop (.look m))) w' s' := by
  obtain ⟨coming, hcoming, hdue⟩ := h.due
  have hstand : Going v w s (m :: coming) ∨ CutOff v w s := hdue
  rw [Subscription.advance, h.phase] at hs
  simp only [Stage.phase, Loop.act, ReplayLoop.act, Action.map, Subscription.perform,
    Option.some.injEq, Prod.mk.injEq] at hs
  obtain ⟨rfl, rfl⟩ := hs
  rcases hstand with hgo | hcut
  · simp only [hgo.isCancelled, Bool.false_eq_true, if_false]
    exact h.shift (.loop (.offer m)) h.world ⟨rfl, rfl, rfl, rfl⟩ rfl hcoming (hgo.move _ _)
      (by simp [Stage.weight])
  · simp only [hcut.isCancelled, if_true]
    exact h.shift (.loop (.stop (.error .cancelled))) h.world ⟨rfl, rfl, rfl, rfl⟩ rfl hcoming
      hcut.part (by simp [Stage.weight])

theorem Replaying.offer {m : Message} (h : Replaying K node content v w s f (.loop (.offer m)))
    {c : Bool} (hs : s.advance Loop.act c w = some (w', s')) :
    Replays K node content v (stepsLeft content f (.loop (.offer m))) w' s' := by
  obtain ⟨coming, hcoming, hdue⟩ := h.due
  have hgo : Going v w s (m :: coming) := hdue
  rw [Subscription.advance, h.phase] at hs
  simp only [Stage.phase, ReplayLoop.act_offer, Subscription.perform, hgo.isStopped,
    Bool.false_eq_true, if_false, Option.some.injEq, Prod.mk.injEq] at hs
  obtain ⟨rfl, rfl⟩ := hs
  exact h.shift (.called m) h.world ⟨rfl, rfl, rfl, rfl⟩ rfl hcoming (hgo.move _ _)
    (by simp [Stage.weight])

theorem Replaying.call {m : Message} (h : Replaying K node content v w s f (.called m))
    {c : Bool} (hs : s.advance Loop.act c w = some (w', s')) :
    Replays K node content v (stepsLeft content f (.called m)) w' s' := by
  obtain ⟨coming, hcoming, hdue⟩ := h.due
  have hgo : Going v w s (m :: coming) := hdue
  obtain ⟨rfl, rfl, hwork⟩ := hgo.call h.phase hs
  exact h.shift (.handling m) h.world ⟨rfl, rfl, rfl, rfl⟩ rfl hcoming ⟨_, hwork⟩
    (by simp [Stage.weight])

theorem Replaying.handle {m : Message} (h : Replaying K node content v w s f (.handling m))
    {c : Bool} (hs : s.advance Loop.act c w = some (w', s')) :
    Replays K node content v (stepsLeft content f (.handling m)) w' s' := by
  obtain ⟨coming, hcoming, earlier, hwork⟩ := h.due
  obtain ⟨rfl, hkin, hanswered⟩ := hwork.answer h.phase h.ungated hs
  have hK := h.spares.stays earlier m w h.world
  cases hanswered with
  | goes hphase hgo =>
    exact h.shift (.loop .wait) hK hkin hphase hcoming (.inl hgo) (by simp [Stage.weight])
  | cutOff hphase hcut hsome =>
    exact h.shift (.loop .wait) hK hkin hphase hcoming (.inr ⟨hcut, hsome⟩)
      (by simp [Stage.weight])
  | parts d hd hphase hpart =>
    refine h.shift (.loop (.stop (.ok ()))) hK hkin (hphase.trans ?_) hcoming hpart
      (by simp [Stage.weight])
    rcases hd with rfl | rfl <;> rfl
  | breaks text hphase hpart =>
    exact h.shift (.ended (.panicked text)) hK hkin hphase hcoming hpart (by simp [Stage.weight])

theorem Replaying.stop {r : Except Error Unit}
    (h : Replaying K node content v w s f (.loop (.stop r))) {c : Bool}
    (hs : s.advance Loop.act c w = some (w', s')) :
    Replays K node content v (stepsLeft content f (.loop (.stop r))) w' s' := by
  obtain ⟨coming, hcoming, hdue⟩ := h.due
  rw [Subscription.advance, h.phase] at hs
  simp only [Stage.phase, Loop.act, ReplayLoop.act, Action.map, Subscription.perform,
    Option.some.injEq, Prod.mk.injEq] at hs
  obtain ⟨rfl, rfl⟩ := hs
  exact h.shift (.ended (.returned r)) h.world ⟨rfl, rfl, rfl, rfl⟩ rfl hcoming hdue
    (by simp [Stage.weight])

theorem Replaying.finish {e : Ending} (h : Replaying K node content v w s f (.ended e))
    {c : Bool} (hs : s.advance Loop.act c w = some (w', s')) :
    Replays K node content v (stepsLeft content f (.ended e)) w' s' := by
  obtain ⟨coming, hcoming, hdue⟩ := h.due
  have hpart : Parted v w s e := hdue
  obtain ⟨rfl, rfl, hseen⟩ := hpart.close h.phase hs
  exact h.shift .closed h.world ⟨rfl, rfl, rfl, rfl⟩ rfl hcoming ⟨hseen, rfl⟩
    (by simp [Stage.weight])

/-- Whatever the loop does next, the replay goes on. -/
theorem Replaying.advance (h : Replaying K node content v w s f stage) {c : Bool}
    (hs : s.advance Loop.act c w = some (w', s')) :
    Replays K node content v (stepsLeft content f stage) w' s' := by
  cases stage with
  | loop l =>
    cases l with
    | wait => exact h.wait hs
    | look m => exact h.look hs
    | offer m => exact h.offer hs
    | note e | tell e =>
      obtain ⟨coming, -, hdue⟩ := h.due
      exact hdue.elim
    | stop r => exact h.stop hs
  | called m => exact h.call hs
  | handling m => exact h.handle hs
  | ended e => exact h.finish hs
  | closed =>
    rw [Subscription.advance, h.phase] at hs
    simp [Stage.phase] at hs

/-! ## Whole runs -/

/-- A replay whose loop and reader cannot go on is over. -/
theorem Replaying.closed (h : Replaying K node content v w s f stage)
    (hadv : s.advance Loop.act true w = none) (hread : s.readAhead w = none) :
    stage = .closed := by
  obtain ⟨coming, -, hdue⟩ := h.due
  rw [Subscription.advance, h.phase] at hadv
  cases stage with
  | loop l =>
    cases l with
    | wait =>
      simp only [Stage.phase, Loop.act, ReplayLoop.act, Action.map, Subscription.perform,
        Subscription.receive, h.feed, Option.map_eq_none_iff] at hadv
      cases hq : f.queued with
      | cons r rest => cases hc : s.isCancelled w <;> cases r <;> simp [hc, hq] at hadv
      | nil =>
        cases hdry : f.isDry with
        | true => cases hc : s.isCancelled w <;> simp [hc, hq, hdry] at hadv
        | false =>
          -- the loop may have to wait for the reader, which has something to do
          obtain ⟨f', hf⟩ := Feed.read?_isSome hq hdry content
          have hlive : s.isLive = true := by rw [Subscription.isLive, h.phase]; rfl
          simp [Subscription.readAhead, h.feed, hlive, h.opened, h.spares.read w h.world, hf]
            at hread
    | offer m =>
      have hgo : Going v w s (m :: coming) := hdue
      simp [Stage.phase, ReplayLoop.act_offer, Subscription.perform, hgo.isStopped] at hadv
    | note e | tell e => exact hdue.elim
    | look m | stop r =>
      simp [Stage.phase, Loop.act, ReplayLoop.act, Action.map, Subscription.perform] at hadv
  | called m =>
    have hgo : Going v w s (m :: coming) := hdue
    simp [Stage.phase, hgo.isStopped] at hadv
  | handling m => simp [Stage.phase, h.ungated] at hadv
  | ended e => simp [Stage.phase] at hadv
  | closed => rfl

/-- A replay of a file of messages ends, and comes to what its handler and the messages are judged
to. -/
theorem file_ends {r : Subscribing} {ms : List Message} (hgate : r.gated = false) (hw : K w)
    (hlive : w.isCancelled? r.options.governor = false)
    (hspares : r.handler.SparesFile K node content)
    (hlast : r.handler.SparesLast r.options.governor [] ms)
    (hcontent : Record.stream .start content = ms.map .ok) :
    Bus.Ends Loop.act (CameToJudgement (judged r.handler r.options.governor [] ms))
      (Bus.alone w (r.spawn (some (.start node)) (.replay .wait))) := by
  have hstart : Replaying K node content (judged r.handler r.options.governor [] ms) w
      (r.spawn (some (.start node)) (.replay .wait)) (.start node) (.loop .wait) :=
    ⟨rfl, rfl, rfl, hgate, hspares, hw, ms, (Feed.coming_start node content).trans hcontent,
      .inl ⟨rfl, hlive, hlast, rfl⟩⟩
  refine Bus.one_ends (I := fun k w s =>
    ∃ f stage, Replaying K node content _ w s f stage ∧ stepsLeft content f stage = k)
    ?_ ?_ ?_ rfl ⟨_, _, hstart, rfl⟩
  · rintro k w s c w' s' ⟨f, stage, hreplay, rfl⟩ hadv
    obtain ⟨f', stage', hreplay', hlt⟩ := hreplay.advance hadv
    exact ⟨_, hlt, f', stage', hreplay', rfl⟩
  · rintro k w s s' ⟨f, stage, hreplay, rfl⟩ hread
    obtain ⟨f', stage', hreplay', hlt⟩ := hreplay.read hread
    exact ⟨_, hlt, f', stage', hreplay', rfl⟩
  · rintro k b s hs ⟨f, stage, hreplay, -⟩ hadv hread
    obtain rfl := hreplay.closed hadv hread
    obtain ⟨coming, -, hseen, hresult⟩ := hreplay.due
    exact cameToJudgement hs hseen hresult

end PubSub
