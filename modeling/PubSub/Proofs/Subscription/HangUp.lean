import PubSub.Proofs.Rest
import PubSub.Proofs.Subscription.Replay
import PubSub.Subscription.HangUp

/-!
# Replays that wait for their reader

A loop that hangs up on its reader and waits for it does not wait for ever, and comes to the same
as one that does not look back (`Replay.rests`). So no reader keeps a subscription from its end,
also one that waits for room when the handler stops.
-/

namespace PubSub

/-! ## Readers on which the loop has hung up -/

namespace Feed

variable {f f' : Feed} {content : Bytes}

theorem hangUp_coming_le (f : Feed) (content : Bytes) :
    (f.hangUp.coming content).length ≤ (f.coming content).length := by
  have hsame : f.hangUp.coming content = f.held.toList ++ f.undecoded content := rfl
  rw [hsame]
  simp only [coming, List.length_append]
  omega

/-- What one step of such a reader keeps, and that it gets on. -/
structure WindsUp (content : Bytes) (f f' : Feed) : Prop where
  node : f'.node = f.node
  coming : (f'.coming content).length ≤ (f.coming content).length
  work : f'.work content < f.work content

theorem windUp?_winds (h : f.windUp? (.ok content) = some f') : WindsUp content f f' := by
  rw [windUp?] at h
  cases hh : f.held with
  | some r =>
    simp only [hh, Option.some.injEq] at h
    subst h
    refine ⟨rfl, ?_, ?_⟩
    · simp [Feed.coming, undecoded, hh]
    · cases r <;> simp [Feed.work, hh]
  | none =>
    simp only [hh] at h
    split at h
    · cases h
    · next he =>
      obtain rfl := Option.some.inj h
      obtain ⟨hnode, hcoming, hwork⟩ := decode_reads content hh (by simpa using he)
      exact ⟨hnode, Nat.le_of_eq (congrArg List.length hcoming), hwork⟩

/-- Such a reader never waits. -/
theorem windUp?_isSome (he : f.ended = false) (content : Except SystemError Bytes) :
    (f.windUp? content).isSome = true := by
  cases hh : f.held with
  | some r => simp [windUp?, hh]
  | none => simp [windUp?, hh, he]

end Feed

/-! ## Steps -/

namespace Replay

/-- A step of the loop or of the reader. -/
inductive Step (x : Replay) : Replay → Prop
  | loop {y : Replay} (favoursCancel : Bool) : x.loop? favoursCancel = some y → Step x y
  | reader {y : Replay} : x.reader? = some y → Step x y

/-- The bus with this subscription only. -/
def bus (x : Replay) : Bus Loop := Bus.alone x.world x.subscription

end Replay

/-- The loop has nothing more to do than to return what it came to. -/
def Stage.isLeft : Stage → Bool
  | .loop (.stop _) | .ended _ | .closed => true
  | _ => false

variable {told : List Event} {node : Nat} {content : Bytes} {v : Verdict} {w w' : World}
  {s s' : Subscription Loop} {f f' : Feed} {stage stage' : Stage} {x y : Replay} {n : Nat}

/-- What a loop comes to that is on its way out does not depend on its feed. -/
theorem Underway.setFeed (h : Underway told node content v w s f stage)
    (hleft : stage.isLeft = true) (hnode : f'.node = f.node) :
    Underway told node content v w { s with feed := some f' } f' stage := by
  obtain ⟨logged, htold, hdue⟩ := h.due
  refine ⟨rfl, hnode.trans h.opened, h.phase, h.ungated, h.world, logged, htold, ?_⟩
  cases stage with
  | loop l =>
    cases l with
    | stop r => exact hdue
    | wait | look | offer | note | tell => cases hleft
  | ended e => exact hdue
  | closed => exact hdue
  | called | handling => cases hleft

/-- A loop that is on its way out stays there. -/
theorem Underway.isLeft (h : Underway told node content v w s f stage)
    (hleft : stage.isLeft = true) {c : Bool} (hs : s.advance Loop.act c w = some (w', s'))
    (h' : Underway told node content v w' s' f' stage') : stage'.isLeft = true := by
  have hphase := h'.phase
  rw [Subscription.advance, h.phase] at hs
  cases stage with
  | loop l =>
    cases l with
    | stop r =>
      simp only [Stage.phase, Loop.act, ReplayLoop.act, Action.map, Subscription.perform,
        Option.some.injEq, Prod.mk.injEq] at hs
      obtain ⟨rfl, rfl⟩ := hs
      cases stage' <;> first | rfl | cases hphase
    | wait | look | offer | note | tell => cases hleft
  | ended e =>
    simp only [Stage.phase, Option.some.injEq, Prod.mk.injEq] at hs
    obtain ⟨rfl, rfl⟩ := hs
    cases stage' <;> first | rfl | cases hphase
  | closed => simp [Stage.phase] at hs
  | called | handling => cases hleft

namespace Replay

/-- A replay on its way to `v`, with at most `n` steps left. The loop hangs up on its way out and
not before. -/
def Underway (told : List Event) (node : Nat) (content : Bytes) (v : Verdict) (n : Nat)
    (x : Replay) : Prop :=
  ∃ f stage, PubSub.Underway told node content v x.world x.subscription f stage ∧
    (x.hungUp = true → stage.isLeft = true) ∧ stepsLeft content f stage + (!x.hungUp).toNat = n

theorem isLeaving_iff (h : PubSub.Underway told node content v x.world x.subscription f stage) :
    x.isLeaving = true ↔ ∃ r, stage = .loop (.stop r) := by
  rw [isLeaving, h.phase]
  cases stage with
  | loop l => cases l <;> simp [Stage.phase]
  | called | handling | ended | closed => simp [Stage.phase]

theorem Underway.advance {c : Bool} (h : x.Underway told node content v n)
    (hxy : x.advance? c = some y) : ∃ m, m < n ∧ y.Underway told node content v m := by
  obtain ⟨f, stage, hu, hhung, rfl⟩ := h
  obtain ⟨⟨w', s'⟩, hs, rfl⟩ := Option.map_eq_some_iff.1 hxy
  obtain ⟨f', stage', hu', hlt⟩ := hu.advance hs
  exact ⟨_, Nat.add_lt_add_right hlt _, f', stage', hu',
    fun hx => hu.isLeft (hhung hx) hs hu', rfl⟩

theorem Underway.hangUp (h : x.Underway told node content v n) (hleaving : x.isLeaving = true)
    (hhung : x.hungUp = false) :
    ∃ m, m < n ∧ Underway told node content v m
      { x.setFeed (x.subscription.feed.map (·.hangUp)) with hungUp := true } := by
  obtain ⟨f, stage, hu, -, rfl⟩ := h
  obtain ⟨r, rfl⟩ := (isLeaving_iff hu).1 hleaving
  rw [hu.feed]
  refine ⟨_, ?_, f.hangUp, _, hu.setFeed rfl rfl, fun _ => rfl, rfl⟩
  have hcoming := f.hangUp_coming_le content
  have hwork : f.hangUp.work content = f.work content := rfl
  simp only [stepsLeft, hhung, hwork, Bool.not_true, Bool.not_false, Bool.toNat_true,
    Bool.toNat_false]
  omega

theorem Underway.loop {c : Bool} (h : x.Underway told node content v n)
    (hxy : x.loop? c = some y) : ∃ m, m < n ∧ y.Underway told node content v m := by
  rw [loop?] at hxy
  split at hxy
  · next hleaving =>
    split at hxy
    · split at hxy
      · exact h.advance hxy
      · cases hxy
    · next hhung =>
      obtain rfl := Option.some.inj hxy
      exact h.hangUp hleaving (by simpa using hhung)
  · exact h.advance hxy

theorem Underway.reader (h : x.Underway told node content v n) (hxy : x.reader? = some y) :
    ∃ m, m < n ∧ y.Underway told node content v m := by
  obtain ⟨f, stage, hu, hhung, rfl⟩ := h
  rw [reader?] at hxy
  split at hxy
  · next hx =>
    simp only [hu.feed, hu.opened, hu.world.read, Option.bind_eq_bind, Option.bind_some,
      Option.bind_eq_some_iff, Option.pure_def, Option.some.injEq] at hxy
    obtain ⟨f', hf, rfl⟩ := hxy
    obtain ⟨hnode, hcoming, hwork⟩ := Feed.windUp?_winds hf
    refine ⟨_, ?_, f', stage, hu.setFeed (hhung hx) hnode, hhung, rfl⟩
    simp only [stepsLeft, setFeed]
    omega
  · obtain ⟨s', hs, rfl⟩ := Option.map_eq_some_iff.1 hxy
    obtain ⟨f', stage', hu', hlt⟩ := hu.read hs
    exact ⟨_, Nat.add_lt_add_right hlt _, f', stage', hu', fun hx => absurd hx ‹_›, rfl⟩

theorem Underway.step (h : x.Underway told node content v n) (hxy : Step x y) :
    ∃ m, m < n ∧ y.Underway told node content v m := by
  cases hxy with
  | loop c hxy => exact h.loop hxy
  | reader hxy => exact h.reader hxy

/-! ## Whole replays -/

/-- A loop on its way out can hang up, or return, or its reader can go on. -/
theorem Underway.leaves (h : x.Underway told node content v n) (hleaving : x.isLeaving = true) :
    ∃ y, Step x y := by
  obtain ⟨f, stage, hu, -, -⟩ := h
  cases hhung : x.hungUp with
  | false => exact ⟨_, .loop true (by rw [loop?, if_pos hleaving, if_neg (by simp [hhung])])⟩
  | true =>
    cases hended : f.ended with
    | true =>
      have hadv : (x.advance? true).isSome = true := by
        obtain ⟨r, rfl⟩ := (isLeaving_iff hu).1 hleaving
        simp [advance?, Subscription.advance, hu.phase, Stage.phase, Loop.act, ReplayLoop.act,
          Action.map, Subscription.perform]
      obtain ⟨y, hy⟩ := Option.isSome_iff_exists.1 hadv
      exact ⟨y, .loop true (by simp [loop?, hleaving, hhung, hasStopped, hu.feed, hended, hy])⟩
    | false =>
      obtain ⟨f', hf⟩ := Option.isSome_iff_exists.1
        (Feed.windUp?_isSome hended (x.world.files.read f.node))
      exact ⟨x.setFeed (some f'), .reader (by simp [reader?, hhung, hu.feed, hf])⟩

/-- Nobody reads for a loop that has left. -/
theorem readAhead_left (h : PubSub.Underway told node content v x.world x.subscription f stage)
    (hleft : stage.isLeft = true) (hstays : x.isLeaving = false) :
    x.subscription.readAhead x.world = none := by
  have hlive : x.subscription.isLive = false := by
    rw [isLeaving, h.phase] at hstays
    rw [Subscription.isLive, h.phase]
    cases stage with
    | loop l =>
      cases l with
      | stop r => cases hstays
      | wait | look | offer | note | tell => cases hleft
    | called | handling => cases hleft
    | ended | closed => rfl
  simp [Subscription.readAhead, h.feed, hlive]

theorem Underway.rest (h : x.Underway told node content v n) (hx : ∀ y, ¬ Step x y) :
    AllCameTo v told x.bus := by
  have hstays : x.isLeaving = false := Bool.eq_false_iff.2 fun hleaving =>
    (h.leaves hleaving).elim fun y hy => hx y hy
  obtain ⟨f, stage, hu, hhung, -⟩ := h
  by_cases hstage : stage = .closed
  · subst hstage
    exact ⟨x.subscription, rfl, hu.cameTo⟩
  · rcases hu.goes_on hstage with hgo | hgo
    · obtain ⟨⟨w', s'⟩, hs⟩ := Option.ne_none_iff_exists'.1 hgo
      exact absurd (.loop true (by simp [loop?, hstays, advance?, hs]))
        (hx { x with world := w', subscription := s' })
    · cases hhungUp : x.hungUp with
      | true => exact absurd (readAhead_left hu (hhung hhungUp) hstays) hgo
      | false =>
        obtain ⟨s', hs⟩ := Option.ne_none_iff_exists'.1 hgo
        exact absurd (.reader (by simp [reader?, hhungUp, hs])) (hx { x with subscription := s' })

/-- A replay that waits for its reader ends, and comes to the same as one that does not. -/
theorem rests {r : Subscribing} (hgate : r.gated = false)
    (hw : Undisturbed node content r.options.governor w)
    (hkeeps : r.handler.Keeps (Undisturbed node content r.options.governor) w []
      (Record.stream .start content)) :
    Rests Step
      (fun x => AllCameTo (replayed r.options r.handler [] (Record.stream .start content)) w.told
        x.bus)
      ⟨w, r.spawn (some (.start node)) (.replay .wait), false⟩ :=
  rests_of_bound (fun _ _ _ h hxy => Underway.step h hxy) (fun _ _ h hx => Underway.rest h hx)
    ⟨_, _, underway_start hgate hw hkeeps, nofun, rfl⟩

end Replay

end PubSub
