import PubSub.Bus.Settled
import PubSub.Proofs.World

/-!
# The stop protocol

What a handler and a list of messages come to is said once, by `judged`: messages are handed over up
to the first call that stops the subscription. Both backends keep to it, in the four standings that
their loops share: a subscription is going on, works on a message, was cut off between two messages,
or has parted from its handler.
-/

namespace PubSub

open Subscription (conclude)

/-! ## Judgements -/

namespace Reaction

/-- Whether the handler cancels the governing token on the way. -/
def cancels (governor : Option String) (r : Reaction) : Bool :=
  governor.any fun token => r.effects.contains (.cancel token)

/-- What a subscription comes to after this call, unless it goes on. An answer to stop decides also
when the same call cancels the governing token. -/
def verdict? (governor : Option String) (r : Reaction) : Option (Except Error Unit) :=
  match r.outcome with
  | .flow .done => some (.ok ())
  | .flow (.abort cause) => some (.error (.handler cause))
  | .flow .continue => if r.cancels governor then some (.error .cancelled) else none
  | .panic text => some (conclude false none (.panicked text))

end Reaction

/-- The messages that were handed over, the latest first, and the result. -/
structure Judgement where
  seen : List Message
  result : Except Error Unit

/-- What a subscription comes to that was given the earlier messages and is offered these. -/
def judged (h : Handler) (governor : Option String) :
    (earlier : List Message) → List Message → Judgement
  | earlier, [] => ⟨earlier, .ok ()⟩
  | earlier, m :: ms =>
    match (h earlier m).verdict? governor with
    | some r => ⟨m :: earlier, r⟩
    | none => judged h governor (m :: earlier) ms

section

variable {h : Handler} {governor : Option String} {earlier ms rest : List Message} {m : Message}

/-- No call for one of these messages stops the subscription. -/
def Handler.GoesThrough (h : Handler) (governor : Option String) :
    (earlier : List Message) → List Message → Prop
  | _, [] => True
  | earlier, m :: ms =>
    (h earlier m).verdict? governor = none ∧ h.GoesThrough governor (m :: earlier) ms

theorem Handler.goesThrough_of (hall : ∀ j m, ms[j]? = some m →
      (h ((ms.take j).reverse ++ earlier) m).verdict? governor = none) :
    h.GoesThrough governor earlier ms := by
  induction ms generalizing earlier with
  | nil => trivial
  | cons m ms ih =>
    refine ⟨by simpa using hall 0 m rfl, ih fun j x hx => ?_⟩
    simpa using hall (j + 1) x hx

/-- The handler does not cancel the governing token in the call for the last message, if there is
one. -/
def Handler.SparesLast (h : Handler) (governor : Option String) (earlier ms : List Message) :
    Prop :=
  ∀ before m, ms = before ++ [m] → h.GoesThrough governor earlier before →
    (h (before.reverse ++ earlier) m).cancels governor = false

theorem Handler.SparesLast.tail (hlast : h.SparesLast governor earlier (m :: ms))
    (hm : (h earlier m).verdict? governor = none) : h.SparesLast governor (m :: earlier) ms := by
  rintro before last rfl hgoes
  simpa using hlast (m :: before) last rfl ⟨hm, hgoes⟩

/-- While no call stops the subscription, messages are handed over. -/
theorem judged_append (hgoes : h.GoesThrough governor earlier ms) :
    judged h governor earlier (ms ++ rest) = judged h governor (ms.reverse ++ earlier) rest := by
  induction ms generalizing earlier with
  | nil => rfl
  | cons m ms ih =>
    obtain ⟨hm, hrest⟩ := hgoes
    rw [List.cons_append, judged, hm]
    simp only
    rw [ih hrest, List.reverse_cons, List.append_assoc, List.singleton_append]

/-- The handler stops the subscription with the result `r` in the call for message `k`, counted from
zero, and in none before. -/
structure Handler.StopsFirst (h : Handler) (governor : Option String) (ms : List Message) (k : Nat)
    (r : Except Error Unit) : Prop where
  stops : ∃ m, ms[k]? = some m ∧ (h (ms.take k).reverse m).verdict? governor = some r
  first : ∀ j m, j < k → ms[j]? = some m → (h (ms.take j).reverse m).verdict? governor = none

/-- No call before the first one that stops the subscription does. -/
theorem Handler.StopsFirst.split {k : Nat} {r : Except Error Unit}
    (hk : h.StopsFirst governor ms k r) :
    ∃ m rest, ms = ms.take k ++ m :: rest ∧ ms.take (k + 1) = ms.take k ++ [m] ∧
      h.GoesThrough governor [] (ms.take k) ∧
      (h (ms.take k).reverse m).verdict? governor = some r := by
  obtain ⟨⟨m, hm, hr⟩, hfirst⟩ := hk
  obtain ⟨hlt, hget⟩ := List.getElem?_eq_some_iff.1 hm
  refine ⟨m, ms.drop (k + 1), ?_, ?_, Handler.goesThrough_of fun j x hx => ?_, hr⟩
  · rw [← hget, List.getElem_cons_drop, List.take_append_drop]
  · rw [← hget, List.take_succ_eq_append_getElem hlt]
  · have hj : j < k := by
      have := (List.getElem?_eq_some_iff.1 hx).1
      rw [List.length_take] at this
      omega
    rw [List.getElem?_take_of_lt hj] at hx
    rw [List.take_take, Nat.min_eq_left (Nat.le_of_lt hj), List.append_nil]
    exact hfirst j x hj hx

/-- Up to a first call that stops the subscription, messages are handed over. -/
theorem Handler.StopsFirst.judged {k : Nat} {r : Except Error Unit}
    (hk : h.StopsFirst governor ms k r) :
    judged h governor [] ms = ⟨(ms.take (k + 1)).reverse, r⟩ := by
  obtain ⟨m, rest, hms, htake, hgoes, hr⟩ := hk.split
  have hall : PubSub.judged h governor [] (ms.take k ++ m :: rest) =
      PubSub.judged h governor ((ms.take k).reverse ++ []) (m :: rest) :=
    judged_append hgoes
  rw [← hms, List.append_nil, PubSub.judged, hr] at hall
  rw [hall, htake, List.reverse_append, List.reverse_singleton, List.singleton_append]

/-- If there is no first call that stops the subscription, there is none. -/
theorem verdict_none (hgoes : ∀ k r, ¬ h.StopsFirst governor ms k r) (k : Nat) {m : Message}
    (hm : ms[k]? = some m) : (h (ms.take k).reverse m).verdict? governor = none := by
  induction k using Nat.strongRecOn generalizing m with
  | ind k ih =>
    cases hv : (h (ms.take k).reverse m).verdict? governor with
    | none => rfl
    | some r => exact absurd ⟨⟨m, hm, hv⟩, fun j m' hj hm' => ih j hj hm'⟩ (hgoes k r)

theorem goesThrough_all (hgoes : ∀ k r, ¬ h.StopsFirst governor ms k r) :
    h.GoesThrough governor [] ms := by
  refine Handler.goesThrough_of fun j x hx => ?_
  rw [List.append_nil]
  exact verdict_none hgoes j hx

/-- A handler that stops no subscription is given all messages. -/
theorem judged_all (hgoes : ∀ k r, ¬ h.StopsFirst governor ms k r) :
    judged h governor [] ms = ⟨ms.reverse, .ok ()⟩ := by
  have hall : judged h governor [] (ms ++ []) = judged h governor (ms.reverse ++ []) [] :=
    judged_append (goesThrough_all hgoes)
  rwa [List.append_nil, List.append_nil] at hall

end

/-! ## Standings -/

variable {σ : Type} {drive : σ → Action σ} {v : Judgement} {w w' : World} {s s' : Subscription σ}
  {earlier rest : List Message} {m : Message}

/-- The loop and its reader go on with what `s` goes on with. -/
structure Subscription.Kin (s s' : Subscription σ) : Prop where
  handler : s'.handler = s.handler
  options : s'.options = s.options
  gated : s'.gated = s.gated
  feed : s'.feed = s.feed

/-- Nothing has stopped the subscription, and `v` is what it comes to with the messages `rest`. -/
structure Going (v : Judgement) (w : World) (s : Subscription σ) (rest : List Message) : Prop where
  fresh : s.dispatcher = .fresh
  live : w.isCancelled? s.options.governor = false
  last : s.handler.SparesLast s.options.governor s.seen rest
  due : v = judged s.handler s.options.governor s.seen rest

/-- The handler works on a message. -/
structure Working (v : Judgement) (w : World) (s : Subscription σ) (earlier : List Message)
    (m : Message) (rest : List Message) : Prop where
  fresh : s.dispatcher = .fresh
  live : w.isCancelled? s.options.governor = false
  seen : s.seen = m :: earlier
  last : s.handler.SparesLast s.options.governor earlier (m :: rest)
  due : v = judged s.handler s.options.governor earlier (m :: rest)

/-- The governing token was cancelled between two messages. -/
structure CutOff (v : Judgement) (w : World) (s : Subscription σ) : Prop where
  fresh : s.dispatcher = .fresh
  cancelled : w.isCancelled? s.options.governor = true
  due : v = ⟨s.seen, .error .cancelled⟩

/-- The loop has come to an end, and `v` is what is told of it. -/
def Parted (v : Judgement) (w : World) (s : Subscription σ) (e : Ending) : Prop :=
  v = ⟨s.seen, conclude (w.isCancelled? s.options.governor) s.dispatcher.failure e⟩

theorem Going.isCancelled (h : Going v w s rest) : s.isCancelled w = false := by
  rw [Subscription.isCancelled, h.fresh, h.live]
  rfl

theorem Going.isStopped (h : Going v w s rest) : s.isStopped w = false := by
  rw [Subscription.isStopped, h.isCancelled, h.fresh]
  rfl

theorem CutOff.isCancelled (h : CutOff v w s) : s.isCancelled w = true := by
  rw [Subscription.isCancelled, h.cancelled, Bool.or_true]

/-- Where the loop is and what it reads from make no difference to how a subscription stands. -/
theorem Going.move (h : Going v w s rest) (g : Option Feed) (p : Phase σ) :
    Going v w { s with feed := g, phase := p } rest :=
  ⟨h.fresh, h.live, h.last, h.due⟩

theorem CutOff.move (h : CutOff v w s) (g : Option Feed) (p : Phase σ) :
    CutOff v w { s with feed := g, phase := p } :=
  ⟨h.fresh, h.cancelled, h.due⟩

/-- A subscription that has been given all messages may return. -/
theorem Going.part (h : Going v w s []) : Parted v w s (.returned (.ok ())) := by
  rw [Parted, h.fresh, h.due]
  rfl

theorem CutOff.part (h : CutOff v w s) : Parted v w s (.returned (.error .cancelled)) := by
  rw [Parted, h.fresh, h.cancelled, h.due]
  rfl

/-! ## Steps -/

theorem Going.call {c : Bool} {next : Delivery → σ} (h : Going v w s (m :: rest))
    (hphase : s.phase = .called m next) (hs : s.advance drive c w = some (w', s')) :
    w' = w ∧ s' = { s with phase := .handling m next, seen := m :: s.seen } ∧
      Working v w s' s.seen m rest := by
  simp only [Subscription.advance, hphase, h.isStopped, Bool.false_eq_true, if_false,
    Option.some.injEq, Prod.mk.injEq] at hs
  obtain ⟨rfl, rfl⟩ := hs
  exact ⟨rfl, rfl, h.fresh, h.live, rfl, h.last, h.due⟩

/-- Where a subscription stands after the handler's answer. -/
inductive Answered (v : Judgement) (w : World) (s : Subscription σ) (rest : List Message)
    (next : Delivery → σ) : Prop
  | goes : s.phase = .running (next .ack) → Going v w s rest → Answered v w s rest next
  | cutOff : s.phase = .running (next .ack) → CutOff v w s → rest ≠ [] →
      Answered v w s rest next
  | parts (d : Delivery) : d = .ackAndStop ∨ d = .reject → s.phase = .running (next d) →
      Parted v w s (.returned (.ok ())) → Answered v w s rest next
  | breaks (text : String) : s.phase = .ended (.panicked text) →
      Parted v w s (.panicked text) → Answered v w s rest next

theorem Working.answer {c : Bool} {next : Delivery → σ} (h : Working v w s earlier m rest)
    (hphase : s.phase = .handling m next) (hgated : s.gated = false)
    (hs : s.advance drive c w = some (w', s')) :
    w' = (s.handler earlier m).effects.foldl World.act w ∧ s.Kin s' ∧
      Answered v w' s' rest next := by
  obtain ⟨hfresh, hlive, hseen, hlast, hdue⟩ := h
  have hcancelled : ((s.handler earlier m).effects.foldl World.act w).isCancelled?
      s.options.governor = (s.handler earlier m).cancels s.options.governor := by
    rw [World.isCancelled?_acts, hlive, Bool.or_false, Reaction.cancels]
  simp only [Subscription.advance, hphase, hgated, Bool.false_eq_true, false_and, if_false,
    Option.some.injEq] at hs
  rw [Subscription.answer, hseen, List.tail_cons] at hs
  rw [judged, Reaction.verdict?] at hdue
  cases ho : (s.handler earlier m).outcome with
  | panic text =>
    simp only [ho, Prod.mk.injEq] at hs hdue
    obtain ⟨rfl, rfl⟩ := hs
    exact ⟨rfl, ⟨rfl, rfl, rfl, rfl⟩, .breaks text rfl hdue⟩
  | flow flow =>
    cases flow with
    | «continue» =>
      simp only [ho, Dispatcher.answer, Prod.mk.injEq] at hs hdue
      obtain ⟨rfl, rfl⟩ := hs
      refine ⟨rfl, ⟨rfl, rfl, rfl, rfl⟩, ?_⟩
      cases hc : (s.handler earlier m).cancels s.options.governor with
      | true =>
        simp only [hc, if_true] at hdue
        refine .cutOff rfl ⟨hfresh, hcancelled.trans hc, hdue.trans ?_⟩ ?_
        · rw [Subscription.deliver]
        · rintro rfl
          have hspared := hlast [] m rfl trivial
          simp [hc] at hspared
      | false =>
        simp only [hc, Bool.false_eq_true, if_false] at hdue
        refine .goes rfl ⟨hfresh, hcancelled.trans hc, ?_, hdue.trans ?_⟩
        · have hgoes : ((s.handler earlier m).verdict? s.options.governor) = none := by
            simp [Reaction.verdict?, ho, hc]
          simpa [Subscription.deliver, hseen] using hlast.tail hgoes
        · simp [Subscription.deliver]
    | done =>
      simp only [ho, Dispatcher.answer, Prod.mk.injEq] at hs hdue
      obtain ⟨rfl, rfl⟩ := hs
      refine ⟨rfl, ⟨rfl, rfl, rfl, rfl⟩, .parts .ackAndStop (.inl rfl) rfl (hdue.trans ?_)⟩
      simp only [Subscription.deliver, Dispatcher.stop, hfresh]
      rfl
    | abort cause =>
      simp only [ho, Dispatcher.answer, Prod.mk.injEq] at hs hdue
      obtain ⟨rfl, rfl⟩ := hs
      refine ⟨rfl, ⟨rfl, rfl, rfl, rfl⟩, .parts .reject (.inr rfl) rfl (hdue.trans ?_)⟩
      simp only [Subscription.deliver, Dispatcher.stop]
      rfl

theorem Parted.close {c : Bool} {e : Ending} (h : Parted v w s e) (hphase : s.phase = .ended e)
    (hs : s.advance drive c w = some (w', s')) :
    w' = w ∧ s' = { s with phase := .over, result := some v.result } ∧ s.seen = v.seen := by
  simp only [Subscription.advance, hphase, Option.some.injEq, Prod.mk.injEq] at hs
  obtain ⟨rfl, rfl⟩ := hs
  rw [h]
  exact ⟨rfl, rfl, rfl⟩

/-! ## At the end -/

/-- The first subscription of a bus has come to `v`. -/
def CameToJudgement (v : Judgement) (b : Bus Loop) : Prop :=
  b.handled = v.seen.reverse ∧ b.outcome? = some v.result

theorem cameToJudgement {b : Bus Loop} {s : Subscription Loop} (hs : b.subscriptions = [s])
    (hseen : s.seen = v.seen) (hresult : s.result = some v.result) : CameToJudgement v b := by
  refine ⟨?_, ?_⟩
  · rw [Bus.handled, hs, List.head?_cons, Option.map_some, Option.getD_some, hseen]
  · rw [Bus.outcome?, hs, List.head?_cons, Option.bind_some, Subscription.outcome?, hresult]

end PubSub
