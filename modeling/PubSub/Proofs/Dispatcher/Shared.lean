import Mathlib.Data.List.Nodup
import Mathlib.Data.List.Perm.Basic
import Mathlib.Data.List.Range
import PubSub.Dispatcher.Shared

/-!
# Moves of a shared dispatcher

What one move can do, which moves stop the dispatcher (`isStopped_move`), and what no move breaks:
one call at most has the lock, every call is in one place, calls keep their order, and what they
come back with is what the handler answered.
-/

namespace PubSub

variable {τ : Type}

/-- How a message fares that the handler answers so. -/
def Flow.delivery : Flow → Delivery
  | .continue => .ack
  | .done => .ackAndStop
  | .abort _ => .reject

namespace Delivery

/-- The handler's answer to the message stopped the dispatcher. -/
def isStop : Delivery → Bool
  | .ackAndStop | .reject => true
  | .ack | .discarded => false

theorem eq_ack {x : Delivery} (kept : x ≠ .discarded) (goes : x.isStop = false) : x = .ack := by
  cases x <;> simp_all [isStop]

end Delivery

namespace Flow

theorem delivery_ne_discarded (f : Flow) : f.delivery ≠ .discarded := by
  cases f <;> simp [delivery]

theorem isStop_delivery (f : Flow) : f.delivery.isStop = f.isStop := by
  cases f <;> rfl

theorem delivery_eq_ack (f : Flow) : f.delivery = .ack ↔ f.isStop = false := by
  cases f <;> simp [delivery, isStop]

end Flow

namespace Dispatcher

theorem answer_delivery (d : Dispatcher) (f : Flow) : (d.answer f).1 = f.delivery := by
  cases f <;> rfl

theorem isStopped_answer (d : Dispatcher) (f : Flow) :
    (d.answer f).2.isStopped = (d.isStopped || f.isStop) := by
  cases f <;> simp [answer, stop, isStopped, Flow.isStop]

theorem isStopped_cancel (d : Dispatcher) : d.cancel.isStopped = true := by
  simp [cancel, isStopped]

theorem isStopped_fail (d : Dispatcher) (e : Error) : (d.fail e).isStopped = true := by
  simp [fail, stop, isStopped]

end Dispatcher

/-- The handler answers every message. -/
def Handler.NeverPanics (h : Handler) : Prop :=
  ∀ earlier m, ∃ flow, (h earlier m).outcome = .flow flow

namespace SharedDispatcher

theorem isStopped_applyEffects (own : String) (state : Dispatcher) (effects : List Effect) :
    (applyEffects own state effects).isStopped =
      (state.isStopped || effects.contains (.cancel own)) := by
  unfold applyEffects
  cases cancels : effects.contains (.cancel own) with
  | true => simp [state.isStopped_cancel]
  | false => simp

/-! ## What a move does -/

/-- At most one call was given the lock and has not come back; the lock is taken if there is one. -/
def Alone (d : SharedDispatcher τ) : Prop :=
  (d.inside = [] ∧ d.taken = false) ∨ ∃ visit, d.inside = [visit] ∧ d.taken = true

/-- All that a move can do while at most one call has the lock. -/
inductive Moves (h : Handler) (own : String) (d : SharedDispatcher τ) :
    DispatchMove τ → SharedDispatcher τ → Prop where
  | idle (m : DispatchMove τ) : Moves h own d m d
  | refused (c : Call τ) (stopped : d.state.isStopped) :
    Moves h own d (.call c)
      { d with calls := d.calls + 1, returned := (⟨d.calls, c⟩, .discarded) :: d.returned }
  | admitted (c : Call τ) :
    Moves h own d (.call c) { d with calls := d.calls + 1, passed := d.passed ++ [⟨d.calls, c⟩] }
  | arrives (place : Nat) (turn : Turn τ)
      (passed : (turn :: d.passed.eraseIdx place).Perm d.passed) :
    Moves h own d (.arrive place)
      { d with
        passed := d.passed.eraseIdx place
        queue := d.queue ++ [turn]
        arrived := turn :: d.arrived }
  | locks (turn : Turn τ) (queue : List (Turn τ)) (queued : d.queue = turn :: queue)
      (free : d.inside = []) :
    Moves h own d .lock { d with queue := queue, taken := true, inside := [⟨turn, .locked⟩] }
  | drops (place : Nat) (turn : Turn τ) (inside : d.inside = [⟨turn, .locked⟩])
      (stopped : d.state.isStopped) :
    Moves h own d (.advance place) { d with inside := [⟨turn, .leaving .discarded⟩] }
  | clears (place : Nat) (turn : Turn τ) (inside : d.inside = [⟨turn, .locked⟩])
      (running : d.state.isStopped = false) :
    Moves h own d (.advance place) { d with inside := [⟨turn, .checked⟩] }
  | begins (place : Nat) (turn : Turn τ) (inside : d.inside = [⟨turn, .checked⟩]) :
    Moves h own d (.advance place)
      { d with
        begun := turn :: d.begun
        inside := [⟨turn, .handling (h d.seen turn.call.message)⟩] }
  | acts (place : Nat) (turn : Turn τ) (reaction : Reaction)
      (inside : d.inside = [⟨turn, .handling reaction⟩]) :
    Moves h own d (.advance place)
      { d with
        state := applyEffects own d.state reaction.effects
        inside := [⟨turn, .answering reaction.outcome⟩] }
  | breaks (place : Nat) (turn : Turn τ) (text : String)
      (inside : d.inside = [⟨turn, .answering (.panic text)⟩]) :
    Moves h own d (.advance place) { d with inside := [], taken := false }
  | answers (place : Nat) (turn : Turn τ) (flow : Flow)
      (inside : d.inside = [⟨turn, .answering (.flow flow)⟩]) :
    Moves h own d (.advance place)
      { d with state := (d.state.answer flow).2, inside := [⟨turn, .leaving flow.delivery⟩] }
  | leaves (place : Nat) (turn : Turn τ) (delivery : Delivery)
      (inside : d.inside = [⟨turn, .leaving delivery⟩]) :
    Moves h own d (.advance place)
      { d with returned := (turn, delivery) :: d.returned, inside := [], taken := false }
  | cancels : Moves h own d .cancel { d with state := d.state.cancel }
  | fails (e : Error) : Moves h own d (.fail e) { d with state := d.state.fail e }

variable {h : Handler} {own : String} {d d' : SharedDispatcher τ} {m : DispatchMove τ}

theorem enter_moves (c : Call τ) : Moves h own d (.call c) (d.enter c) := by
  by_cases stopped : d.state.isStopped
  · have moves : Moves h own d _ _ := .refused c stopped
    simpa [enter, stopped] using moves
  · have moves : Moves h own d _ _ := .admitted c
    simpa [enter, stopped] using moves

theorem proceed_moves (visit : Visit τ) (inside : d.inside = [visit]) (place : Nat) :
    Moves h own d (.advance place) (d.proceed h own 0 visit.turn visit.stage) := by
  obtain ⟨turn, stage⟩ := visit
  cases stage with
  | locked =>
    by_cases stopped : d.state.isStopped
    · have moves : Moves h own d _ _ := .drops place turn inside stopped
      simpa [proceed, stopped, reach, inside] using moves
    · have moves : Moves h own d _ _ := .clears place turn inside (by simpa using stopped)
      simpa [proceed, stopped, reach, inside] using moves
  | checked =>
    have moves : Moves h own d _ _ := .begins place turn inside
    simpa [proceed, reach, inside] using moves
  | handling reaction =>
    have moves : Moves h own d _ _ := .acts place turn reaction inside
    simpa [proceed, reach, inside] using moves
  | answering outcome =>
    cases outcome with
    | panic text =>
      have moves : Moves h own d _ _ := .breaks place turn text inside
      simpa [proceed, release, inside] using moves
    | flow flow =>
      have moves : Moves h own d _ _ := .answers place turn flow inside
      simpa [proceed, reach, inside, Dispatcher.answer_delivery] using moves
  | leaving delivery =>
    have moves : Moves h own d _ _ := .leaves place turn delivery inside
    simpa [proceed, release, inside] using moves

theorem move_moves (h : Handler) (own : String) (alone : d.Alone) (m : DispatchMove τ) :
    Moves h own d m (d.move h own m) := by
  cases m with
  | call c => exact enter_moves c
  | arrive place =>
    cases found : d.passed[place]? with
    | none => simpa [move, found] using Moves.idle _
    | some turn =>
      obtain ⟨bound, rfl⟩ := List.getElem?_eq_some_iff.mp found
      have moves : Moves h own d _ _ :=
        .arrives place _ (List.getElem_cons_eraseIdx_perm bound)
      simpa [move, found] using moves
  | lock =>
    obtain ⟨free, taken⟩ | ⟨visit, inside, taken⟩ := alone
    · cases queued : d.queue with
      | nil => simpa [move, taken, queued] using Moves.idle _
      | cons turn queue =>
        simpa [move, taken, queued, free] using Moves.locks turn queue queued free
    · simpa [move, taken] using Moves.idle _
  | advance place =>
    obtain ⟨free, -⟩ | ⟨visit, inside, -⟩ := alone
    · simpa [move, free] using Moves.idle _
    · cases place with
      | zero => simpa [move, inside] using proceed_moves visit inside 0
      | succ place => simpa [move, inside] using Moves.idle _
  | cancel => exact .cancels
  | fail e => exact .fails e

theorem Alone.move (alone : d.Alone) (moves : Moves h own d m d') : d'.Alone := by
  cases moves with
  | locks turn queue queued free => exact .inr ⟨_, rfl, rfl⟩
  | breaks | leaves => exact .inl ⟨rfl, rfl⟩
  | drops place turn inside | clears place turn inside | begins place turn inside
  | acts place turn reaction inside | answers place turn flow inside =>
    obtain ⟨free, -⟩ | ⟨visit, -, taken⟩ := alone
    · simp [free] at inside
    · exact .inr ⟨_, rfl, taken⟩
  | idle | refused | admitted | arrives | cancels | fails => exact alone

end SharedDispatcher

/-! ## Views of a dispatcher -/

namespace Visit

/-- The handler was given the message and has not answered. -/
def inFlight (visit : Visit τ) : Bool :=
  match visit.stage with
  | .handling _ | .answering _ => true
  | .locked | .checked | .leaving _ => false

/-- The second check let the call through, and the handler was not called yet. -/
def isCleared (visit : Visit τ) : Bool := visit.stage = .checked

/-- What the call will come back with, once that is known. -/
def decided? (visit : Visit τ) : Option (Turn τ × Delivery) :=
  match visit.stage with
  | .leaving delivery => some (visit.turn, delivery)
  | .locked | .checked | .handling _ | .answering _ => none

/-- The handler was called, or will not be. -/
def isPast (visit : Visit τ) : Bool :=
  match visit.stage with
  | .locked | .checked => false
  | .handling _ | .answering _ | .leaving _ => true

/-- The next move of the call stops the dispatcher: the handler cancels the token named `own`, or
answers that it is done or failed. -/
def halts (own : String) (visit : Visit τ) : Bool :=
  match visit.stage with
  | .handling reaction => reaction.effects.contains (.cancel own)
  | .answering (.flow flow) => flow.isStop
  | .locked | .checked | .answering (.panic _) | .leaving _ => false

end Visit

namespace SharedDispatcher

/-- Calls whose message the handler works on. -/
def inFlight (d : SharedDispatcher τ) : List (Turn τ) := (d.inside.filter (·.inFlight)).map (·.turn)

/-- Calls that the second check let through and whose message the handler was not given yet. -/
def cleared (d : SharedDispatcher τ) : List (Turn τ) :=
  (d.inside.filter (·.isCleared)).map (·.turn)

/-- The move stops the dispatcher: somebody cancels it, it fails, or a call's next move does so. -/
def halts (own : String) (d : SharedDispatcher τ) : DispatchMove τ → Bool
  | .cancel | .fail _ => true
  | .advance place => d.inside[place]?.any (·.halts own)
  | .call _ | .arrive _ | .lock => false

/-- Calls of which it is known what they come back with. -/
def decided (d : SharedDispatcher τ) : List (Turn τ × Delivery) :=
  d.inside.filterMap (·.decided?) ++ d.returned

/-- Calls whose message the handler has answered, the latest first. -/
def answered (d : SharedDispatcher τ) : List (Turn τ × Delivery) :=
  d.decided.filter (·.2 ≠ .discarded)

/-- The calls wherever they are. -/
def turns (d : SharedDispatcher τ) : List (Turn τ) :=
  d.returned.map (·.1) ++ d.inside.map (·.turn) ++ d.queue ++ d.passed

variable {h : Handler} {own : String} {d d' : SharedDispatcher τ} {m : DispatchMove τ}

/-! ## Stopping -/

theorem isStopped_proceed (place : Nat) (visit : Visit τ) :
    (d.proceed h own place visit.turn visit.stage).state.isStopped =
      (d.state.isStopped || visit.halts own) := by
  obtain ⟨turn, stage⟩ := visit
  cases stage with
  | locked | checked | leaving => simp [proceed, reach, release, Visit.halts]
  | handling reaction => exact isStopped_applyEffects own d.state reaction.effects
  | answering outcome =>
    cases outcome with
    | panic text => simp [proceed, release, Visit.halts]
    | flow flow => exact d.state.isStopped_answer flow

/-- A dispatcher has stopped if it had before or the move stops it, and never goes on again. -/
theorem isStopped_move (m : DispatchMove τ) :
    (d.move h own m).state.isStopped = (d.state.isStopped || d.halts own m) := by
  cases m with
  | call c => by_cases stopped : d.state.isStopped <;> simp [move, enter, halts, stopped]
  | arrive place => cases found : d.passed[place]? <;> simp [move, halts, found]
  | lock =>
    cases taken : d.taken <;> cases queued : d.queue <;> simp [move, halts, taken, queued]
  | advance place =>
    cases found : d.inside[place]? with
    | none => simp [move, halts, found]
    | some visit => simpa [move, halts, found] using isStopped_proceed place visit
  | cancel => simp [move, halts, d.state.isStopped_cancel]
  | fail e => simp [move, halts, d.state.isStopped_fail e]

theorem stopped_move (stopped : d.state.isStopped) (m : DispatchMove τ) :
    (d.move h own m).state.isStopped := by
  rw [isStopped_move, stopped, Bool.true_or]

theorem stopped_run (stopped : d.state.isStopped) (moves : List (DispatchMove τ)) :
    (d.run h own moves).state.isStopped := by
  induction moves generalizing d with
  | nil => exact stopped
  | cons m moves ih => exact ih (stopped_move stopped m)

/-- From `d` to `d'` no call was let through; the handler was given messages of those only that had
been let through before. -/
def Drains (d d' : SharedDispatcher τ) : Prop :=
  ∃ late, d'.cleared ++ late = d.cleared ∧ d'.begun = late ++ d.begun

theorem Drains.of_eq (cleared : d'.cleared = d.cleared) (begun : d'.begun = d.begun) :
    d.Drains d' :=
  ⟨[], by simp [cleared], begun⟩

theorem Drains.trans {d'' : SharedDispatcher τ} (first : d.Drains d') (second : d'.Drains d'') :
    d.Drains d'' := by
  obtain ⟨late, cleared, begun⟩ := first
  obtain ⟨later, cleared', begun'⟩ := second
  refine ⟨later ++ late, ?_, ?_⟩
  · rw [← List.append_assoc, cleared', cleared]
  · rw [begun', begun, List.append_assoc]

/-- Where nobody was let through, the handler is given nothing. -/
theorem Drains.of_nobody (drains : d.Drains d') (nobody : d.cleared = []) :
    d'.cleared = [] ∧ d'.begun = d.begun := by
  obtain ⟨late, cleared, begun⟩ := drains
  rw [nobody, List.append_eq_nil_iff] at cleared
  obtain ⟨still, rfl⟩ := cleared
  exact ⟨still, begun⟩

theorem Moves.drains (moves : Moves h own d m d') (stopped : d.state.isStopped) : d.Drains d' := by
  cases moves with
  | clears place turn inside running => simp [running] at stopped
  | begins place turn inside =>
    exact ⟨[turn], by simp [cleared, inside, Visit.isCleared], rfl⟩
  | locks turn queue queued free =>
    exact .of_eq (by simp [cleared, free, Visit.isCleared]) rfl
  | drops place turn inside | acts place turn reaction inside | breaks place turn text inside
  | answers place turn flow inside | leaves place turn delivery inside =>
    exact .of_eq (by simp [cleared, inside, Visit.isCleared]) rfl
  | idle | refused | admitted | arrives | cancels | fails => exact .of_eq rfl rfl

/-- Once the dispatcher has stopped, the second check lets no call through, whatever follows. -/
theorem Alone.drains_run (h : Handler) (own : String) (alone : d.Alone)
    (stopped : d.state.isStopped) (moves : List (DispatchMove τ)) :
    d.Drains (d.run h own moves) := by
  induction moves generalizing d with
  | nil => exact .of_eq rfl rfl
  | cons m moves ih =>
    have moved := move_moves h own alone m
    exact (moved.drains stopped).trans (ih (alone.move moved) (stopped_move stopped m))

/-! ## Answers -/

/-- The messages of the calls, the latest of which comes first. -/
abbrev messages (calls : List (Turn τ × Delivery)) : List Message := calls.map (·.1.call.message)

/-- Every call fared as the handler answered it in view of the earlier ones. -/
def Told (h : Handler) : List (Turn τ × Delivery) → Prop
  | [] => True
  | (turn, delivery) :: earlier =>
    Told h earlier ∧
      ∃ flow, (h (messages earlier) turn.call.message).outcome = .flow flow ∧
        delivery = flow.delivery

/-- What a call with the lock has in hand is the handler's reaction to its message. -/
def Fits (h : Handler) (earlier : List Message) (visit : Visit τ) : Prop :=
  match visit.stage with
  | .handling reaction => reaction = h earlier visit.turn.call.message
  | .answering outcome => outcome = (h earlier visit.turn.call.message).outcome
  | .locked | .checked | .leaving _ => True

/-- No call with the lock is about to break down. -/
def Whole (d : SharedDispatcher τ) : Prop :=
  ∀ text turn, d.inside ≠ [⟨turn, .answering (.panic text)⟩]

theorem whole_of_fits (calm : h.NeverPanics)
    (fits : ∀ visit ∈ d.inside, Fits h (messages d.answered) visit) : d.Whole := by
  intro text turn inside
  obtain ⟨flow, answer⟩ := calm (messages d.answered) turn.call.message
  have panics := fits _ (by rw [inside]; exact List.mem_singleton_self _)
  simp [Fits, answer] at panics

/-- What a move changes in the handler's work: nothing, or a call of it begins or is answered. -/
inductive Shows (h : Handler) (d d' : SharedDispatcher τ) : Prop where
  | nothing (begun : d'.begun = d.begun) (inFlight : d'.inFlight = d.inFlight)
      (answered : d'.answered = d.answered)
  | begins (turn : Turn τ) (free : d.inFlight = []) (begun : d'.begun = turn :: d.begun)
      (inFlight : d'.inFlight = [turn]) (answered : d'.answered = d.answered)
  | answers (turn : Turn τ) (flow : Flow) (busy : d.inFlight = [turn])
      (answer : (h (messages d.answered) turn.call.message).outcome = .flow flow)
      (begun : d'.begun = d.begun) (inFlight : d'.inFlight = []) (cleared : d'.cleared = [])
      (answered : d'.answered = (turn, flow.delivery) :: d.answered)
      (stopped : d'.state.isStopped = (d.state.isStopped || flow.isStop))

theorem Moves.shows (calm : h.NeverPanics) (moves : Moves h own d m d')
    (fits : ∀ visit ∈ d.inside, Fits h (messages d.answered) visit) : Shows h d d' := by
  cases moves with
  | idle | admitted | arrives | cancels | fails => exact .nothing rfl rfl rfl
  | refused c stopped => exact .nothing rfl rfl (by simp [answered, decided])
  | locks turn queue queued free =>
    refine .nothing rfl ?_ ?_
    · simp [inFlight, free, Visit.inFlight]
    · simp [answered, decided, free, Visit.decided?]
  | drops place turn inside | clears place turn inside | acts place turn reaction inside
  | leaves place turn delivery inside =>
    refine .nothing rfl ?_ ?_
    · simp [inFlight, inside, Visit.inFlight]
    · simp [answered, decided, inside, Visit.decided?]
  | begins place turn inside =>
    refine .begins turn ?_ rfl ?_ ?_
    · simp [inFlight, inside, Visit.inFlight]
    · simp [inFlight, Visit.inFlight]
    · simp [answered, decided, inside, Visit.decided?]
  | breaks place turn text inside => exact absurd inside (whole_of_fits calm fits text turn)
  | answers place turn flow inside =>
    have answer := fits _ (by rw [inside]; exact List.mem_singleton_self _)
    refine .answers turn flow ?_ answer.symm rfl ?_ ?_ ?_ (Dispatcher.isStopped_answer _ _)
    · simp [inFlight, inside, Visit.inFlight]
    · simp [inFlight, Visit.inFlight]
    · simp [cleared, Visit.isCleared]
    · simp [answered, decided, inside, Visit.decided?, flow.delivery_ne_discarded]

/-- What the handler has done is what it answers to the messages it was given. -/
structure Working (h : Handler) (d : SharedDispatcher τ) : Prop where
  begun : d.begun = d.inFlight ++ d.answered.map (·.1)
  told : Told h d.answered
  fits : ∀ visit ∈ d.inside, Fits h (messages d.answered) visit

theorem Working.fits_move (working : d.Working h) (moves : Moves h own d m d') :
    ∀ visit ∈ d'.inside, Fits h (messages d'.answered) visit := by
  have begun := working.begun
  have fits := working.fits
  cases moves with
  | idle | admitted | arrives | cancels | fails => exact fits
  | refused c stopped => simpa [answered, decided] using fits
  | locks | drops | clears | answers | breaks | leaves => simp [Fits]
  | begins place turn inside =>
    have seen : d.seen = messages d.answered := by
      simp [seen, begun, inFlight, inside, Visit.inFlight, messages]
    simp [Fits, seen, answered, decided, inside, Visit.decided?]
  | acts place turn reaction inside =>
    have reacts := fits _ (by rw [inside]; exact List.mem_singleton_self _)
    simp [Fits, answered, decided, inside, Visit.decided?] at reacts ⊢
    rw [← reacts]

theorem Working.move (working : d.Working h) (calm : h.NeverPanics) (moves : Moves h own d m d') :
    d'.Working h := by
  have shown := moves.shows calm working.fits
  have fits := working.fits_move moves
  cases shown with
  | nothing begun inFlight answered =>
    refine ⟨?_, by rw [answered]; exact working.told, fits⟩
    rw [begun, inFlight, answered, working.begun]
  | begins turn free begun inFlight answered =>
    refine ⟨?_, by rw [answered]; exact working.told, fits⟩
    rw [begun, inFlight, answered, working.begun, free]
    rfl
  | answers turn flow busy answer begun inFlight cleared answered =>
    refine ⟨?_, ?_, fits⟩
    · rw [begun, inFlight, answered, working.begun, busy]
      rfl
    · rw [answered]
      exact ⟨working.told, flow, answer, rfl⟩

theorem Told.ne_discarded {calls : List (Turn τ × Delivery)} (told : Told h calls) :
    ∀ call ∈ calls, call.2 ≠ .discarded := by
  induction calls with
  | nil => simp
  | cons call calls ih =>
    obtain ⟨earlier, flow, -, delivery⟩ := told
    intro other member
    rcases List.mem_cons.mp member with rfl | member
    · rw [delivery]
      exact flow.delivery_ne_discarded
    · exact ih earlier other member

/-! ## Stopping answers -/

/-- Only the last answer can have stopped the dispatcher; then it has stopped, and the handler has
nothing to do and no call to expect. -/
structure Settled (d : SharedDispatcher τ) : Prop where
  earlier : ∀ call ∈ d.answered.tail, call.2 = .ack
  last : ∀ call ∈ d.answered.head?, call.2.isStop →
    d.state.isStopped ∧ d.inFlight = [] ∧ d.cleared = []

theorem Settled.move (settled : d.Settled) (told : Told h d.answered) (shown : Shows h d d')
    (stays : d.state.isStopped → d'.state.isStopped) (drains : d.state.isStopped → d.Drains d') :
    d'.Settled := by
  obtain ⟨earlier, last⟩ := settled
  cases shown with
  | nothing begun inFlight answered =>
    rw [← answered] at earlier last
    refine ⟨earlier, fun call member stops => ?_⟩
    obtain ⟨done, idle, nobody⟩ := last call member stops
    exact ⟨stays done, inFlight.trans idle, ((drains done).of_nobody nobody).1⟩
  | begins turn free begun inFlight answered =>
    rw [← answered] at earlier last
    refine ⟨earlier, fun call member stops => ?_⟩
    obtain ⟨done, -, nobody⟩ := last call member stops
    have same := ((drains done).of_nobody nobody).2
    simp [begun] at same
  | answers turn flow busy answer begun inFlight cleared answered stopped =>
    constructor
    · rw [answered]
      intro call member
      rcases hd : d.answered with _ | ⟨first, rest⟩
      · simp [hd] at member
      · rw [hd] at earlier last told member
        rcases List.mem_cons.mp member with rfl | member
        -- The handler was at work, so the answer before did not stop the dispatcher.
        · apply Delivery.eq_ack (told.ne_discarded _ List.mem_cons_self)
          by_contra stops
          have idle := (last call rfl (by simpa using stops)).2.1
          simp [busy] at idle
        · exact earlier call member
    · rw [answered]
      rintro call ⟨⟩ stops
      rw [flow.isStop_delivery] at stops
      exact ⟨by simp [stopped, stops], inFlight, cleared⟩

/-- A message is discarded by a dispatcher that has stopped. -/
def Discards (d : SharedDispatcher τ) : Prop :=
  ∀ call ∈ d.decided, call.2 = .discarded → d.state.isStopped

theorem Discards.move (discards : d.Discards) (moves : Moves h own d m d')
    (stays : d.state.isStopped → d'.state.isStopped) : d'.Discards := by
  intro call member discarded
  by_cases stopped : d.state.isStopped
  · exact stays stopped
  -- Otherwise the call was not discarded before, and only a stopped dispatcher discards one.
  · have old := fun member => stopped (discards call member discarded)
    cases moves with
    | refused c halted => exact absurd halted stopped
    | drops place turn inside halted => exact absurd halted stopped
    | idle | admitted | arrives | cancels | fails => exact absurd member old
    | locks turn queue queued free =>
      exact absurd (by simpa [decided, free, Visit.decided?] using member) old
    | clears place turn inside | begins place turn inside | acts place turn reaction inside
    | breaks place turn text inside | leaves place turn delivery inside =>
      exact absurd (by simpa [decided, inside, Visit.decided?] using member) old
    | answers place turn flow inside =>
      have known : call = (turn, flow.delivery) ∨ call ∈ d.decided := by
        simpa [decided, inside, Visit.decided?] using member
      rcases known with rfl | member
      · exact absurd discarded flow.delivery_ne_discarded
      · exact absurd member old

/-! ## Where the calls are -/

/-- Every call made is in one place. -/
def Placed (d : SharedDispatcher τ) : Prop :=
  (d.turns.map (·.number)).Perm (List.range d.calls)

theorem Moves.turns (moves : Moves h own d m d') (whole : d.Whole) :
    (d'.turns.Perm d.turns ∧ d'.calls = d.calls) ∨
      ∃ c, d'.turns.Perm (⟨d.calls, c⟩ :: d.turns) ∧ d'.calls = d.calls + 1 := by
  cases moves with
  | idle | cancels | fails => exact .inl ⟨.refl _, rfl⟩
  | refused c => exact .inr ⟨c, .refl _, rfl⟩
  | admitted c =>
    refine .inr ⟨c, ?_, rfl⟩
    have := List.perm_append_singleton (⟨d.calls, c⟩ : Turn τ) d.turns
    simpa [SharedDispatcher.turns] using this
  | arrives place turn passed =>
    refine .inl ⟨?_, rfl⟩
    have := passed.append_left (d.returned.map (·.1) ++ d.inside.map (·.turn) ++ d.queue)
    simpa [SharedDispatcher.turns] using this
  | locks turn queue queued free =>
    exact .inl ⟨by simp [SharedDispatcher.turns, queued, free], rfl⟩
  | drops place turn inside | clears place turn inside | begins place turn inside
  | acts place turn reaction inside | answers place turn flow inside =>
    exact .inl ⟨by simp [SharedDispatcher.turns, inside], rfl⟩
  | breaks place turn text inside => exact absurd inside (whole text turn)
  | leaves place turn delivery inside =>
    refine .inl ⟨?_, rfl⟩
    have : (d.returned.map (·.1) ++ turn :: (d.queue ++ d.passed)).Perm
        (turn :: (d.returned.map (·.1) ++ (d.queue ++ d.passed))) := List.perm_middle
    simpa [SharedDispatcher.turns, inside] using this.symm

theorem Placed.move (placed : d.Placed) (moves : Moves h own d m d') (whole : d.Whole) :
    d'.Placed := by
  unfold Placed at placed ⊢
  obtain ⟨turns, calls⟩ | ⟨c, turns, calls⟩ := moves.turns whole
  · rw [calls]
    exact (turns.map _).trans placed
  · rw [calls, List.range_succ]
    exact (turns.map _).trans ((placed.cons _).trans (List.perm_append_singleton _ _).symm)

/-- The handler is given the messages in the order in which their calls began to queue. -/
def Ordered (d : SharedDispatcher τ) : Prop :=
  ∃ through : List (Turn τ),
    d.arrived = d.queue.reverse ++ d.inside.map (·.turn) ++ through ∧
    through.Sublist (d.returned.map (·.1)) ∧
    d.begun.Sublist ((d.inside.filter (·.isPast)).map (·.turn) ++ through)

theorem Ordered.move (ordered : d.Ordered) (moves : Moves h own d m d') (whole : d.Whole) :
    d'.Ordered := by
  obtain ⟨through, arrived, returned, begun⟩ := ordered
  cases moves with
  | idle | admitted | cancels | fails => exact ⟨through, arrived, returned, begun⟩
  | refused c => exact ⟨through, arrived, returned.cons _, begun⟩
  | arrives place turn passed => exact ⟨through, by simp [arrived], returned, begun⟩
  | locks turn queue queued free =>
    refine ⟨through, by simp [arrived, queued, free], returned, ?_⟩
    simpa [free, Visit.isPast] using begun
  | clears place turn inside =>
    refine ⟨through, by simp [arrived, inside], returned, ?_⟩
    simpa [inside, Visit.isPast] using begun
  | drops place turn inside =>
    refine ⟨through, by simp [arrived, inside], returned, ?_⟩
    simp only [inside, Visit.isPast] at begun
    simpa [Visit.isPast] using begun.cons turn
  | begins place turn inside =>
    refine ⟨through, by simp [arrived, inside], returned, ?_⟩
    simp only [inside, Visit.isPast] at begun
    simpa [Visit.isPast] using begun.cons_cons turn
  | acts place turn reaction inside | answers place turn flow inside =>
    refine ⟨through, by simp [arrived, inside], returned, ?_⟩
    simpa [inside, Visit.isPast] using begun
  | breaks place turn text inside => exact absurd inside (whole text turn)
  | leaves place turn delivery inside =>
    refine ⟨turn :: through, by simp [arrived, inside], returned.cons_cons _, ?_⟩
    simpa [inside, Visit.isPast] using begun

/-! ## Runs -/

/-- What no move breaks. -/
structure Sound (h : Handler) (d : SharedDispatcher τ) : Prop where
  alone : d.Alone
  working : d.Working h
  settled : d.Settled
  discards : d.Discards
  placed : d.Placed
  ordered : d.Ordered

theorem Sound.fresh (h : Handler) : (fresh : SharedDispatcher τ).Sound h where
  alone := .inl ⟨rfl, rfl⟩
  working := ⟨rfl, trivial, by simp [SharedDispatcher.fresh]⟩
  settled := ⟨by simp [answered, decided, SharedDispatcher.fresh],
    by simp [answered, decided, SharedDispatcher.fresh]⟩
  discards := by simp [Discards, decided, SharedDispatcher.fresh]
  placed := .refl _
  ordered := ⟨[], rfl, .refl _, .refl _⟩

theorem Sound.move (sound : d.Sound h) (calm : h.NeverPanics) (m : DispatchMove τ) :
    (d.move h own m).Sound h := by
  have moves := move_moves h own sound.alone m
  have whole := whole_of_fits calm sound.working.fits
  have shown := moves.shows calm sound.working.fits
  exact {
    alone := sound.alone.move moves
    working := sound.working.move calm moves
    settled := sound.settled.move sound.working.told shown (fun stopped => stopped_move stopped m)
      moves.drains
    discards := sound.discards.move moves fun stopped => stopped_move stopped m
    placed := sound.placed.move moves whole
    ordered := sound.ordered.move moves whole }

theorem Sound.run (sound : d.Sound h) (calm : h.NeverPanics) (moves : List (DispatchMove τ)) :
    (d.run h own moves).Sound h := by
  induction moves generalizing d with
  | nil => exact sound
  | cons m moves ih => exact ih (sound.move calm m)

end SharedDispatcher

end PubSub
