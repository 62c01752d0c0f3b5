import Mathlib.Data.List.Nodup
import PubSub.Proofs.Dispatcher.Shared

/-!
# One handler call at a time

However the calls of tasks, cancellations and failures interleave, the handler works on one message
at a time, in the order in which the calls began to queue, and is left alone once it has stopped the
dispatcher itself (`dispatch_serialized`). When somebody else stops the dispatcher, the handler may
still be given the message of a call that its second check had let through
(`begins_when_stopped`), and no other.
-/

namespace PubSub

variable {τ : Type} {h : Handler} {own : String} {d d' : SharedDispatcher τ} {m : DispatchMove τ}

/-- The move is one of neither a task nor the handler. -/
def DispatchMove.isOutside : DispatchMove τ → Bool
  | .cancel | .fail _ => true
  | .call _ | .arrive _ | .lock | .advance _ => false

namespace SharedDispatcher

theorem Placed.nodup (placed : d.Placed) :
    ((d.returned.map (·.1) ++ d.inside.map (·.turn)).map (·.number)).Nodup := by
  have all : (d.turns.map (·.number)).Nodup := placed.nodup_iff.mpr List.nodup_range
  refine all.sublist (List.Sublist.map _ ?_)
  simp only [turns, List.append_assoc]
  exact (List.append_sublist_append_left _).mpr (List.sublist_append_left _ _)

theorem Alone.single (alone : d.Alone) : d.cleared.length + d.inFlight.length ≤ 1 := by
  obtain ⟨free, -⟩ | ⟨⟨turn, stage⟩, inside, -⟩ := alone
  · simp [cleared, inFlight, free]
  · cases stage <;> simp [cleared, inFlight, inside, Visit.isCleared, Visit.inFlight]

/-- Once the dispatcher has stopped, at most the one call that was let through gets to the
handler. -/
theorem Alone.late (alone : d.Alone) (stopped : d.state.isStopped)
    (moves : List (DispatchMove τ)) :
    (d.run h own moves).begun = d.begun ∨
      ∃ turn, d.cleared = [turn] ∧ (d.run h own moves).begun = turn :: d.begun := by
  obtain ⟨late, cleared, begun⟩ := alone.drains_run h own stopped moves
  have single := alone.single
  cases late with
  | nil => exact .inl begun
  | cons turn later =>
    rw [← cleared, List.length_append, List.length_cons] at single
    have only : (d.run h own moves).cleared = [] := List.eq_nil_of_length_eq_zero (by omega)
    have none : later = [] := List.eq_nil_of_length_eq_zero (by omega)
    rw [only, none] at cleared
    exact .inr ⟨turn, cleared.symm, by rw [begun, none]; rfl⟩

/-- A handler that stops the dispatcher itself has the lock: nobody else was let through. -/
theorem Alone.drained (alone : d.Alone) (inner : m.isOutside = false) (halts : d.halts own m) :
    (d.move h own m).cleared = [] ∧ (d.move h own m).begun = d.begun := by
  cases m with
  | call | arrive | lock => cases halts
  | cancel | fail => cases inner
  | advance place =>
    obtain ⟨free, -⟩ | ⟨⟨turn, stage⟩, inside, -⟩ := alone
    · simp [SharedDispatcher.halts, free] at halts
    · cases place with
      | succ place => simp [SharedDispatcher.halts, inside] at halts
      | zero =>
        cases stage with
        | locked | checked | leaving =>
          simp [SharedDispatcher.halts, inside, Visit.halts] at halts
        | handling reaction =>
          simp [SharedDispatcher.move, proceed, reach, inside, cleared, Visit.isCleared]
        | answering outcome =>
          cases outcome with
          | panic text => simp [SharedDispatcher.halts, inside, Visit.halts] at halts
          | flow flow =>
            simp [SharedDispatcher.move, proceed, reach, inside, cleared, Visit.isCleared]

theorem Alone.spared (alone : d.Alone) (inner : m.isOutside = false) (halts : d.halts own m)
    (moves : List (DispatchMove τ)) : ((d.move h own m).run h own moves).begun = d.begun := by
  obtain ⟨nobody, begun⟩ := alone.drained (h := h) inner halts
  have stopped : (d.move h own m).state.isStopped := by rw [isStopped_move, halts, Bool.or_true]
  have drains := (alone.move (move_moves h own alone m)).drains_run h own stopped moves
  exact (drains.of_nobody nobody).2.trans begun

theorem mem_answered {call : Turn τ × Delivery} :
    call ∈ d.answered ↔ call ∈ d.decided ∧ call.2 ≠ .discarded := by
  simp [answered]

theorem mem_decided {call : Turn τ × Delivery} (member : call ∈ d.decided) :
    call.1 ∈ d.inside.map (·.turn) ∨ call ∈ d.returned := by
  rcases List.mem_append.mp member with member | member
  · obtain ⟨⟨turn, stage⟩, inside, decided⟩ := List.mem_filterMap.mp member
    cases stage with
    | leaving delivery =>
      cases decided
      exact .inl (List.mem_map.mpr ⟨_, inside, rfl⟩)
    | locked | checked | handling | answering => cases decided
  · exact .inr member

theorem Sound.fared (sound : d.Sound h) :
    ∀ call ∈ d.returned, call.2 ≠ .discarded ↔ call.1 ∈ d.begun := by
  intro call returned
  have nodup : (d.returned.map (·.1) ++ d.inside.map (·.turn)).Nodup := sound.placed.nodup.of_map
  -- A call that came back is in no other place, so it was not handled under another entry.
  have away : call.1 ∉ d.inside.map (·.turn) := by
    intro inside
    exact (List.nodup_append.mp nodup).2.2 _ (List.mem_map_of_mem returned) _ inside rfl
  rw [sound.working.begun]
  constructor
  · intro kept
    have member := mem_answered.mpr ⟨List.mem_append_right _ returned, kept⟩
    exact List.mem_append_right _ (List.mem_map_of_mem member)
  · intro begun
    rcases List.mem_append.mp begun with flying | answered
    · obtain ⟨visit, member, turn⟩ := List.mem_map.mp flying
      exact absurd (List.mem_map.mpr ⟨visit, List.mem_of_mem_filter member, turn⟩) away
    · obtain ⟨other, member, turn⟩ := List.mem_map.mp answered
      obtain ⟨decided, kept⟩ := mem_answered.mp member
      rcases mem_decided decided with inside | back
      · exact absurd (turn ▸ inside) away
      · have same : other = call :=
          List.inj_on_of_nodup_map (List.nodup_append.mp nodup).1 back returned turn
        rwa [← same]

theorem Sound.order (sound : d.Sound h) :
    d.begun.Sublist d.arrived ∧ (d.begun.map (·.number)).Nodup := by
  obtain ⟨through, arrived, returned, begun⟩ := sound.ordered
  have checked : d.begun.Sublist (d.inside.map (·.turn) ++ through) :=
    begun.trans ((List.filter_sublist.map _).append_right through)
  constructor
  · rw [arrived, List.append_assoc]
    exact checked.trans (List.sublist_append_right _ _)
  · have placed := sound.placed.nodup
    rw [List.map_append, List.nodup_append_comm, ← List.map_append] at placed
    exact placed.sublist ((checked.trans (returned.append_left _)).map _)

theorem countP_answered {p : Turn τ × Delivery → Bool}
    (kept : ∀ call, p call → call.2 ≠ .discarded) : d.answered.countP p = d.decided.countP p := by
  rw [answered, List.countP_filter]
  apply List.countP_congr
  intro call _
  have := kept call
  simp only [Bool.and_eq_true, decide_eq_true_eq]
  tauto

theorem Settled.countP_isStop (settled : d.Settled) : d.answered.countP (·.2.isStop) ≤ 1 := by
  obtain ⟨earlier, -⟩ := settled
  rcases answered : d.answered with _ | ⟨first, rest⟩
  · simp
  · have none : rest.countP (·.2.isStop) = 0 := by
      rw [List.countP_eq_zero]
      intro call member
      rw [answered] at earlier
      simp [earlier call member, Delivery.isStop]
    rw [List.countP_cons, none]
    split <;> omega

theorem Sound.stops (sound : d.Sound h) :
    d.returned.countP (·.2.isStop) ≤ 1 ∧
      ∀ call ∈ d.returned, call.2.isStop → d.begun.head? = some call.1 ∧ d.state.isStopped := by
  obtain ⟨earlier, last⟩ := sound.settled
  have handled (call : Turn τ × Delivery) (stops : call.2.isStop) : call.2 ≠ .discarded := by
    intro discarded
    simp [discarded, Delivery.isStop] at stops
  constructor
  · have counted := sound.settled.countP_isStop
    rw [countP_answered handled, decided, List.countP_append] at counted
    omega
  · intro call returned stops
    have member := mem_answered.mpr ⟨List.mem_append_right _ returned, handled call stops⟩
    rw [sound.working.begun]
    rcases answered : d.answered with _ | ⟨first, rest⟩
    · simp [answered] at member
    · rw [answered] at earlier last member
      rcases List.mem_cons.mp member with rfl | member
      · obtain ⟨stopped, idle, -⟩ := last call rfl stops
        exact ⟨by rw [idle]; rfl, stopped⟩
      · rw [earlier call member] at stops
        simp [Delivery.isStop] at stops

/-- What holds of a dispatcher after any moves of its tasks and of others. -/
structure Serialized (h : Handler) (own : String) (d : SharedDispatcher τ) : Prop where
  /-- The handler works on one message at most, and no other is on the way to it meanwhile. -/
  single : d.cleared.length + d.inFlight.length ≤ 1
  /-- The dispatcher has stopped once it is cancelled, it fails, or the handler cancels it, is done
  or fails; and nothing else stops it. -/
  halted : ∀ m, (d.move h own m).state.isStopped = (d.state.isStopped || d.halts own m)
  /-- After it has stopped, the dispatcher stays so, and the handler is given no more messages
  except that of a call which the second check had let through. -/
  final : d.state.isStopped → ∀ moves,
    (d.run h own moves).state.isStopped ∧
      ((d.run h own moves).begun = d.begun ∨
        ∃ turn, d.cleared = [turn] ∧ (d.run h own moves).begun = turn :: d.begun)
  /-- When the handler itself stops the dispatcher, it is given no more messages at all. -/
  inner : ∀ m, m.isOutside = false → d.halts own m → ∀ moves,
    ((d.move h own m).run h own moves).begun = d.begun
  /-- No call is lost or doubled. -/
  placed : d.Placed
  /-- A call that came back was discarded just if the handler was never given its message. -/
  fared : ∀ call ∈ d.returned, call.2 ≠ .discarded ↔ call.1 ∈ d.begun
  /-- The others came to what the handler answered. -/
  told : d.begun = d.inFlight ++ d.answered.map (·.1) ∧ Told h d.answered
  /-- The handler was given the messages in the order in which their calls queued, each once. -/
  order : d.begun.Sublist d.arrived ∧ (d.begun.map (·.number)).Nodup
  /-- One answer at most stopped the dispatcher, and it was the last. -/
  stops : d.returned.countP (·.2.isStop) ≤ 1 ∧
    ∀ call ∈ d.returned, call.2.isStop → d.begun.head? = some call.1 ∧ d.state.isStopped

theorem Sound.serialized (sound : d.Sound h) : d.Serialized h own where
  single := sound.alone.single
  halted := isStopped_move
  final := fun stopped moves => ⟨stopped_run stopped moves, sound.alone.late stopped moves⟩
  inner := fun _ inner halts moves => sound.alone.spared inner halts moves
  placed := sound.placed
  fared := sound.fared
  told := ⟨sound.working.begun, sound.working.told⟩
  order := sound.order
  stops := sound.stops

end SharedDispatcher

/-! ## A handler that stops on its n-th message -/

/-- The handler goes on and does not cancel the token named `own` before its n-th message, and is
done or fails with that one. -/
structure Handler.StopsAt (h : Handler) (own : String) (n : Nat) : Prop where
  positive : 0 < n
  goesOn : ∀ earlier m, earlier.length + 1 < n → (h earlier m).outcome = .flow .continue
  stops : ∀ earlier m, earlier.length + 1 = n →
    ∃ flow, flow.isStop ∧ (h earlier m).outcome = .flow flow
  spares : ∀ earlier m, earlier.length + 1 < n → .cancel own ∉ (h earlier m).effects

namespace SharedDispatcher

/-- The dispatcher has not stopped before the handler was given `n` messages. -/
def Lasts (n : Nat) (d : SharedDispatcher τ) : Prop := d.state.isStopped → n ≤ d.begun.length

theorem Working.length_begun (working : d.Working h) {visit : Visit τ} (inside : d.inside = [visit])
    (busy : visit.inFlight) : d.begun.length = d.answered.length + 1 := by
  rw [working.begun, List.length_append, List.length_map, inFlight, inside]
  simp [busy, Nat.add_comm]

theorem Lasts.move {n : Nat} (lasts : d.Lasts n) (stops : h.StopsAt own n)
    (working : d.Working h) (moves : Moves h own d m d') (inner : m.isOutside = false) :
    d'.Lasts n := by
  intro stopped
  cases moves with
  | idle | refused | admitted | arrives | locks | drops | clears | breaks | leaves =>
    exact lasts stopped
  | begins => exact Nat.le_succ_of_le (lasts stopped)
  | acts place turn reaction inside =>
    rw [isStopped_applyEffects, Bool.or_eq_true] at stopped
    rcases stopped with stopped | cancels
    · exact lasts stopped
    · have reacts := working.fits _ (by rw [inside]; exact List.mem_singleton_self _)
      have count := working.length_begun inside rfl
      change n ≤ d.begun.length
      by_contra few
      simp only [Fits] at reacts
      rw [reacts, List.contains_iff_mem] at cancels
      exact stops.spares _ _ (by rw [List.length_map]; omega) cancels
  | answers place turn flow inside =>
    rw [Dispatcher.isStopped_answer, Bool.or_eq_true] at stopped
    rcases stopped with stopped | stop
    · exact lasts stopped
    · have answer := working.fits _ (by rw [inside]; exact List.mem_singleton_self _)
      have count := working.length_begun inside rfl
      change n ≤ d.begun.length
      by_contra few
      have goesOn := stops.goesOn (messages d.answered) turn.call.message
        (by rw [List.length_map]; omega)
      simp only [Fits] at answer
      rw [← answer] at goesOn
      cases goesOn
      cases stop
  | cancels | fails => cases inner

theorem Lasts.run {n : Nat} (lasts : d.Lasts n) (stops : h.StopsAt own n) (sound : d.Sound h)
    (calm : h.NeverPanics) (moves : List (DispatchMove τ))
    (inner : ∀ m ∈ moves, m.isOutside = false) : (d.run h own moves).Lasts n := by
  induction moves generalizing d with
  | nil => exact lasts
  | cons m moves ih =>
    have moved := move_moves h own sound.alone m
    have lasts' := lasts.move stops sound.working moved (inner m List.mem_cons_self)
    exact ih lasts' (sound.move calm m) fun m member => inner m (List.mem_cons_of_mem _ member)

theorem Told.length_lt {n : Nat} (stops : h.StopsAt own n) {calls : List (Turn τ × Delivery)}
    (told : Told h calls) (acks : ∀ call ∈ calls, call.2 = .ack) : calls.length < n := by
  induction calls with
  | nil => exact stops.positive
  | cons call calls ih =>
    obtain ⟨before, flow, answer, delivery⟩ := told
    have shorter := ih before fun call member => acks call (List.mem_cons_of_mem _ member)
    have ack := acks call List.mem_cons_self
    by_contra long
    rw [List.length_cons] at long
    obtain ⟨last, isStop, outcome⟩ :=
      stops.stops (messages calls) call.1.call.message (by rw [List.length_map]; omega)
    rw [answer] at outcome
    cases outcome
    rw [delivery, flow.delivery_eq_ack] at ack
    simp [ack] at isStop

theorem Told.length_ge {n : Nat} (stops : h.StopsAt own n) {call : Turn τ × Delivery}
    {earlier : List (Turn τ × Delivery)} (told : Told h (call :: earlier)) (stop : call.2.isStop) :
    n ≤ earlier.length + 1 := by
  obtain ⟨-, flow, answer, delivery⟩ := told
  by_contra short
  have goesOn := stops.goesOn (messages earlier) call.1.call.message
    (by rw [List.length_map]; omega)
  rw [answer] at goesOn
  cases goesOn
  rw [delivery] at stop
  cases stop

/-- How all calls fared when the handler stopped on its n-th message. -/
structure Shares (n : Nat) (d : SharedDispatcher τ) : Prop where
  handled : d.begun.length = min n d.calls
  acks : d.returned.countP (·.2 = .ack) = min (n - 1) d.calls
  stops : d.returned.countP (·.2.isStop) = if n ≤ d.calls then 1 else 0
  discards : d.returned.countP (·.2 = .discarded) = d.calls - n

theorem Placed.inside_nil (placed : d.Placed) (back : d.returned.length = d.calls) :
    d.inside = [] := by
  have all := placed.length_eq
  simp only [turns, List.length_map, List.length_append, List.length_range] at all
  exact List.eq_nil_of_length_eq_zero (by omega)

/-- When all calls are back, what they came to is told by those that the handler answered. -/
theorem Sound.shares_of (sound : d.Sound h) (back : d.returned.length = d.calls) {n : Nat}
    (handled : d.answered.length = min n d.calls)
    (acks : d.answered.countP (·.2 = .ack) = min (n - 1) d.calls)
    (stops : d.answered.countP (·.2.isStop) = if n ≤ d.calls then 1 else 0) : d.Shares n := by
  have free := sound.placed.inside_nil back
  have decided : d.decided = d.returned := by simp [decided, free]
  have idle : d.inFlight = [] := by simp [inFlight, free]
  rw [countP_answered, decided] at acks stops
  · refine ⟨?_, acks, stops, ?_⟩
    · rw [sound.working.begun, idle, List.nil_append, List.length_map, handled]
    · have parts := d.returned.length_eq_countP_add_countP (·.2 = .discarded)
      have kept : d.returned.countP (fun call => ¬ decide (call.2 = .discarded)) =
          d.answered.length := by
        simp [answered, decided, List.countP_eq_length_filter]
      omega
  · intro call stop discarded
    simp [discarded, Delivery.isStop] at stop
  · intro call ack
    simp_all

theorem Sound.shares_stopped (sound : d.Sound h) {n : Nat} (stops : h.StopsAt own n)
    (back : d.returned.length = d.calls) {call : Turn τ × Delivery} (member : call ∈ d.answered)
    (stop : call.2.isStop) : d.Shares n := by
  have within : d.answered.length ≤ d.calls := by
    rw [← back, answered, decided, sound.placed.inside_nil back]
    exact List.length_filter_le _ _
  have told := sound.working.told
  have earlier := sound.settled.earlier
  rcases answers : d.answered with _ | ⟨first, rest⟩
  · simp [answers] at member
  · rw [answers] at member told earlier within
    have first_stop : first.2.isStop := by
      rcases List.mem_cons.mp member with rfl | member
      · exact stop
      · rw [earlier call member] at stop
        cases stop
    have first_ack : first.2 ≠ .ack := fun ack => by simp [ack, Delivery.isStop] at first_stop
    have short : rest.length < n := told.1.length_lt stops earlier
    have long : n ≤ rest.length + 1 := told.length_ge stops first_stop
    have acks : rest.countP (·.2 = .ack) = rest.length :=
      List.countP_eq_length.mpr fun call member => by simpa using earlier call member
    have none : rest.countP (·.2.isStop) = 0 :=
      List.countP_eq_zero.mpr fun call member => by
        rw [earlier call member]
        simp [Delivery.isStop]
    rw [List.length_cons] at within
    apply sound.shares_of back
    · rw [answers, List.length_cons]
      omega
    · rw [answers, List.countP_cons_of_neg (by simpa using first_ack), acks]
      omega
    · rw [answers, List.countP_cons, none, if_pos first_stop, if_pos (by omega)]

theorem Sound.shares_going (sound : d.Sound h) {n : Nat} (lasts : d.Lasts n)
    (stops : h.StopsAt own n) (back : d.returned.length = d.calls)
    (going : ∀ call ∈ d.answered, call.2.isStop = false) : d.Shares n := by
  have free := sound.placed.inside_nil back
  have acks (call) (member : call ∈ d.answered) : call.2 = .ack :=
    Delivery.eq_ack (mem_answered.mp member).2 (going call member)
  have short := sound.working.told.length_lt stops acks
  have running : ¬ d.state.isStopped := by
    intro stopped
    have enough := lasts stopped
    rw [sound.working.begun, List.length_append, List.length_map] at enough
    simp only [inFlight, free, List.filter_nil, List.map_nil, List.length_nil] at enough
    omega
  have all : d.answered.length = d.calls := by
    rw [← back, answered, decided, free]
    congr 1
    apply List.filter_eq_self.mpr
    intro call returned
    have kept : call.2 ≠ .discarded := fun discarded =>
      running (sound.discards call (List.mem_append_right _ returned) discarded)
    simpa using kept
  apply sound.shares_of back
  · omega
  · rw [List.countP_eq_length.mpr fun call member => by simpa using acks call member]
    omega
  · rw [List.countP_eq_zero.mpr fun call member => by simp [going call member],
      if_neg (by omega)]

theorem Sound.shares (sound : d.Sound h) {n : Nat} (lasts : d.Lasts n) (stops : h.StopsAt own n)
    (back : d.returned.length = d.calls) : d.Shares n := by
  by_cases stopped : ∃ call ∈ d.answered, call.2.isStop
  · obtain ⟨call, member, stop⟩ := stopped
    exact sound.shares_stopped stops back member stop
  · refine sound.shares_going lasts stops back fun call member => ?_
    by_contra stop
    exact stopped ⟨call, member, by simpa using stop⟩

/-! ## Any moves -/

/-- Whatever the moves of the tasks are, and whoever else cancels or fails the dispatcher on the
way, the handler's calls are serialized; and when nobody does, a handler that stops on its n-th
message has all calls fare by that number. -/
theorem dispatch_serialized (h : Handler) (own : String) (calm : h.NeverPanics)
    (moves : List (DispatchMove τ)) :
    (fresh.run h own moves).Serialized h own ∧
      ∀ n, h.StopsAt own n → (∀ m ∈ moves, m.isOutside = false) →
        (fresh.run h own moves).returned.length = (fresh.run h own moves).calls →
        (fresh.run h own moves).Shares n := by
  have sound : (fresh.run h own moves).Sound h := (Sound.fresh h).run calm moves
  refine ⟨sound.serialized, fun n stops inner back => ?_⟩
  have lasts : (fresh : SharedDispatcher τ).Lasts n := fun stopped => by cases stopped
  exact sound.shares (lasts.run stops (Sound.fresh h) calm moves inner) stops back

/-- A handler that is done with its second message. -/
def doneAtSecond : Handler := fun earlier _ =>
  if earlier.length = 1 then ⟨[], .flow .done⟩ else .continue

/-- Three tasks call; the second one is the first to queue, and the third one waits for the lock
while the handler works on the message of the first. -/
def threeCalls : List (DispatchMove String) :=
  [.call ⟨"a", .empty⟩, .call ⟨"b", .empty⟩, .call ⟨"c", .empty⟩, .arrive 1, .lock, .arrive 0,
    .advance 0, .advance 0, .arrive 0, .advance 0, .advance 0, .advance 0, .lock, .advance 0,
    .advance 0, .advance 0, .advance 0, .advance 0, .lock, .advance 0, .advance 0]

theorem doneAtSecond_stopsAt : doneAtSecond.StopsAt "own" 2 where
  positive := by decide
  goesOn := by
    intro earlier m short
    have first : earlier.length ≠ 1 := by omega
    simp [doneAtSecond, first, Reaction.continue]
  stops := by
    intro earlier m second
    have one : earlier.length = 1 := by omega
    exact ⟨.done, rfl, by simp [doneAtSecond, one]⟩
  spares := by
    intro earlier m _
    unfold doneAtSecond
    split <;> simp [Reaction.continue]

theorem doneAtSecond_neverPanics : doneAtSecond.NeverPanics := by
  intro earlier m
  unfold doneAtSecond
  split
  · exact ⟨.done, rfl⟩
  · exact ⟨.continue, rfl⟩

theorem dispatch_serialized_threeCalls :
    doneAtSecond.NeverPanics ∧
      (fresh.run doneAtSecond "own" threeCalls).Serialized doneAtSecond "own" ∧
      (fresh.run doneAtSecond "own" threeCalls).Shares 2 ∧
      (fresh.run doneAtSecond "own" threeCalls).finished =
        [("c", .discarded), ("a", .ackAndStop), ("b", .ack)] := by
  obtain ⟨serialized, shares⟩ :=
    dispatch_serialized doneAtSecond "own" doneAtSecond_neverPanics threeCalls
  have stops := shares 2 doneAtSecond_stopsAt (by decide) (by decide)
  exact ⟨doneAtSecond_neverPanics, serialized, stops, by decide⟩

/-- One task calls and is let through to the handler. -/
def letThrough : List (DispatchMove String) :=
  [.call ⟨"a", .empty⟩, .arrive 0, .lock, .advance 0]

/-- Somebody else stops the dispatcher when a call was let through and the handler was not called
yet; then the handler is called, though the dispatcher has stopped. -/
theorem begins_when_stopped :
    doneAtSecond.NeverPanics ∧
      ∀ stop : DispatchMove String, stop = .cancel ∨ stop = .fail (.config "lost") →
        let d := fresh.run doneAtSecond "own" (letThrough ++ [stop])
        d.state.isStopped ∧ d.begun = [] ∧
          (d.move doneAtSecond "own" (.advance 0)).begun = [⟨0, ⟨"a", .empty⟩⟩] := by
  refine ⟨doneAtSecond_neverPanics, ?_⟩
  rintro stop (rfl | rfl)
  · exact ⟨by decide, by decide, by decide⟩
  · exact ⟨by decide, by decide, by decide⟩

end SharedDispatcher

end PubSub
