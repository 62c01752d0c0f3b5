import PubSub.World

/-!
# Effects of handlers

What a handler does on the way never tells an error of the transport: only loops do. It may cancel
tokens, and what was cancelled stays so.
-/

namespace PubSub

/-- Whether an event tells an error that a consume loop met. -/
def Event.isTold : Event → Bool
  | .transportError _ | .truncatedRecord _ => true
  | _ => false

/-- No event of a call tells an error of a loop. -/
def Silent (events : List Event) : Prop := events.filter (·.isTold) = []

namespace FileLog

theorem silent_cutBack (files : Files) (n length : Nat) (topic : String) :
    Silent (cutBack files n length topic).2 := by
  rw [cutBack]
  split <;> rfl

theorem silent_appendTo (log : FileLog) (files : Files) (n : Nat) (topic : String)
    (batch : List Message) (asBatch : Bool) :
    Silent (log.appendTo files n topic batch asBatch).events := by
  rw [appendTo]
  simp only
  split
  · rfl
  · exact silent_cutBack _ _ _ _

theorem silent_write (log : FileLog) (files : Files) (cancelled : Bool) (topic : String)
    (batch : List Message) (asBatch : Bool) :
    Silent (log.write files cancelled topic batch asBatch).events := by
  rw [write]
  split
  · rfl
  · split
    · rfl
    · split
      · rfl
      · exact silent_appendTo _ _ _ _ _ _

end FileLog

theorem Publisher.silent_publish (p : Publisher) (files : Files) (cancelled : Bool)
    (topic : String) (m : Message) : Silent (p.publish files cancelled topic m).events := by
  cases p with
  | memory shelf => rfl
  | limited limit refusal shelf => rfl
  | files log => exact log.silent_write files cancelled topic [m] false

namespace World

/-- The errors of loops that were logged. -/
def told (w : World) : List Event := w.events.filter (·.isTold)

theorem told_note (w : World) (events : List Event) :
    (w.note events).told = w.told ++ events.filter (·.isTold) := by
  simp [told, note]

theorem told_publish (w : World) (n : Nat) (cancelled : Bool) (topic : String) (m : Message) :
    (w.publish n cancelled topic m).2.told = w.told := by
  rw [publish, callPublisher]
  split
  · rfl
  · next p hp =>
    have hs : ((p.publish w.files cancelled topic m).events).filter (·.isTold) = [] :=
      p.silent_publish w.files cancelled topic m
    simp [settlePublisher, told, hs]

theorem told_act (w : World) (e : Effect) : (w.act e).told = w.told := by
  cases e with
  | cancel token => rfl
  | closeSubscriber name =>
    rw [act]
    split
    · rfl
    · rw [closeSubscriber]
      split <;> rfl
  | publish name topic m =>
    rw [act]
    split
    · rfl
    · exact told_publish _ _ _ _ _

theorem told_acts (w : World) (es : List Effect) : (es.foldl act w).told = w.told := by
  induction es generalizing w with
  | nil => rfl
  | cons e es ih => rw [List.foldl_cons, ih, told_act]

/-! ## Tokens -/

theorem isCancelled?_of_subset {w w' : World} (h : w.cancelled ⊆ w'.cancelled)
    {token : Option String} (ht : w.isCancelled? token = true) : w'.isCancelled? token = true := by
  cases token with
  | none => simp [isCancelled?] at ht
  | some t =>
    have hmem : t ∈ w.cancelled := by simpa [isCancelled?, isCancelled] using ht
    simpa [isCancelled?, isCancelled] using h hmem

@[simp] theorem cancelled_publish (w : World) (n : Nat) (cancelled : Bool) (topic : String)
    (m : Message) : (w.publish n cancelled topic m).2.cancelled = w.cancelled := by
  rw [publish, callPublisher]
  split <;> rfl

@[simp] theorem cancelled_closeSubscriber (w : World) (n : Nat) :
    (w.closeSubscriber n).cancelled = w.cancelled := by
  rw [closeSubscriber]
  split <;> rfl

@[simp] theorem cancelled_setPending (w : World) (n : Nat) (topic : String) (ms : List Message) :
    (w.setPending n topic ms).cancelled = w.cancelled := by
  rw [setPending]
  split <;> rfl

@[simp] theorem isCancelled?_setPending (w : World) (n : Nat) (topic : String)
    (ms : List Message) (token : Option String) :
    (w.setPending n topic ms).isCancelled? token = w.isCancelled? token := by
  cases token <;> simp [isCancelled?, isCancelled]

@[simp] theorem cancelled_take (w : World) (n : Nat) (topic : String) :
    (w.take n topic).2.cancelled = w.cancelled := by
  rw [take]
  split
  · rfl
  · exact cancelled_setPending _ _ _ _

/-- A handler cancels the tokens that it names, and no others. -/
theorem isCancelled_act (w : World) (e : Effect) (token : String) :
    (w.act e).isCancelled token = (e == .cancel token || w.isCancelled token) := by
  cases e with
  | cancel other => simp [act, cancel, isCancelled, Bool.beq_eq_decide_eq, eq_comm]
  | closeSubscriber name =>
    rw [act]
    split <;> simp [isCancelled]
  | publish name topic m =>
    rw [act]
    split <;> simp [isCancelled]

theorem isCancelled_acts (w : World) (es : List Effect) (token : String) :
    (es.foldl act w).isCancelled token = (es.contains (.cancel token) || w.isCancelled token) := by
  induction es generalizing w with
  | nil => rfl
  | cons e es ih =>
    rw [List.foldl_cons, ih, isCancelled_act, List.contains_cons, BEq.comm, ← Bool.or_assoc,
      Bool.or_comm (es.contains _)]

theorem isCancelled?_acts (w : World) (es : List Effect) (token : Option String) :
    (es.foldl act w).isCancelled? token =
      (token.any (fun t => es.contains (.cancel t)) || w.isCancelled? token) := by
  cases token with
  | none => rfl
  | some t => exact w.isCancelled_acts es t

theorem cancelled_acts (w : World) (es : List Effect) :
    w.cancelled ⊆ (es.foldl act w).cancelled := by
  intro token htoken
  have hacts := w.isCancelled_acts es token
  have hw : w.isCancelled token = true := List.contains_iff_mem.2 htoken
  rw [hw, Bool.or_true] at hacts
  exact List.contains_iff_mem.1 hacts

end World

end PubSub
