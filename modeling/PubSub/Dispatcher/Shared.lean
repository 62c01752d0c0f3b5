import PubSub.Dispatcher

/-!
# Dispatchers shared by tasks

Several tasks call one dispatcher. A call is discarded at once if the dispatcher has stopped;
otherwise it queues for the handler's lock, first come first served, and the check is made again
when it holds the lock. Then the handler is called. A run is a list of moves, in any order that the
parties make them.

A check is one move although it looks at two flags: they are never taken back, so it finds what it
would have found if it had looked at both when it looked at the first, or at the second. To stop the
dispatcher is one move too, as the flag that the checks look at is set first.
-/

namespace PubSub

/-- A call of a task to dispatch a message. -/
structure Call (τ : Type) where
  task : τ
  message : Message
  deriving DecidableEq, Repr

/-- A call with its number among the calls made. -/
structure Turn (τ : Type) where
  number : Nat
  call : Call τ
  deriving DecidableEq, Repr

/-- How far a call has come that was given the lock. -/
inductive DispatchStage where
  /-- Before the second check. -/
  | locked
  /-- The second check found nothing; the handler is not called yet. -/
  | checked
  /-- The handler works on the message, with this reaction ahead. -/
  | handling (reaction : Reaction)
  /-- The handler's effects are done; what remains is its answer and what that stops. -/
  | answering (outcome : Outcome)
  /-- All is done but to release the lock and come back. -/
  | leaving (delivery : Delivery)
  deriving DecidableEq, Repr

structure Visit (τ : Type) where
  turn : Turn τ
  stage : DispatchStage
  deriving DecidableEq, Repr

structure SharedDispatcher (τ : Type) where
  state : Dispatcher
  /-- How many calls were made. -/
  calls : Nat
  /-- Calls that passed the first check and do not queue yet. -/
  passed : List (Turn τ)
  /-- Calls that queue for the lock, in order. -/
  queue : List (Turn τ)
  /-- Whether the lock is taken. -/
  taken : Bool
  /-- Calls that were given the lock and have not come back. -/
  inside : List (Visit τ)
  /-- All calls that ever queued, the latest first. -/
  arrived : List (Turn τ)
  /-- Calls whose message the handler was given, the latest first. -/
  begun : List (Turn τ)
  /-- Calls that came back, and how their messages fared, the latest first. -/
  returned : List (Turn τ × Delivery)
  deriving DecidableEq, Repr

/-- A move of one party. -/
inductive DispatchMove (τ : Type) where
  /-- A task calls: the first check. -/
  | call (c : Call τ)
  /-- One of the calls that passed the first check, by its place among them, begins to queue. -/
  | arrive (place : Nat)
  /-- The lock is free and goes to the first call of the queue. -/
  | lock
  /-- A call that was given the lock goes on by one stage. -/
  | advance (place : Nat)
  | cancel
  | fail (e : Error)
  deriving DecidableEq, Repr

namespace SharedDispatcher

variable {τ : Type}

def fresh : SharedDispatcher τ := ⟨.fresh, 0, [], [], false, [], [], [], []⟩

/-- Messages that the handler was given, the latest first. -/
def seen (d : SharedDispatcher τ) : List Message := d.begun.map fun t => t.call.message

/-- How the messages fared whose calls came back, the latest first. -/
def finished (d : SharedDispatcher τ) : List (τ × Delivery) :=
  d.returned.map fun r => (r.1.call.task, r.2)

/-- The effects of a handler on the dispatcher's own token, which has the name `own`. -/
def applyEffects (own : String) (state : Dispatcher) (effects : List Effect) : Dispatcher :=
  if effects.contains (.cancel own) then state.cancel else state

/-- The first check of a call. -/
def enter (d : SharedDispatcher τ) (c : Call τ) : SharedDispatcher τ :=
  let turn := ⟨d.calls, c⟩
  let d := { d with calls := d.calls + 1 }
  if d.state.isStopped then { d with returned := (turn, .discarded) :: d.returned }
  else { d with passed := d.passed ++ [turn] }

/-- The call at the place among those that were given the lock has come to the stage. -/
def reach (d : SharedDispatcher τ) (place : Nat) (turn : Turn τ) (stage : DispatchStage) :
    SharedDispatcher τ :=
  { d with inside := d.inside.set place ⟨turn, stage⟩ }

/-- The call at the place gives the lock back. -/
def release (d : SharedDispatcher τ) (place : Nat) : SharedDispatcher τ :=
  { d with inside := d.inside.eraseIdx place, taken := false }

/-- The next stage of a call that was given the lock. Nobody who cancels or fails the dispatcher
waits for the lock, so this may happen between any two of them. -/
def proceed (handler : Handler) (own : String) (d : SharedDispatcher τ) (place : Nat)
    (turn : Turn τ) : DispatchStage → SharedDispatcher τ
  | .locked => d.reach place turn (if d.state.isStopped then .leaving .discarded else .checked)
  | .checked =>
    { d with begun := turn :: d.begun }.reach place turn
      (.handling (handler d.seen turn.call.message))
  | .handling reaction =>
    { d with state := applyEffects own d.state reaction.effects }.reach place turn
      (.answering reaction.outcome)
  | .answering (.panic _) => d.release place
  | .answering (.flow flow) =>
    let (delivery, state) := d.state.answer flow
    { d with state := state }.reach place turn (.leaving delivery)
  | .leaving delivery => { d with returned := (turn, delivery) :: d.returned }.release place

/-- One move; it changes nothing when its party cannot make it. -/
def move (handler : Handler) (own : String) (d : SharedDispatcher τ) :
    DispatchMove τ → SharedDispatcher τ
  | .call c => d.enter c
  | .arrive place =>
    match d.passed[place]? with
    | none => d
    | some turn =>
      { d with
        passed := d.passed.eraseIdx place
        queue := d.queue ++ [turn]
        arrived := turn :: d.arrived }
  | .lock =>
    match d.taken, d.queue with
    | false, turn :: queue =>
      { d with queue := queue, taken := true, inside := ⟨turn, .locked⟩ :: d.inside }
    | _, _ => d
  | .advance place =>
    match d.inside[place]? with
    | none => d
    | some visit => d.proceed handler own place visit.turn visit.stage
  | .cancel => { d with state := d.state.cancel }
  | .fail e => { d with state := d.state.fail e }

def run (handler : Handler) (own : String) (d : SharedDispatcher τ)
    (moves : List (DispatchMove τ)) : SharedDispatcher τ :=
  moves.foldl (move handler own) d

/-! ## Moves that need nobody from outside -/

/-- Lets calls queue, take the lock and go on until nothing can move. A gated handler goes on once
for each permit; the permits that are left are returned. -/
def settle (handler : Handler) (own : String) (gated : Bool) (d : SharedDispatcher τ)
    (permits : Nat) : (fuel : Nat) → SharedDispatcher τ × Nat
  | 0 => (d, permits)
  | fuel + 1 =>
    match d.passed, d.inside, d.queue with
    | _ :: _, _, _ => settle handler own gated (d.move handler own (.arrive 0)) permits fuel
    | [], ⟨_, .handling _⟩ :: _, _ =>
      if gated ∧ permits = 0 then (d, permits)
      else settle handler own gated (d.move handler own (.advance 0)) (permits - 1) fuel
    | [], _ :: _, _ => settle handler own gated (d.move handler own (.advance 0)) permits fuel
    | [], [], _ :: _ => settle handler own gated (d.move handler own .lock) permits fuel
    | [], [], [] => (d, permits)

/-- A call needs seven moves at most to come back. -/
def settleAll (handler : Handler) (own : String) (gated : Bool) (d : SharedDispatcher τ)
    (permits : Nat) : SharedDispatcher τ × Nat :=
  d.settle handler own gated permits (7 * (d.passed.length + d.queue.length + d.inside.length))

end SharedDispatcher

end PubSub
