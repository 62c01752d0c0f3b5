import PubSub.Subscription.Basic

/-!
# All parties together

A bus is what all parties share, and all subscriptions. A run of it is a list of moves in any order
that the parties make them; a party that has to wait changes nothing.
-/

namespace PubSub

structure Bus (σ : Type) where
  world : World
  subscriptions : List (Subscription σ)
  /-- Who is next when the bus is left to itself. -/
  turn : Nat

/-- A move of one party. -/
inductive Move (σ : Type) where
  /-- A loop makes its next step. -/
  | loop (i : Nat) (favoursCancel : Bool)
  /-- The reader of a loop makes its next step. -/
  | reader (i : Nat)
  | cancel (token : String)
  | close (i : Nat)
  | drop (i : Nat)
  | release (i n : Nat)
  | closeSubscriber (n : Nat)
  | start (s : Subscription σ)

namespace Bus

variable {σ : Type}

def start (w : World) : Bus σ := ⟨w, [], 0⟩

def set (b : Bus σ) (i : Nat) (s : Subscription σ) : Bus σ :=
  { b with subscriptions := b.subscriptions.set i s }

def change (b : Bus σ) (i : Nat) (f : Subscription σ → Subscription σ) : Bus σ :=
  { b with subscriptions := b.subscriptions.modify i f }

/-- Adds a subscription; it is number `b.subscriptions.length`. -/
def add (b : Bus σ) (s : Subscription σ) : Bus σ :=
  { b with subscriptions := b.subscriptions ++ [s] }

/-- The next step of loop `i`, unless it has to wait. -/
def loop? (drive : σ → Action σ) (b : Bus σ) (i : Nat) (favoursCancel : Bool) :
    Option (Bus σ) := do
  let s ← b.subscriptions[i]?
  let (w, s) ← s.advance drive favoursCancel b.world
  return { b.set i s with world := w }

/-- The next step of the reader of loop `i`, unless it has to wait. -/
def reader? (b : Bus σ) (i : Nat) : Option (Bus σ) := do
  let s ← b.subscriptions[i]?
  return b.set i (← s.readAhead b.world)

def move (drive : σ → Action σ) (b : Bus σ) : Move σ → Bus σ
  | .loop i favoursCancel => (b.loop? drive i favoursCancel).getD b
  | .reader i => (b.reader? i).getD b
  | .cancel token => { b with world := b.world.cancel token }
  | .close i => b.change i .cancel
  | .drop i => b.change i .drop
  | .release i n => b.change i (·.release n)
  | .closeSubscriber n => { b with world := b.world.closeSubscriber n }
  | .start s => b.add s

def run (drive : σ → Action σ) (b : Bus σ) (moves : List (Move σ)) : Bus σ :=
  moves.foldl (move drive) b

/-! ## A bus left to itself -/

/-- Whether loop `i` gives way to others after its next step. -/
def givesWay (drive : σ → Action σ) (b : Bus σ) (i : Nat) : Bool :=
  b.subscriptions[i]?.any fun s => s.givesWay drive

/-- The next step of party `i`: its reader comes before its loop, and a cancelled token before a
record. -/
def stepOf (drive : σ → Action σ) (b : Bus σ) (i : Nat) : Option (Bus σ) :=
  match b.reader? i with
  | some b => some { b with turn := i }
  | none =>
    (b.loop? drive i true).map fun b' =>
      { b' with turn := if b.givesWay drive i then (i + 1) % b.subscriptions.length else i }

/-- The next step of whoever can make one, beginning with whose turn it is. -/
def step? (drive : σ → Action σ) (b : Bus σ) : Option (Bus σ) :=
  let n := b.subscriptions.length
  (List.range n).findSome? fun k => b.stepOf drive ((b.turn + k) % n)

/-- Lets the parties go on until all of them wait or are over. -/
def settle (drive : σ → Action σ) : (fuel : Nat) → Bus σ → Bus σ
  | 0, b => b
  | fuel + 1, b =>
    match b.step? drive with
    | none => b
    | some b => settle drive fuel b

end Bus

end PubSub
