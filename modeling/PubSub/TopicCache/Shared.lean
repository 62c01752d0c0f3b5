import PubSub.TopicCache

/-!
# Topic caches shared by tasks

Several tasks use one cache. A request looks its name up under the lock of readers; if it finds
nothing it waits for the lock of the writer, and once it has that, it looks again and makes the handle
if there is still none. Meanwhile the others do as they like. A run is a list of moves, in any order
that the parties make them, and its effects are what the calls came to, in the order in which they had
the lock.
-/

namespace PubSub

/-- What was made for a name, with its number among all that was made: two handles are different even
if what was made for them is the same. -/
structure Handle (α : Type) where
  number : Nat
  content : α
  deriving DecidableEq, Repr

/-- What a call on a cache came to. -/
inductive CacheEffect (τ α : Type) where
  /-- The handle was there. -/
  | found (call : τ) (name : String) (h : Handle α)
  | made (call : τ) (name : String) (h : Handle α)
  /-- There was none, and it could not be made. -/
  | failed (call : τ) (name text : String)
  /-- There was none, and the call does not make any. -/
  | missed (call : τ) (name : String)
  | listed (call : τ) (names : List String)
  | drained (call : τ) (entries : List (String × Handle α))
  deriving DecidableEq, Repr

/-- A move of one party. -/
inductive CacheMove (τ α : Type) where
  /-- A request for a handle: the first look. -/
  | request (call : τ) (name : String)
  /-- A request that found nothing has the lock of the writer; `make` is what making a handle comes to,
  or the text of the failure to make it. -/
  | settle (call : τ) (make : Except String α)
  | get (call : τ) (name : String)
  | names (call : τ)
  | drain (call : τ)

structure SharedCache (τ α : Type) where
  cache : TopicCache (Handle α)
  /-- How many handles were made. -/
  made : Nat
  /-- Requests that found nothing and wait for the lock of the writer, with their names. -/
  waiting : List (τ × String)
  /-- What calls came to, the latest first. -/
  effects : List (CacheEffect τ α)
  deriving Repr

namespace CacheEffect

variable {τ α : Type}

def call : CacheEffect τ α → τ
  | .found c _ _ | .made c _ _ | .failed c _ _ | .missed c _ | .listed c _ | .drained c _ => c

def isFailure : CacheEffect τ α → Bool
  | .failed _ _ _ => true
  | _ => false

def isDrain : CacheEffect τ α → Bool
  | .drained _ _ => true
  | _ => false

end CacheEffect

def CacheMove.call {τ α : Type} : CacheMove τ α → τ
  | .request c _ | .settle c _ | .get c _ | .names c | .drain c => c

namespace SharedCache

variable {τ α : Type} [DecidableEq τ]

def start : SharedCache τ α := ⟨TopicCache.empty, 0, [], []⟩

/-- A call comes to this, and leaves this cache. -/
def record (d : SharedCache τ α) (e : CacheEffect τ α) (cache : TopicCache (Handle α)) :
    SharedCache τ α :=
  { d with effects := e :: d.effects, cache := cache }

/-- A request for a name has the lock of the writer. -/
def settle (d : SharedCache τ α) (call : τ) (name : String) (make : Except String α) :
    SharedCache τ α :=
  let d := { d with waiting := d.waiting.eraseP (·.1 = call) }
  match d.cache.get? name, d.cache.settle name (make.map (Handle.mk d.made)) with
  | some _, (.ok h, cache) => d.record (.found call name h) cache
  | none, (.ok h, cache) => { d with made := d.made + 1 }.record (.made call name h) cache
  | _, (.error text, cache) => d.record (.failed call name text) cache

/-- One move; it changes nothing when its party cannot make it. -/
def move (d : SharedCache τ α) : CacheMove τ α → SharedCache τ α
  | .request call name =>
    match d.cache.get? name with
    | some h => d.record (.found call name h) d.cache
    | none => { d with waiting := d.waiting ++ [(call, name)] }
  | .settle call make =>
    match d.waiting.find? (·.1 = call) with
    | none => d
    | some (_, name) => d.settle call name make
  | .get call name =>
    match d.cache.get? name with
    | some h => d.record (.found call name h) d.cache
    | none => d.record (.missed call name) d.cache
  | .names call => d.record (.listed call d.cache.names) d.cache
  | .drain call =>
    let (entries, cache) := d.cache.drain
    d.record (.drained call entries) cache

def run (d : SharedCache τ α) (moves : List (CacheMove τ α)) : SharedCache τ α :=
  moves.foldl move d

end SharedCache

end PubSub
