import PubSub.NameMap

/-!
# Topic caches

A cache makes a handle on the first request for a name and returns the same handle from then on.
A request looks the name up first; only a miss takes the cache for itself, looks again, and makes
the handle. A making that fails adds nothing, and later uses of the cache note that one failed.
-/

namespace PubSub

/-- What a use of a cache notes when a making failed before. -/
inductive CacheNotice where
  | readRecovered
  | writeRecovered
  deriving DecidableEq, Repr

structure TopicCache (α : Type) where
  held : NameMap α
  poisoned : Bool
  deriving DecidableEq, Repr

namespace TopicCache

variable {α : Type}

def empty : TopicCache α := ⟨NameMap.empty, false⟩

/-! ## Single steps -/

def readNotices (c : TopicCache α) : List CacheNotice :=
  if c.poisoned then [.readRecovered] else []

def writeNotices (c : TopicCache α) : List CacheNotice :=
  if c.poisoned then [.writeRecovered] else []

/-- The handle of a name, if it was made. -/
def get? (c : TopicCache α) (name : String) : Option α := c.held.get? name

/-- The step of a request that found nothing before: it looks again and makes the handle if there is
still none. `make` is the handle, or the text of the failure to make it. -/
def settle (c : TopicCache α) (name : String) (make : Except String α) :
    Except String α × TopicCache α :=
  match c.held.get? name with
  | some a => (.ok a, c)
  | none =>
    match make with
    | .ok a => (.ok a, ⟨c.held.insert name a, c.poisoned⟩)
    | .error text => (.error text, ⟨c.held, true⟩)

/-! ## Whole requests -/

def getOrCreate (c : TopicCache α) (name : String) (make : Except String α) :
    Except String α × TopicCache α × List CacheNotice :=
  match c.get? name with
  | some a => (.ok a, c, c.readNotices)
  | none =>
    let (r, c') := c.settle name make
    (r, c', c.readNotices ++ c.writeNotices)

def names (c : TopicCache α) : List String := c.held.names

/-- All handles, which the cache then no longer holds. -/
def drain (c : TopicCache α) : List (String × α) × TopicCache α :=
  (c.held.entries, ⟨NameMap.empty, c.poisoned⟩)

end TopicCache

end PubSub
