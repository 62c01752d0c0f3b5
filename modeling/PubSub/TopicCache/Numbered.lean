import PubSub.TopicCache

/-!
# Numbered handles

A cache whose handles are numbered in the order in which they were made.
-/

namespace PubSub

structure NumberedCache where
  cache : TopicCache Nat
  made : Nat
  deriving DecidableEq, Repr

namespace NumberedCache

def empty : NumberedCache := ⟨TopicCache.empty, 0⟩

/-- Requests a name; if `fails` is set, a handle that is not there cannot be made. -/
def getOrCreate (c : NumberedCache) (name : String) (fails : Bool) :
    Except String Nat × NumberedCache × List CacheNotice :=
  let make := if fails then .error ("create " ++ name) else .ok (c.made + 1)
  let (r, cache, notices) := c.cache.getOrCreate name make
  let isNew := (c.cache.get? name).isNone && !fails
  (r, ⟨cache, if isNew then c.made + 1 else c.made⟩, notices)

/-- Many requests for one name, in some order: the handles they got. -/
def race (c : NumberedCache) (name : String) : (requests : Nat) →
    List (Except String Nat) × NumberedCache × List CacheNotice
  | 0 => ([], c, [])
  | n + 1 =>
    let (r, c, notices) := c.getOrCreate name false
    let (rs, c, more) := c.race name n
    (r :: rs, c, notices ++ more)

end NumberedCache

end PubSub
