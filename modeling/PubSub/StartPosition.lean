/-!
# Start positions

Where a new subscription begins to read its topic.
-/

namespace PubSub

inductive StartPosition where
  /-- Only messages that are published later. -/
  | newest
  /-- The oldest message that is kept. -/
  | oldest
  deriving DecidableEq, Repr

namespace StartPosition

def name : StartPosition → String
  | .newest => "newest"
  | .oldest => "oldest"

/-- The position of a name, in letters of either case; a name that is none is returned in lower
case. -/
def read (text : String) : Except String StartPosition :=
  let name := text.map Char.toLower
  if name = "newest" ∨ name = "new_only" then .ok .newest
  else if name = "oldest" ∨ name = "first" then .ok .oldest
  else .error name

end StartPosition

end PubSub
