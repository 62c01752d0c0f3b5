import PubSub.NameMap
import PubSub.Text.Utf8

/-!
# Messages

A message is a payload with an optional identifier and labels.
-/

namespace PubSub

/-- Labels by name. -/
abbrev Attributes := NameMap String

structure Message where
  id : Option String
  data : Bytes
  attributes : Attributes
  deriving DecidableEq, Repr

namespace Message

def empty : Message := ⟨none, [], NameMap.empty⟩

instance : Inhabited Message := ⟨empty⟩

/-- A message that holds only the bytes of a text. -/
def ofText (s : String) : Message := ⟨none, Utf8.ofText s, NameMap.empty⟩

end Message

end PubSub
