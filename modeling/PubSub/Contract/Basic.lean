import PubSub.Bus.Settled
import PubSub.Publisher.Batch
import PubSub.Subscription.Subscribe

/-!
# The contract of backends

A contract is a list of checks that a backend passes. A check works on a subject, which is a backend
with the means to seed it or to read it back, and ends at the first thing that is not as it should
be, with a text that says what that is.
-/

namespace PubSub.Contract

/-- A publisher under test, and what it stored. -/
structure PublisherSubject (σ : Type) where
  publish : σ → (topic : String) → Message → Except Error Unit × σ
  publishBatch : σ → (topic : String) → List Message → Except Error Unit × σ
  messages : σ → (topic : String) → Except Cause (List Message)

/-- A maker of subscribers under test: `seed` makes one whose topic holds just some messages. -/
structure SubscriberSubject where
  seed : World → (topic : String) → List Message → Except Cause Nat × World
  subscribe : World → (subscriber : Nat) → Subscribing → Except Error (Subscription Loop)
  close : World → (subscriber : Nat) → Except Error Unit × World

/-! ## Checks -/

/-- A check goes from a state to a state, or says what is wrong. -/
abbrev Check (σ : Type) := StateT σ (Except String)

/-- A topic that nothing else uses: its name, and the name without the part that makes it unique. -/
structure FreshTopic where
  name : String
  shown : String
  deriving DecidableEq, Repr

def freshTopic (serial : Nat) (label : String) : FreshTopic :=
  ⟨s!"bps-unittest-topic-{serial}-{label}", s!"bps-unittest-topic-*-{label}"⟩

def text (m : Message) : String := String.ofList (Utf8.decodeLossy m.data)

def showTexts (l : List String) : String := "[" ++ ", ".intercalate (l.map Quoted.quote) ++ "]"

def showText? : Option String → String
  | none => "None"
  | some s => "Some(" ++ Quoted.quote s ++ ")"

/-- The text for two values that differ, with a note if it is not empty. -/
def mismatch (note left right : String) : String :=
  "assertion `left == right` failed" ++ (if note = "" then "" else ": " ++ note) ++
    "\n  left: " ++ left ++ "\n right: " ++ right

def expectEqual {α : Type} [DecidableEq α] (shown : α → String) (note : String) (left right : α) :
    Except String Unit :=
  if left = right then .ok () else .error (mismatch note (shown left) (shown right))

def expectTexts (left right : List String) : Except String Unit :=
  expectEqual showTexts "" left right

def expectCount (note : String) (left right : Nat) : Except String Unit :=
  expectEqual toString note left right

/-- What is said of something that does not come to pass. -/
def timedOut (what : String) : String := what ++ ": timed out after 5s"

end PubSub.Contract
