import PubSub.Flow
import PubSub.Message

/-!
# Handlers

A handler is given one message at a time and answers it in view of those it was given before. On the
way it may cancel tokens, close subscribers and publish messages, and it may break down.
-/

namespace PubSub

inductive Effect where
  | cancel (token : String)
  | closeSubscriber (name : String)
  | publish (publisher topic : String) (message : Message)
  deriving DecidableEq, Repr

inductive Outcome where
  | flow (flow : Flow)
  | panic (text : String)
  deriving DecidableEq, Repr

/-- What a handler does with one message: effects in order, then its answer. -/
structure Reaction where
  effects : List Effect
  outcome : Outcome
  deriving DecidableEq, Repr

def Reaction.continue : Reaction := ⟨[], .flow .continue⟩

/-- The reaction to a message after the earlier ones, the latest of which comes first. -/
abbrev Handler := (earlier : List Message) → (message : Message) → Reaction

namespace Handler

/-- Answers the n-th message, counted from one, as `at` says, all others with `otherwise`. -/
def scripted (turns : List (Nat × Reaction)) (otherwise : Reaction) : Handler :=
  fun earlier _ => (turns.lookup (earlier.length + 1)).getD otherwise

end Handler

end PubSub
