import PubSub.Event

/-!
# Options of a subscription

Where it starts, which token governs it, and who is told about errors of the transport.
-/

namespace PubSub

structure SubscribeOptions where
  /-- The position asked for; `none` leaves it to the backend. -/
  start : Option StartPosition
  /-- The token whose cancellation stops the subscription. -/
  governor : Option String
  /-- Whether errors of the transport are collected; otherwise they are logged. -/
  collects : Bool
  deriving DecidableEq, Repr

namespace SubscribeOptions

def default : SubscribeOptions := ⟨none, none, false⟩

/-- The start position, which must be among those a backend supports. -/
def resolveStart (o : SubscribeOptions) (fallback : StartPosition)
    (supported : List StartPosition) : Except Error StartPosition :=
  let start := o.start.getD fallback
  if start ∈ supported then .ok start else .error (.unsupportedStart start)

/-- Tells an error of the transport: what is collected, and what is logged. -/
def report (o : SubscribeOptions) (e : Error) : List Error × List Event :=
  if o.collects then ([e], []) else ([], [.transportError e])

/-- The options in brief. -/
def shown (o : SubscribeOptions) : String :=
  let start :=
    match o.start with
    | none => "None"
    | some .newest => "Some(Newest)"
    | some .oldest => "Some(Oldest)"
  let cancel := if o.governor.isSome then "true" else "false"
  "SubOptions \x7b start_at: " ++ start ++ ", cancel: " ++ cancel ++ ", .. \x7d"

end SubscribeOptions

end PubSub
