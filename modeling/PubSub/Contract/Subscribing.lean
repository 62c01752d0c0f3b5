import PubSub.Contract.Basic

/-!
# Checks of subscribers

Messages reach the handler in order, a handler that is done or fails gets no more of them, a
cancelled token is reported as such, and closing again changes nothing.
-/

namespace PubSub.Contract

namespace SubscriberSubject

def seeds : List Message := ["message-1", "message-2"].map .ofText

/-! ## Parts of checks -/

/-- Seeds a topic: the subscriber and the topic. -/
def seeded (p : SubscriberSubject) (serial : Nat) :
    Check World (Nat × FreshTopic) := do
  let topic := freshTopic serial "a"
  let (r, w) := p.seed (← get) topic.name seeds
  match r with
  | .error e => throw ("seed " ++ topic.shown ++ ": " ++ e.full)
  | .ok n =>
    set w
    return (n, topic)

/-- Subscribes to a topic, with a bus of its own for the subscription. -/
def subscribed (p : SubscriberSubject) (n : Nat) (topic : FreshTopic) (handler : Handler)
    (governor : Option String) : Check World (Bus Loop) := do
  let w ← get
  match p.subscribe w n ⟨topic.name, ⟨some .oldest, governor, false⟩, handler, false⟩ with
  | .error e => throw ("subscribe to " ++ topic.shown ++ ": " ++ e.message)
  | .ok s => return Bus.alone w s

/-- What the subscription of a bus came to. -/
def outcome (b : Bus Loop) (what : String) : Except String (Except Error Unit) :=
  match b.outcome? with
  | none => .error (timedOut what)
  | some r => .ok r

/-- A handler that answers every message in one way. -/
def always (effects : List Effect) (flow : Flow) : Handler := fun _ _ => ⟨effects, .flow flow⟩

/-- The done marker under a context, as a result. -/
def wrappedDone : Flow := .ofResult (.error (.context "wrapped" .done))

/-! ## Checks -/

def subscribes (p : SubscriberSubject) (serial : Nat) : Check World Unit := do
  let (n, topic) ← p.seeded serial
  let b := (← p.subscribed n topic (always [] .continue) none).settled
  if b.handled.length < 2 then throw (timedOut "two messages handled")
  let b := b.closed
  match (← outcome b "close") with
  | .ok () => pure ()
  | .error e =>
    if !e.isCancelled then throw ("close after consuming everything: " ++ e.message)
  expectTexts ((b.handled.map text).mergeSort (· ≤ ·)) ["message-1", "message-2"]
  set b.world

def stopsOnWrappedDone (p : SubscriberSubject) (serial : Nat) : Check World Unit := do
  let (n, topic) ← p.seeded serial
  let b := (← p.subscribed n topic (always [] wrappedDone) none).settled
  match (← outcome b "stop on done") with
  | .ok () => pure ()
  | .error e => throw ("done must stop cleanly, got: " ++ e.message)
  expectCount "only the first message is handled" b.handled.length 1
  set b.world

def returnsHandlerError (p : SubscriberSubject) (serial : Nat) : Check World Unit := do
  let (n, topic) ← p.seeded serial
  let b := (← p.subscribed n topic (always [] (.abort (.plain "foo"))) none).settled
  match (← outcome b "stop on handler error") with
  | .ok () => throw "handler error was swallowed"
  | .error e =>
    expectEqual showText? ("unexpected error: " ++ e.message) (e.handlerCause?.map (·.message))
      (some "foo")
    expectCount "only the first message is handled" b.handled.length 1
    let b := b.closed
    let again :=
      match (← outcome b "close") with
      | .ok () => none
      | .error e => some e.message
    expectEqual showText? "" again (some e.message)
    set b.world

/-- A cancellation from within the handler is reported, and so is one before the start. -/
def stopsWhenCancelled (p : SubscriberSubject) (serial : Nat) : Check World Unit := do
  let (n, topic) ← p.seeded serial
  let token := s!"governor {serial}"
  let b := (← p.subscribed n topic (always [.cancel token] .continue) (some token)).settled
  match (← outcome b "stop on cancel") with
  | .error .cancelled => pure ()
  | .error e =>
    if !e.isCancelled then throw ("expected cancellation, got Err(" ++ e.message ++ ")")
  | .ok () => throw "expected cancellation, got Ok(())"
  expectCount "nothing is handled after cancellation" b.handled.length 1
  set b.world
  let (n, topic) ← p.seeded (serial + 1)
  let token := s!"governor {serial + 1}"
  modify (·.cancel token)
  let b := (← p.subscribed n topic (always [] .continue) (some token)).settled
  match (← outcome b "stop on cancel") with
  | .error e =>
    if !e.isCancelled then throw notCancelled
  | .ok () => throw notCancelled
  expectCount "" b.handled.length 0
  set b.world
where
  notCancelled : String :=
    "assertion failed: within(\"stop on cancel\", sub.wait()).await.is_err_and(|e| e.is_cancelled())"

/-- Closing works before anything was handled, and again after that. -/
def closesIdempotently (p : SubscriberSubject) (serial : Nat) : Check World Unit := do
  let (n, topic) ← p.seeded serial
  let b := (← p.subscribed n topic (always [] wrappedDone) none).closed
  if !(← outcome b "first close").isOk then throw (notOk "first close")
  let b := b.closed
  if !(← outcome b "second close").isOk then throw (notOk "second close")
  if !b.isFinished then throw "assertion failed: sub.is_finished()"
  match p.close b.world n with
  | (.error e, _) => throw ("subscriber close: " ++ e.message)
  | (.ok (), w) => set w
where
  notOk (what : String) : String :=
    "assertion failed: within(" ++ Quoted.quote what ++ ", sub.close()).await.is_ok()"

/-- Every check of subscribers. -/
def subscriber (p : SubscriberSubject) : Check World Unit := do
  p.subscribes 0
  p.stopsOnWrappedDone 1
  p.returnsHandlerError 2
  p.stopsWhenCancelled 3
  p.closesIdempotently 5

end SubscriberSubject

end PubSub.Contract
