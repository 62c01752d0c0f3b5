import PubSub.Contract.Builtin

/-!
# Backends with one fault

What the checks are there to find: a subject with one fault put in.
-/

namespace PubSub.Contract

def injected : Error := .config "injected"

/-! ## Publishers -/

/-- What goes wrong with one message, or with all of them. -/
inductive PublishFault where
  | refuse
  | lose
  | duplicate
  | corrupt
  | oneTopic
  | unreadable
  /-- Nothing goes wrong. -/
  | harmless
  deriving DecidableEq, Repr

def garbage (m : Message) : Message := { m with data := Utf8.ofText "garbage" }

namespace PublisherSubject

variable {σ : Type}

/-- How the message that the fault strikes is published. -/
def publishStruck (p : PublisherSubject σ) (fault : PublishFault) (s : σ) (topic : String)
    (m : Message) : Except Error Unit × σ :=
  match fault with
  | .refuse => (.error injected, s)
  | .lose => (.ok (), s)
  | .duplicate =>
    match p.publish s topic m with
    | (.ok (), s) => p.publish s topic m
    | (.error e, s) => (.error e, s)
  | .corrupt => p.publish s topic (garbage m)
  | .oneTopic | .unreadable | .harmless => p.publish s topic m

/-- A subject whose fault strikes one message, by its number; its batches go message by message. -/
def withFault (p : PublisherSubject σ) (fault : PublishFault) (number : Nat) :
    PublisherSubject (σ × Nat) :=
  let publish (s : σ × Nat) (topic : String) (m : Message) : Except Error Unit × (σ × Nat) :=
    let topic := if fault = .oneTopic then "shared" else topic
    let (r, t) := if s.2 = number then p.publishStruck fault s.1 topic m else p.publish s.1 topic m
    (r, (t, s.2 + 1))
  ⟨publish, fun s topic batch => publishAll (fun s m => publish s topic m) s batch,
    fun s topic =>
      if fault = .unreadable then .error (.context "reading" (.error injected))
      else p.messages s.1 topic⟩

end PublisherSubject

/-! ## Subscribers -/

inductive SubscribeFault where
  | ignoreDone
  | doneIsError
  | swallowError
  | ignoreError
  | rewrapError
  | refuse
  | closeError
  | ignoreCancel
  | seedError
  | seedNone
  | seedFirst
  | seedReversed
  | seedMore
  | seedCorrupt
  deriving DecidableEq, Repr

namespace SubscribeFault

/-- How a handler's answer is misread. -/
def onFlow (fault : SubscribeFault) (flow : Flow) : Flow :=
  match fault, flow with
  | .ignoreDone, .done => .continue
  | .doneIsError, .done => .abort (.plain "done")
  | .swallowError, .abort _ => .done
  | .ignoreError, .abort _ => .continue
  | .rewrapError, .abort cause => .abort (.context "wrapped" cause)
  | _, flow => flow

def onHandler (fault : SubscribeFault) (handler : Handler) : Handler := fun earlier m =>
  let reaction := handler earlier m
  match reaction.outcome with
  | .flow flow => { reaction with outcome := .flow (fault.onFlow flow) }
  | .panic _ => reaction

def onSeeds (fault : SubscribeFault) (ms : List Message) : List Message :=
  match fault with
  | .seedNone => []
  | .seedFirst => ms.take 1
  | .seedReversed => ms.reverse
  | .seedMore => ms ++ [.ofText "message-3"]
  | .seedCorrupt => ms.modify 1 garbage
  | _ => ms

end SubscribeFault

def SubscriberSubject.withFault (p : SubscriberSubject) (fault : SubscribeFault) :
    SubscriberSubject :=
  { seed := fun w topic ms =>
      if fault = .seedError then (.error (.context "seeding" (.error injected)), w)
      else p.seed w topic (fault.onSeeds ms)
    subscribe := fun w n s =>
      if fault = .refuse then .error injected
      else
        let governor := if fault = .ignoreCancel then none else s.options.governor
        p.subscribe w n { s with
          handler := fault.onHandler s.handler
          options := { s.options with governor := governor } }
    close := fun w n => if fault = .closeError then (.error injected, w) else p.close w n }

end PubSub.Contract
