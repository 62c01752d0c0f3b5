import PubSub.Contract.Basic

/-!
# Checks of publishers

Messages arrive in their topics, in order, whether they are published one by one or in batches.
-/

namespace PubSub.Contract

namespace PublisherSubject

variable {σ : Type}

def expectStored (p : PublisherSubject σ) (topic : FreshTopic) (texts : List String) :
    Check σ Unit := do
  match p.messages (← get) topic.name with
  | .error e => throw ("read back " ++ topic.shown ++ ": " ++ e.full)
  | .ok ms => expectTexts (ms.map text) texts

def expectPublished (p : PublisherSubject σ) (topic : FreshTopic) (data : String) : Check σ Unit := do
  let (r, s) := p.publish (← get) topic.name (.ofText data)
  match r with
  | .error e => throw ("publish " ++ data ++ " to " ++ topic.shown ++ ": " ++ e.message)
  | .ok () => set s

def expectBatchPublished (p : PublisherSubject σ) (topic : FreshTopic) (batch : List String) :
    Check σ Unit := do
  let (r, s) := p.publishBatch (← get) topic.name (batch.map .ofText)
  match r with
  | .error e => throw ("publish batch to " ++ topic.shown ++ ": " ++ e.message)
  | .ok () => set s

/-- Messages for two topics, by turns, each arrive in their own. -/
def publishes (p : PublisherSubject σ) (serial : Nat) : Check σ Unit := do
  let a := freshTopic serial "a"
  let b := freshTopic serial "b"
  p.expectPublished a "v1"
  p.expectPublished b "v2"
  p.expectPublished a "v3"
  p.expectStored a ["v1", "v3"]
  p.expectStored b ["v2"]

def publishesBatches (p : PublisherSubject σ) (serial : Nat) : Check σ Unit := do
  let a := freshTopic serial "a"
  let b := freshTopic serial "b"
  p.expectBatchPublished a ["v1", "v3", "v5", "v7"]
  p.expectBatchPublished b ["v2", "v4"]
  p.expectStored a ["v1", "v3", "v5", "v7"]
  p.expectStored b ["v2", "v4"]

/-- Every check of publishers. -/
def publisher (p : PublisherSubject σ) : Check σ Unit := do
  p.publishes 0
  p.publishesBatches 1

end PublisherSubject

end PubSub.Contract
