import PubSub.Endpoint
import PubSub.NameMap

/-!
# Registries

A registry binds schemes to ways of opening publishers and, apart from these, subscribers. A scheme
is bound once on a side and stays bound. To open a URL, it must be valid, its scheme bound, and the
token live, and the first of these that is not so is the error.
-/

namespace PubSub

structure Registry (π σ : Type) where
  publishers : NameMap π
  subscribers : NameMap σ

/-- The refusal to bind a scheme again. -/
structure SchemeTaken where
  scheme : String
  deriving DecidableEq, Repr

def SchemeTaken.message (t : SchemeTaken) : String := "protocol " ++ t.scheme ++ " already registered"

namespace Registry

variable {π σ α : Type}

def empty : Registry π σ := ⟨NameMap.empty, NameMap.empty⟩

def bind (side : NameMap α) (scheme : String) (way : α) : Except SchemeTaken (NameMap α) :=
  if side.contains scheme then .error ⟨scheme⟩ else .ok (side.insert scheme way)

def registerPublisher (r : Registry π σ) (scheme : String) (way : π) :
    Except SchemeTaken (Registry π σ) :=
  (bind r.publishers scheme way).map fun side => { r with publishers := side }

def registerSubscriber (r : Registry π σ) (scheme : String) (way : σ) :
    Except SchemeTaken (Registry π σ) :=
  (bind r.subscribers scheme way).map fun side => { r with subscribers := side }

/-- The way that a side binds to the scheme of a URL, and the endpoint to open in that way. -/
def resolve (side : NameMap α) (cancelled : Bool) (url : String) : Except Error (α × Endpoint) := do
  let endpoint ← Endpoint.parse url
  match side.get? endpoint.scheme with
  | none => .error (.unknownScheme endpoint.scheme)
  | some way => if cancelled then .error .cancelled else .ok (way, endpoint)

def publisherSchemes (r : Registry π σ) : List String := r.publishers.names

def subscriberSchemes (r : Registry π σ) : List String := r.subscribers.names

/-- The registry in brief. -/
def shown (r : Registry π σ) : String :=
  let list (names : List String) : String := "[" ++ ", ".intercalate (names.map Quoted.quote) ++ "]"
  "Registry \x7b publishers: " ++ list r.publisherSchemes ++ ", subscribers: " ++
    list r.subscriberSchemes ++ " \x7d"

end Registry

end PubSub
