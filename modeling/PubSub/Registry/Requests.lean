import PubSub.Registry

/-!
# Requests to a registry

A registry is asked to bind schemes and to open URLs, one request after another. What opens is a call
of the way that is bound to the scheme: what the call comes to is the reply, and it may change what
surrounds the registry. A refused binding leaves all as it was.
-/

namespace PubSub.Registry

variable {π σ ω P S α β : Type}

inductive Request (π σ : Type) where
  | bindPublisher (scheme : String) (way : π)
  | bindSubscriber (scheme : String) (way : σ)
  | openPublisher (url : String) (cancelled : Bool)
  | openSubscriber (url : String) (cancelled : Bool)
  deriving DecidableEq, Repr

inductive Reply (P S : Type) where
  | bound
  | refused (t : SchemeTaken)
  | publisher (r : Except Error P)
  | subscriber (r : Except Error S)

/-- What calls of the ways of both sides do. -/
structure Calls (π σ ω P S : Type) where
  publisher : π → Endpoint → ω → Except Error P × ω
  subscriber : σ → Endpoint → ω → Except Error S × ω

/-- A registry and what surrounds it. -/
structure Served (π σ ω : Type) where
  registry : Registry π σ
  surroundings : ω

/-- Opens a URL by a call of the way that a side binds to the scheme. -/
def opens (side : NameMap α) (call : α → Endpoint → ω → Except Error β × ω) (cancelled : Bool)
    (url : String) (w : ω) : Except Error β × ω :=
  match resolve side cancelled url with
  | .error e => (.error e, w)
  | .ok (way, e) => call way e w

/-- The registry after an attempt to bind a scheme. -/
def Served.rebound (u : Served π σ ω) :
    Except SchemeTaken (Registry π σ) → Reply P S × Served π σ ω
  | .error t => (.refused t, u)
  | .ok r => (.bound, ⟨r, u.surroundings⟩)

def Served.answer (calls : Calls π σ ω P S) (u : Served π σ ω) :
    Request π σ → Reply P S × Served π σ ω
  | .bindPublisher scheme way => u.rebound (u.registry.registerPublisher scheme way)
  | .bindSubscriber scheme way => u.rebound (u.registry.registerSubscriber scheme way)
  | .openPublisher url cancelled =>
    let (r, w) := opens u.registry.publishers calls.publisher cancelled url u.surroundings
    (.publisher r, ⟨u.registry, w⟩)
  | .openSubscriber url cancelled =>
    let (r, w) := opens u.registry.subscribers calls.subscriber cancelled url u.surroundings
    (.subscriber r, ⟨u.registry, w⟩)

/-- The registry after some requests. -/
def Served.after (calls : Calls π σ ω P S) (u : Served π σ ω) (qs : List (Request π σ)) :
    Served π σ ω :=
  qs.foldl (fun u q => (u.answer calls q).2) u

end PubSub.Registry
