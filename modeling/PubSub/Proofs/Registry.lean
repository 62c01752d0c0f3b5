import PubSub.Proofs.NameMap
import PubSub.Registry.Requests
import PubSub.Session

/-!
# Registries over whole runs

Each side of a registry is a map that the first write to a name decides. Whatever was requested
before, the schemes of a side are those that were registered on it, in increasing order; a scheme
stays bound as it was first registered; and a URL is opened by one call of the way that its scheme is
bound to, or by none (`history_answered`). The requests are those that sessions make
(`Session.makes_registerPublisher`, `Session.makes_openPublisher` and the like).
-/

namespace PubSub.Registry

variable {π σ ω P S α β : Type}

/-! ## What requests bind -/

namespace Request

/-- The scheme that a request binds on the side of the publishers, and the way. -/
def publisherBinding? : Request π σ → Option (String × π)
  | .bindPublisher scheme way => some (scheme, way)
  | _ => none

def subscriberBinding? : Request π σ → Option (String × σ)
  | .bindSubscriber scheme way => some (scheme, way)
  | _ => none

end Request

/-- What a history registers on the side of the publishers, repetitions included. -/
def publisherBindings (past : List (Request π σ)) : List (String × π) :=
  past.filterMap Request.publisherBinding?

def subscriberBindings (past : List (Request π σ)) : List (String × σ) :=
  past.filterMap Request.subscriberBinding?

/-- A side with the schemes that it lists, after registrations in this order. -/
structure Binds (bound : List (String × α)) (side : NameMap α) (schemes : List String) : Prop where
  /-- Of several registrations of a scheme the first one counts. -/
  first : ∀ scheme, side.get? scheme = bound.lookup scheme
  increasing : schemes.Pairwise (· < ·)
  listed : ∀ scheme, scheme ∈ schemes ↔ ∃ way, (scheme, way) ∈ bound

/-- What it comes to that a URL is opened after registrations in this order: a call of the first way
that was registered for its scheme, or an error and no call. -/
inductive Opening (bound : List (String × α)) (call : α → Endpoint → ω → Except Error β × ω)
    (cancelled : Bool) (url : String) (w : ω) : Except Error β × ω → Prop
  | invalid {flaw : Url.Flaw} : Endpoint.parse url = .error (.invalidUrl flaw) →
      Opening bound call cancelled url w (.error (.invalidUrl flaw), w)
  | unknown {e : Endpoint} : Endpoint.parse url = .ok e → bound.lookup e.scheme = none →
      Opening bound call cancelled url w (.error (.unknownScheme e.scheme), w)
  | cancelled {e : Endpoint} {way : α} : Endpoint.parse url = .ok e →
      bound.lookup e.scheme = some way → cancelled = true →
      Opening bound call cancelled url w (.error .cancelled, w)
  | called {e : Endpoint} {way : α} : Endpoint.parse url = .ok e →
      bound.lookup e.scheme = some way → cancelled = false →
      Opening bound call cancelled url w (call way e w)

/-- How a request is answered after registrations in these orders, and what it changes. -/
inductive Answers (calls : Calls π σ ω P S) (publishers : List (String × π))
    (subscribers : List (String × σ)) (u : Served π σ ω) :
    Request π σ → Reply P S × Served π σ ω → Prop
  | bindsPublisher {scheme : String} {way : π} : publishers.lookup scheme = none →
      Answers calls publishers subscribers u (.bindPublisher scheme way)
        (.bound, ⟨⟨u.registry.publishers.insert scheme way, u.registry.subscribers⟩,
          u.surroundings⟩)
  | refusesPublisher {scheme : String} {way first : π} : publishers.lookup scheme = some first →
      Answers calls publishers subscribers u (.bindPublisher scheme way) (.refused ⟨scheme⟩, u)
  | bindsSubscriber {scheme : String} {way : σ} : subscribers.lookup scheme = none →
      Answers calls publishers subscribers u (.bindSubscriber scheme way)
        (.bound, ⟨⟨u.registry.publishers, u.registry.subscribers.insert scheme way⟩,
          u.surroundings⟩)
  | refusesSubscriber {scheme : String} {way first : σ} : subscribers.lookup scheme = some first →
      Answers calls publishers subscribers u (.bindSubscriber scheme way) (.refused ⟨scheme⟩, u)
  | opensPublisher {url : String} {cancelled : Bool} {r : Except Error P} {w : ω} :
      Opening publishers calls.publisher cancelled url u.surroundings (r, w) →
      Answers calls publishers subscribers u (.openPublisher url cancelled)
        (.publisher r, ⟨u.registry, w⟩)
  | opensSubscriber {url : String} {cancelled : Bool} {r : Except Error S} {w : ω} :
      Opening subscribers calls.subscriber cancelled url u.surroundings (r, w) →
      Answers calls publishers subscribers u (.openSubscriber url cancelled)
        (.subscriber r, ⟨u.registry, w⟩)

/-! ## One side -/

/-- The side binds each scheme as it was registered first. -/
def HoldsFirst (bound : List (String × α)) (side : NameMap α) : Prop :=
  ∀ scheme, side.get? scheme = bound.lookup scheme

variable {bound : List (String × α)} {side : NameMap α}

theorem mem_names {m : NameMap α} {name : String} : name ∈ m.names ↔ ∃ a, m.get? name = some a := by
  constructor
  · intro h
    obtain ⟨e, he, rfl⟩ := List.mem_map.1 h
    exact ⟨e.2, NameMap.get?_eq_some_iff.2 he⟩
  · rintro ⟨a, ha⟩
    exact List.mem_map.2 ⟨_, NameMap.get?_eq_some_iff.1 ha, rfl⟩

theorem exists_lookup_iff {scheme : String} :
    (∃ way, bound.lookup scheme = some way) ↔ ∃ way, (scheme, way) ∈ bound := by
  constructor
  · rintro ⟨way, h⟩
    obtain ⟨before, after, rfl, -⟩ := List.lookup_eq_some_iff.1 h
    exact ⟨way, List.mem_append_right _ List.mem_cons_self⟩
  · rintro ⟨way, h⟩
    cases hl : bound.lookup scheme with
    | some first => exact ⟨first, rfl⟩
    | none => exact absurd rfl (bne_iff_ne.1 (List.lookup_eq_none_iff.1 hl _ h))

theorem HoldsFirst.binds (h : HoldsFirst bound side) : Binds bound side side.names where
  first := h
  increasing := side.names_increasing
  listed scheme := by
    rw [mem_names, h, exists_lookup_iff]

/-- Either the scheme is new and is bound, or it was registered before and nothing changes. -/
theorem HoldsFirst.bind (h : HoldsFirst bound side) (scheme : String) (way : α) :
    (bound.lookup scheme = none ∧ bind side scheme way = .ok (side.insert scheme way) ∧
        HoldsFirst (bound ++ [(scheme, way)]) (side.insert scheme way)) ∨
      ∃ first, bound.lookup scheme = some first ∧ bind side scheme way = .error ⟨scheme⟩ ∧
        HoldsFirst (bound ++ [(scheme, way)]) side := by
  have hlast : ∀ other, [(scheme, way)].lookup other = if other = scheme then some way else none :=
    fun other => NameMap.lookup_pair scheme other way []
  rw [Registry.bind, NameMap.contains, h scheme]
  cases hl : bound.lookup scheme with
  | none =>
    refine .inl ⟨rfl, rfl, fun other => ?_⟩
    rw [NameMap.get?_insert, h other, List.lookup_append, hlast]
    by_cases ho : other = scheme
    · subst ho
      rw [hl, if_pos rfl]
      rfl
    · rw [if_neg ho, if_neg ho, Option.or_none]
  | some first =>
    refine .inr ⟨first, rfl, rfl, fun other => ?_⟩
    rw [h other, List.lookup_append, hlast]
    by_cases ho : other = scheme
    · subst ho
      rw [hl]
      rfl
    · rw [if_neg ho, Option.or_none]

/-- All that can be wrong with an endpoint is its URL. -/
theorem parse_error {url : String} {x : Error} (h : Endpoint.parse url = .error x) :
    ∃ flaw, x = .invalidUrl flaw := by
  have hurl : ∀ {γ : Type} (s : String) (f : Url → γ),
      (Endpoint.parseUrl s).map f = .error x → ∃ flaw, x = .invalidUrl flaw := by
    intro γ s f hs
    rw [Endpoint.parseUrl] at hs
    cases hp : Url.parse s with
    | error flaw =>
      rw [hp] at hs
      exact ⟨flaw, (Except.error.inj hs).symm⟩
    | ok url =>
      rw [hp] at hs
      cases hs
  rw [Endpoint.parse] at h
  split at h
  · exact hurl _ _ h
  · simp only at h
    split at h <;> exact hurl _ _ h

/-- With a live token only the way of the scheme decides. -/
theorem resolve_live {url : String} {e : Endpoint} (hurl : Endpoint.parse url = .ok e) :
    resolve side false url =
      match side.get? e.scheme with
      | none => .error (.unknownScheme e.scheme)
      | some way => .ok (way, e) := by
  simp only [resolve, hurl, Bind.bind, Except.bind]
  cases side.get? e.scheme <;> rfl

theorem HoldsFirst.opens (h : HoldsFirst bound side)
    (call : α → Endpoint → ω → Except Error β × ω) (cancelled : Bool) (url : String) (w : ω) :
    Opening bound call cancelled url w (opens side call cancelled url w) := by
  rw [Registry.opens, resolve]
  cases hp : Endpoint.parse url with
  | error x =>
    obtain ⟨flaw, rfl⟩ := parse_error hp
    exact .invalid hp
  | ok e =>
    simp only [Bind.bind, Except.bind, h e.scheme]
    cases hl : bound.lookup e.scheme with
    | none => exact .unknown hp hl
    | some way =>
      cases cancelled with
      | true => exact .cancelled hp hl rfl
      | false => exact .called hp hl rfl

/-! ## Whole runs -/

variable {publishers : List (String × π)} {subscribers : List (String × σ)} {u : Served π σ ω}

/-- Both sides hold what was registered first on them. -/
structure Served.Reflects (u : Served π σ ω) (publishers : List (String × π))
    (subscribers : List (String × σ)) : Prop where
  publishers : HoldsFirst publishers u.registry.publishers
  subscribers : HoldsFirst subscribers u.registry.subscribers

theorem Served.Reflects.answers (h : u.Reflects publishers subscribers)
    (calls : Calls π σ ω P S) (q : Request π σ) :
    Answers calls publishers subscribers u q (u.answer calls q) ∧
      (u.answer calls q).2.Reflects (publishers ++ q.publisherBinding?.toList)
        (subscribers ++ q.subscriberBinding?.toList) := by
  have hpubs : HoldsFirst (publishers ++ []) u.registry.publishers := by
    rw [List.append_nil]
    exact h.publishers
  have hsubs : HoldsFirst (subscribers ++ []) u.registry.subscribers := by
    rw [List.append_nil]
    exact h.subscribers
  cases q with
  | bindPublisher scheme way =>
    rw [Served.answer, registerPublisher]
    rcases h.publishers.bind scheme way with ⟨hl, hb, hm⟩ | ⟨first, hl, hb, hm⟩
    · rw [hb]
      exact ⟨.bindsPublisher hl, hm, hsubs⟩
    · rw [hb]
      exact ⟨.refusesPublisher hl, hm, hsubs⟩
  | bindSubscriber scheme way =>
    rw [Served.answer, registerSubscriber]
    rcases h.subscribers.bind scheme way with ⟨hl, hb, hm⟩ | ⟨first, hl, hb, hm⟩
    · rw [hb]
      exact ⟨.bindsSubscriber hl, hpubs, hm⟩
    · rw [hb]
      exact ⟨.refusesSubscriber hl, hpubs, hm⟩
  | openPublisher url cancelled =>
    have hopens := h.publishers.opens calls.publisher cancelled url u.surroundings
    exact ⟨.opensPublisher hopens, hpubs, hsubs⟩
  | openSubscriber url cancelled =>
    have hopens := h.subscribers.opens calls.subscriber cancelled url u.surroundings
    exact ⟨.opensSubscriber hopens, hpubs, hsubs⟩

theorem Served.Reflects.after (h : u.Reflects publishers subscribers) (calls : Calls π σ ω P S)
    (qs : List (Request π σ)) :
    (u.after calls qs).Reflects (publishers ++ publisherBindings qs)
      (subscribers ++ subscriberBindings qs) := by
  induction qs generalizing u publishers subscribers with
  | nil =>
    rw [publisherBindings, subscriberBindings, List.filterMap_nil, List.filterMap_nil,
      List.append_nil, List.append_nil]
    exact h
  | cons q qs ih =>
    have hrest := ih (h.answers calls q).2
    rw [List.append_assoc, List.append_assoc] at hrest
    have hp : publisherBindings (q :: qs) = q.publisherBinding?.toList ++ publisherBindings qs := by
      rw [publisherBindings, List.filterMap_cons]
      cases q.publisherBinding? <;> rfl
    have hs : subscriberBindings (q :: qs) =
        q.subscriberBinding?.toList ++ subscriberBindings qs := by
      rw [subscriberBindings, List.filterMap_cons]
      cases q.subscriberBinding? <;> rfl
    rw [hp, hs]
    exact hrest

theorem reflects_empty (w : ω) : (⟨empty, w⟩ : Served π σ ω).Reflects [] [] :=
  ⟨fun _ => rfl, fun _ => rfl⟩

/-- What a side holds it keeps, whatever else is registered. -/
theorem HoldsFirst.kept {later : List (String × α)} {side' : NameMap α} (h : HoldsFirst bound side)
    (h' : HoldsFirst (bound ++ later) side') {scheme : String} {way : α}
    (hway : side.get? scheme = some way) : side'.get? scheme = some way := by
  rw [h scheme] at hway
  rw [h' scheme, List.lookup_append, hway]
  rfl

/-- After any history of a registry both sides list the schemes that were registered on them and bind
each to the way that came first, now and ever after; and any request is answered as these
registrations say. -/
theorem history_answered (calls : Calls π σ ω P S) (w : ω) (past : List (Request π σ)) :
    let u := (Served.mk empty w).after calls past
    Binds (publisherBindings past) u.registry.publishers u.registry.publisherSchemes ∧
      Binds (subscriberBindings past) u.registry.subscribers u.registry.subscriberSchemes ∧
      (∀ later scheme,
        (∀ way, u.registry.publishers.get? scheme = some way →
          (u.after calls later).registry.publishers.get? scheme = some way) ∧
        ∀ way, u.registry.subscribers.get? scheme = some way →
          (u.after calls later).registry.subscribers.get? scheme = some way) ∧
      ∀ q, Answers calls (publisherBindings past) (subscriberBindings past) u q
        (u.answer calls q) := by
  intro u
  have h : u.Reflects (publisherBindings past) (subscriberBindings past) :=
    (reflects_empty w).after calls past
  refine ⟨h.publishers.binds, h.subscribers.binds, fun later scheme => ⟨?_, ?_⟩, ?_⟩
  · exact fun way hway => h.publishers.kept (h.after calls later).publishers hway
  · exact fun way hway => h.subscribers.kept (h.after calls later).subscribers hway
  · exact fun q => (h.answers calls q).1

/-- Ways by number, whose calls are recorded with the scheme and the hosts that they were given. -/
def recording : Calls Nat Nat (List (Nat × String × List String)) Nat Nat where
  publisher way e w := (.ok way, w ++ [(way, e.scheme, e.hosts)])
  subscriber way e w := (.ok way, w ++ [(way, e.scheme, e.hosts)])

/-- A scheme is registered again on one side, and then opened. -/
def registeredTwice : List (Request Nat Nat) := [
  .bindPublisher "mem" 1,
  .bindSubscriber "mem" 2,
  .openPublisher "kafka://h" false,
  .bindPublisher "mem" 3,
  .bindPublisher "kafka" 4,
  .openPublisher "mem://a:1,b:2/x" false]

theorem history_answered_twice :
    let u := (Served.mk empty []).after recording registeredTwice
    u.registry.publisherSchemes = ["kafka", "mem"] ∧ u.registry.subscriberSchemes = ["mem"] ∧
      u.surroundings = [(1, "mem", ["a:1", "b:2"])] ∧
      (∀ later, (u.after recording later).registry.publishers.get? "mem" = some 1) ∧
      Answers recording [("mem", 1), ("mem", 3), ("kafka", 4)] [("mem", 2)] u
        (.openPublisher "kafka://h" true)
        (u.answer recording (.openPublisher "kafka://h" true)) := by
  intro u
  obtain ⟨-, -, hkept, hanswers⟩ := history_answered recording [] registeredTwice
  refine ⟨by decide +kernel, by decide +kernel, by decide +kernel, fun later => ?_, hanswers _⟩
  exact (hkept later "mem").1 1 (by decide +kernel)

end PubSub.Registry

/-! ## Sessions -/

namespace PubSub.Session

open Registry (Request Served)

/-- The calls of ways in a session change its files, and those of ways that were bound by hand are
recorded. -/
def wayCalls :
    Registry.Calls PublisherWay SubscriberWay (Files × List OpenCall) Publisher Subscriber where
  publisher way e w :=
    let (p, files) := way.create w.1 e
    (p, files, w.2 ++ if way.isBuiltin then [] else [⟨"publisher", e, false⟩])
  subscriber way e w :=
    (way.create e, w.1, w.2 ++ if way.isBuiltin then [] else [⟨"subscriber", e, false⟩])

/-- A registry of a session, with what calls of its ways can change. -/
def served (s : Session) (name : Option String) :
    Served PublisherWay SubscriberWay (Files × List OpenCall) :=
  ⟨s.registry name, s.world.files, s.calls⟩

/-- How a session tells the answer of a registry. -/
def told : Registry.Reply Publisher Subscriber → Reply
  | .bound => .done (.ok ())
  | .refused t => .panic t.message
  | .publisher r => .done (r.map fun _ => ())
  | .subscriber r => .done (r.map fun _ => ())

/-- A command came to what the request to the registry comes to. -/
def Makes (s : Session) (name : Option String) (q : Request PublisherWay SubscriberWay)
    (result : Reply × Session) : Prop :=
  let step := (s.served name).answer wayCalls q
  result.1 = told step.1 ∧ result.2.served name = step.2

theorem served_setRegistry (s : Session) (name : Option String) (r : Backends) :
    (s.setRegistry name r).served name = ⟨r, s.world.files, s.calls⟩ := by
  cases name with
  | none => rfl
  | some name =>
    simp only [served, setRegistry, registry, Option.bind_some, NameMap.get?_insert, if_true]
    rfl

theorem makes_registered (s : Session) (name : Option String) (q : Request PublisherWay SubscriberWay)
    (r : Except SchemeTaken Backends)
    (h : (s.served name).answer wayCalls q = (s.served name).rebound r) :
    s.Makes name q (s.registered name r) := by
  rw [Makes, h]
  cases r with
  | error t => exact ⟨rfl, rfl⟩
  | ok r => exact ⟨rfl, s.served_setRegistry name r⟩

theorem makes_registerPublisher (s : Session) (name : Option String) (scheme : String)
    (way : PublisherWay) :
    s.Makes name (.bindPublisher scheme way)
      (s.runRegistry (.registerPublisher name scheme way)) :=
  s.makes_registered name _ _ rfl

theorem makes_registerSubscriber (s : Session) (name : Option String) (scheme : String)
    (way : SubscriberWay) :
    s.Makes name (.bindSubscriber scheme way)
      (s.runRegistry (.registerSubscriber name scheme way)) :=
  s.makes_registered name _ _ rfl

/-- What a side opens a URL with. -/
theorem resolve_eq_ok {α : Type} {side : NameMap α} {cancelled : Bool} {url : String} {way : α}
    {e : Endpoint} (h : Registry.resolve side cancelled url = .ok (way, e)) :
    Endpoint.parse url = .ok e ∧ side.get? e.scheme = some way ∧ cancelled = false := by
  rw [Registry.resolve] at h
  cases hp : Endpoint.parse url with
  | error x =>
    rw [hp] at h
    cases h
  | ok e' =>
    simp only [hp, bind, Except.bind] at h
    cases hs : side.get? e'.scheme with
    | none => simp [hs] at h
    | some way' =>
      simp only [hs] at h
      cases cancelled with
      | true => cases h
      | false =>
        cases h
        exact ⟨rfl, hs, rfl⟩

/-- A call of a way that was bound by hand is recorded; its token is live. -/
theorem recorded_live (isBuiltin : Bool) (side : String) (e : Endpoint) :
    (if isBuiltin then none else some (OpenCall.mk side e false)).toList =
      if isBuiltin then [] else [⟨side, e, false⟩] := by
  cases isBuiltin <;> rfl

theorem makes_openPublisher (s : Session) (publisher url : String) (name token : Option String) :
    s.Makes name (.openPublisher url (s.world.isCancelled? token))
      (s.runPublisher (.open publisher url name token)) := by
  simp only [Makes, served, Served.answer, Registry.opens, runPublisher, Backends.openPublisher]
  cases hr : Registry.resolve (s.registry name).publishers (s.world.isCancelled? token) url with
  | error e => exact ⟨rfl, congrArg _ (congrArg _ (List.append_nil _))⟩
  | ok x =>
    obtain ⟨way, e⟩ := x
    obtain ⟨-, -, hlive⟩ := resolve_eq_ok hr
    simp only [wayCalls, hlive, recorded_live]
    cases way.create s.world.files e with
    | mk p files => cases p <;> exact ⟨rfl, rfl⟩

theorem makes_openSubscriber (s : Session) (subscriber url : String) (name token : Option String) :
    s.Makes name (.openSubscriber url (s.world.isCancelled? token))
      (s.runSubscriber (.open subscriber url name token)) := by
  simp only [Makes, served, Served.answer, Registry.opens, runSubscriber, Backends.openSubscriber]
  cases hr : Registry.resolve (s.registry name).subscribers (s.world.isCancelled? token) url with
  | error e => exact ⟨rfl, congrArg _ (congrArg _ (List.append_nil _))⟩
  | ok x =>
    obtain ⟨way, e⟩ := x
    obtain ⟨-, -, hlive⟩ := resolve_eq_ok hr
    simp only [wayCalls, hlive, recorded_live]
    cases way.create e <;> exact ⟨rfl, rfl⟩

end PubSub.Session
