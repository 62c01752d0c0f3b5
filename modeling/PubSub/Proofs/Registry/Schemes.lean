import PubSub.Proofs.Registry
import PubSub.Proofs.Endpoint.LocalPath
import PubSub.Proofs.Url.Named

/-!
# Spellings of a scheme

A scheme is bound as it is spelled when it is registered, and it is looked up as URLs spell it, in
lower case. A scheme that is spelled without capitals is therefore opened by its way for good, and
cannot be registered again (`registered_reached`). A spelling with a capital is bound and is never
looked up (`capital_missed`).
-/

namespace PubSub

/-! ## URLs of a scheme and a host -/

theorem Url.SchemeName.no_colon {a : List Char} (ha : Url.SchemeName a) : ':' ∉ a := fun hin =>
  absurd (ha.fits _ hin) (by decide)

/-- The frame of URLs that end with their host. -/
def Endpoint.hostFrame {a : List Char} (ha : Url.SchemeName a) : Endpoint.Frame where
  scheme := a
  user := none
  tail := []
  scheme_fits := fun hin => ha.no_colon (hin.subset List.mem_cons_self)
  user_fits := nobody_fits
  tail_fits := nothing_fits

theorem Endpoint.parse_hostUrl {a h : List Char} (ha : Url.SchemeName a) (hh : Url.HostName h) :
    ∃ e, Endpoint.parse (Url.hostUrl a h) = .ok e ∧ e.scheme = Url.lowered a := by
  obtain ⟨url, hurl, hscheme⟩ := Url.parse_hostUrl ha hh
  have htext : (hostFrame ha).url h = Url.hostUrl a h := by
    have hparts : a ++ "://".toList ++ [] ++ h ++ [] = a ++ "://".toList ++ h := by simp
    exact congrArg String.ofList hparts
  obtain ⟨hfits, hsingle⟩ := single_of_hostName hh
  have hparsed := (hostFrame ha).parse_single hfits hsingle
  rw [htext, parseUrl, hurl] at hparsed
  exact ⟨_, hparsed, hscheme⟩

namespace Registry

variable {π σ ω P S α β : Type}

/-! ## One side -/

section Side

variable {side : NameMap α} {scheme url : String} {way : α} {e : Endpoint}

theorem bind_taken (h : side.get? scheme = some way) (other : α) :
    bind side scheme other = .error ⟨scheme⟩ := by
  rw [bind, NameMap.contains, h]
  rfl

theorem get?_bind {side' : NameMap α} (h : bind side scheme way = .ok side') :
    side'.get? scheme = some way := by
  rw [bind] at h
  split at h
  · cases h
  · obtain rfl := Except.ok.inj h
    rw [NameMap.get?_insert, if_pos rfl]

theorem opens_live (hurl : Endpoint.parse url = .ok e)
    (call : α → Endpoint → ω → Except Error β × ω) (w : ω) :
    opens side call false url w =
      match side.get? e.scheme with
      | some way => call way e w
      | none => (.error (.unknownScheme e.scheme), w) := by
  rw [opens, resolve_live hurl]
  cases side.get? e.scheme <;> rfl

/-- What comes of the URLs of a scheme: a call of the way, or of none. -/
def OpensBy (side : NameMap α) (a : List Char) (way? : Option α) : Prop :=
  ∀ {ω β : Type} (call : α → Endpoint → ω → Except Error β × ω) (h : List Char) (w : ω),
    Url.HostName h → ∃ e, Endpoint.parse (Url.hostUrl a h) = .ok e ∧
      opens side call false (Url.hostUrl a h) w =
        match way? with
        | some way => call way e w
        | none => (.error (.unknownScheme (Url.lowered a)), w)

/-- What a side makes of a spelling of a scheme that was registered with a way. -/
structure Reached (side : NameMap α) (a : List Char) (way : α) : Prop where
  /-- What is called is bound to the spelling in lower case. -/
  opens : OpensBy side a (side.get? (Url.lowered a))
  invokes : (∀ c ∈ a, c.isUpper = false) → OpensBy side a (some way)
  /-- No further spelling without a capital is accepted. -/
  refuses : (∀ c ∈ a, c.isUpper = false) → ∀ (b : List Char) (other : α),
    (∀ c ∈ b, c.isUpper = false) → Url.lowered b = Url.lowered a →
      bind side (String.ofList b) other = .error ⟨String.ofList b⟩

theorem reached_of_bound {a : List Char} (ha : Url.SchemeName a)
    (h : side.get? (String.ofList a) = some way) : Reached side a way := by
  have hopens : OpensBy side a (side.get? (Url.lowered a)) := by
    intro ω β call host w hhost
    obtain ⟨e, hurl, hscheme⟩ := Endpoint.parse_hostUrl ha hhost
    refine ⟨e, hurl, ?_⟩
    rw [opens_live hurl, hscheme]
  refine ⟨hopens, fun hlower => ?_, fun hlower b other hb hsame => ?_⟩
  · rwa [Url.lowered_eq_iff.2 hlower, h] at hopens
  · rw [Url.lowered_eq_iff.2 hlower, Url.lowered_eq_iff.2 hb] at hsame
    exact bind_taken (hsame ▸ h) other

end Side

/-! ## Whole runs -/

variable (calls : Calls π σ ω P S) (u : Served π σ ω)

theorem Served.reflects_self :
    u.Reflects u.registry.publishers.entries u.registry.subscribers.entries :=
  ⟨fun _ => rfl, fun _ => rfl⟩

variable {u}

theorem Served.publisher_bound {scheme : String} {way : π}
    (h : (u.answer calls (.bindPublisher scheme way)).1 = .bound) :
    (u.answer calls (.bindPublisher scheme way)).2.registry.publishers.get? scheme = some way := by
  simp only [Served.answer, registerPublisher] at h ⊢
  cases hb : bind u.registry.publishers scheme way with
  | error t =>
    rw [hb] at h
    cases h
  | ok side => exact get?_bind hb

theorem Served.subscriber_bound {scheme : String} {way : σ}
    (h : (u.answer calls (.bindSubscriber scheme way)).1 = .bound) :
    (u.answer calls (.bindSubscriber scheme way)).2.registry.subscribers.get? scheme =
      some way := by
  simp only [Served.answer, registerSubscriber] at h ⊢
  cases hb : bind u.registry.subscribers scheme way with
  | error t =>
    rw [hb] at h
    cases h
  | ok side => exact get?_bind hb

variable (u)

/-- Whatever is requested after a scheme was registered on a side, a URL of the scheme is opened by a
call of what the side binds to the scheme in lower case. If the scheme was registered without
capitals, this is the way that was given, and the scheme is refused from then on. -/
theorem registered_reached {a : List Char} (ha : Url.SchemeName a) (later : List (Request π σ)) :
    (∀ way : π,
      let step := u.answer calls (.bindPublisher (String.ofList a) way)
      step.1 = .bound → Reached (step.2.after calls later).registry.publishers a way) ∧
    ∀ way : σ,
      let step := u.answer calls (.bindSubscriber (String.ofList a) way)
      step.1 = .bound → Reached (step.2.after calls later).registry.subscribers a way := by
  constructor
  · intro way step hbound
    have hself := step.2.reflects_self
    have hbinds := Served.publisher_bound calls hbound
    exact reached_of_bound ha (hself.publishers.kept (hself.after calls later).publishers hbinds)
  · intro way step hbound
    have hself := step.2.reflects_self
    have hbinds := Served.subscriber_bound calls hbound
    exact reached_of_bound ha (hself.subscribers.kept (hself.after calls later).subscribers hbinds)

theorem registered_reached_file :
    Url.SchemeName "file".toList ∧
      ((Served.mk empty []).answer recording (.bindSubscriber "file" 1)).1 = .bound ∧
      Reached ((((Served.mk empty []).answer recording (.bindSubscriber "file" 1)).2.after recording
        registeredTwice).registry.subscribers) "file".toList 1 := by
  have hname : Url.SchemeName "file".toList :=
    ⟨⟨'f', rfl, rfl⟩, List.all_iff_forall_prop.1 (by decide)⟩
  have hbound : ((Served.mk empty []).answer recording (.bindSubscriber "file" 1)).1 = .bound := rfl
  exact ⟨hname, hbound, (registered_reached recording ⟨empty, []⟩ hname registeredTwice).2 1 hbound⟩

/-- A scheme that is registered with capitals is not known to its own URLs, and is registered again
without them. -/
theorem capital_missed :
    let u := (Served.mk empty []).answer recording (.bindPublisher "MEM" 1)
    Url.SchemeName "MEM".toList ∧ Url.HostName "host".toList ∧ u.1 = .bound ∧
      u.2.answer recording (.openPublisher "MEM://host" false) =
        (.publisher (.error (.unknownScheme "mem")), u.2) ∧
      Url.lowered "mem".toList = Url.lowered "MEM".toList ∧
      (u.2.answer recording (.bindPublisher "mem" 2)).1 = .bound := by
  intro u
  have hname : Url.SchemeName "MEM".toList :=
    ⟨⟨'M', rfl, rfl⟩, List.all_iff_forall_prop.1 (by decide)⟩
  have hhost : Url.HostName "host".toList := by decide +kernel
  obtain ⟨e, hurl, hscheme⟩ := Endpoint.parse_hostUrl hname hhost
  have hurl' : Endpoint.parse "MEM://host" = .ok e := hurl
  have hunknown : opens u.2.registry.publishers recording.publisher false "MEM://host"
      u.2.surroundings = (.error (.unknownScheme "mem"), u.2.surroundings) := by
    rw [opens_live hurl', hscheme]
    rfl
  refine ⟨hname, hhost, rfl, ?_, by decide, rfl⟩
  rw [Served.answer, hunknown]

end Registry

end PubSub
