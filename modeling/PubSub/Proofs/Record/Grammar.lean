import PubSub.Proofs.Json.Reading
import PubSub.Proofs.NameMap
import PubSub.Proofs.Record.Written
import PubSub.Proofs.Text.Base64

/-!
# The grammar of records

`Represents v m` says which message a JSON value is a record of, if it is one. Decoding succeeds on
the renderings of these values only and gives this message (`decode_rendered`).

The scanners are compared with the grammar one after another. Each lemma is about a scanner in front
of a value in one of its renderings and says exactly when the scanner succeeds, what it returns and
that it leaves what stands behind the value.
-/

namespace PubSub.Record

open Json (Value White Between Writes WritesText WritesElements WritesMembers Renders Stops
  skipSpace)

/-! ## Records as values -/

inductive StandsForId : Value → Option String → Prop
  | null : StandsForId .null none
  | text (t : String) : StandsForId (.text t) (some t)

/-- A payload is written in base64, in the one way that encoding it gives. -/
inductive StandsForPayload : Value → Bytes → Prop
  | null : StandsForPayload .null []
  | base64 {t : String} {bs : Bytes} : Utf8.ofText t = Base64.encode bs →
      StandsForPayload (.text t) bs

/-- Labels are an object of texts, of which the last one counts where a name repeats. -/
inductive StandsForLabels : Value → Attributes → Prop
  | object {es : List (String × String)} {a : Attributes} :
      (∀ name, a.get? name = es.reverse.lookup name) →
      StandsForLabels (.object (es.map fun e => (e.1, .text e.2))) a

/-- One value that stands for `x`, or none where `x` is the default. -/
inductive AtMostOnce {α : Type} (StandsFor : Value → α → Prop) (default : α) :
    List Value → α → Prop
  | absent : AtMostOnce StandsFor default [] default
  | once {v : Value} {x : α} : StandsFor v x → AtMostOnce StandsFor default [v] x

def named (name : String) (ms : List (String × Value)) : List Value :=
  (ms.filter (·.1 = name)).map (·.2)

/-- What the members say about the fields. No other member matters, nor does their order. -/
structure Describes (ms : List (String × Value)) (m : Message) : Prop where
  id : AtMostOnce StandsForId none (named "id" ms) m.id
  data : AtMostOnce StandsForPayload [] (named "data" ms) m.data
  attributes : AtMostOnce StandsForLabels NameMap.empty (named "attributes" ms) m.attributes

/-- A record is an object, or a list of the fields in their order that may end early. -/
inductive Represents : Value → Message → Prop
  | object {ms : List (String × Value)} {m : Message} : Describes ms m → Represents (.object ms) m
  | list {vs : List Value} {m : Message} : vs.length ≤ 3 →
      Describes (["id", "data", "attributes"].zip vs) m → Represents (.list vs) m

/-! ## Texts -/

variable {v : Value} {w u r x : Bytes}

/-- The first byte of a value decides what the scanners do with it. -/
theorem skipSpace_writes (h : Writes v u) (hw : White w) (r : Bytes) :
    ∃ b t, u = b :: t ∧ v.OpensWith b ∧ skipSpace (w ++ u ++ r) = b :: (t ++ r) := by
  obtain ⟨b, t, rfl, hopens⟩ := h.opensWith
  refine ⟨b, t, rfl, hopens, ?_⟩
  rw [List.append_assoc]
  exact Json.skipSpace_to hw hopens.begins.1 _

theorem opensWith_quote (h : v.OpensWith 34) : ∃ t, v = .text t := by
  cases v with
  | text t => exact ⟨t, rfl⟩
  | boolean b => cases b <;> cases h
  | number q => rcases h with h | h <;> cases h
  | null | list | object => cases h

theorem opensWith_null (h : v.OpensWith 110) : v = .null := by
  cases v with
  | null => rfl
  | boolean b => cases b <;> cases h
  | number q => rcases h with h | h <;> cases h
  | text | list | object => cases h

theorem opensWith_list (h : v.OpensWith 91) : ∃ vs, v = .list vs := by
  cases v with
  | list vs => exact ⟨vs, rfl⟩
  | boolean b => cases b <;> cases h
  | number q => rcases h with h | h <;> cases h
  | null | text | object => cases h

theorem opensWith_object (h : v.OpensWith 123) : ∃ ms, v = .object ms := by
  cases v with
  | object ms => exact ⟨ms, rfl⟩
  | boolean b => cases b <;> cases h
  | number q => rcases h with h | h <;> cases h
  | null | text | list => cases h

theorem text_iff {t : String} (h : Writes v u) (hw : White w) :
    text (w ++ u ++ r) = .ok (t, x) ↔ v = .text t ∧ x = r := by
  obtain ⟨b, s, hu, hopens, hskip⟩ := skipSpace_writes h hw r
  rw [text, hskip]
  by_cases hb : b = 34
  · subst hb
    obtain ⟨t', rfl⟩ := opensWith_quote hopens
    have hread : Json.text (s ++ r) = .ok (t', r) := by
      cases h with
      | text ht =>
        cases ht with
        | @quoted s' hs =>
          obtain rfl : s' ++ [34] = s := (List.cons.inj hu).2
          rw [List.append_assoc]
          exact Json.text_writes hs r
    simp only [if_true, hread, malformed, Except.ok.injEq, Prod.mk.injEq, Value.text.injEq]
    exact ⟨fun h => ⟨h.1, h.2.symm⟩, fun h => ⟨h.1, h.2.symm⟩⟩
  · simp only [if_neg hb]
    constructor
    · intro hm
      exact absurd hm mismatch_ne_ok
    · rintro ⟨rfl, -⟩
      exact absurd hopens hb

theorem optionalText_iff {t : Option String} (h : Writes v u) (hw : White w) :
    optionalText (w ++ u ++ r) = .ok (t, x) ↔ StandsForId v t ∧ x = r := by
  obtain ⟨b, s, hu, hopens, hskip⟩ := skipSpace_writes h hw r
  by_cases hb : b = 110
  · subst hb
    obtain rfl := opensWith_null hopens
    have hs : s = [117, 108, 108] := by
      cases h
      exact (List.cons.inj hu).2.symm
    have hread : malformed (Json.literal [117, 108, 108] (s ++ r)) = .ok r := by
      rw [hs]
      rfl
    simp only [optionalText, hskip, if_true, hread, Except.ok.injEq, Prod.mk.injEq]
    constructor
    · rintro ⟨rfl, rfl⟩
      exact ⟨.null, rfl⟩
    · rintro ⟨⟨⟩, rfl⟩
      exact ⟨rfl, rfl⟩
  · simp only [optionalText, hskip, if_neg hb]
    constructor
    · intro ht
      split at ht
      · cases ht
      · next t' r' hread =>
        obtain ⟨rfl, rfl⟩ := (text_iff h hw).1 hread
        cases ht
        exact ⟨.text t', rfl⟩
    · rintro ⟨hv, rfl⟩
      cases hv with
      | null => exact absurd hopens hb
      | text t' =>
        have hread := (text_iff (r := x) h hw).2 ⟨rfl, rfl⟩
        rw [hread]

theorem payload_iff {bs : Bytes} (h : Writes v u) (hw : White w) :
    payload (w ++ u ++ r) = .ok (bs, x) ↔ StandsForPayload v bs ∧ x = r := by
  rw [payload]
  constructor
  · intro hp
    split at hp
    · cases hp
    · next r' hread =>
      obtain ⟨hv, rfl⟩ := (optionalText_iff h hw).1 hread
      cases hv
      cases hp
      exact ⟨.null, rfl⟩
    · next t r' hread =>
      obtain ⟨hv, rfl⟩ := (optionalText_iff h hw).1 hread
      cases hv
      split at hp
      · next bs' hdecode =>
        cases hp
        exact ⟨.base64 (Base64.decode_eq_ok_iff.1 hdecode), rfl⟩
      · cases hp
  · rintro ⟨hv, rfl⟩
    cases hv with
    | null =>
      rw [(optionalText_iff h hw).2 ⟨.null, rfl⟩]
    | @base64 t bs ht =>
      rw [(optionalText_iff h hw).2 ⟨.text t, rfl⟩]
      simp only [Base64.decode_eq_ok_iff.2 ht]

/-! ## Keys -/

theorem key_end (first : Bool) (hw : White w) (r : Bytes) :
    key first (w ++ 125 :: r) = .ok (none, 125 :: r) := by
  have hstart : keyStart first (w ++ 125 :: r) = .ok (false, 125 :: r) := by
    rw [keyStart, Json.skipSpace_to hw (by decide)]
    rfl
  rw [key, hstart]

theorem key_member {first : Bool} {b k : Bytes} {name : String} (hb : Between first b)
    (hk : WritesText name k) (r : Bytes) : key first (b ++ k ++ r) = .ok (some name, r) := by
  cases hk with
  | @quoted s hs =>
    have hstart : keyStart first (b ++ (34 :: s ++ [34]) ++ r) = .ok (true, s ++ 34 :: r) := by
      cases hb with
      | first hw =>
        have hsplit : b ++ (34 :: s ++ [34]) ++ r = b ++ 34 :: (s ++ 34 :: r) := by simp
        rw [hsplit, keyStart, Json.skipSpace_to hw (by decide)]
        rfl
      | @comma w a hw ha =>
        have hsplit : w ++ 44 :: a ++ (34 :: s ++ [34]) ++ r =
            w ++ 44 :: (a ++ 34 :: (s ++ 34 :: r)) := by simp
        rw [hsplit, keyStart, Json.skipSpace_to hw (by decide)]
        simp only [show ¬ (44 : UInt8) = 125 by decide, if_false, Bool.false_eq_true, if_true]
        rw [Json.skipSpace_to ha (by decide)]
        rfl
    rw [key, hstart]
    simp only [Json.text_writes hs, malformed]

theorem colon_white (hw : White w) (r : Bytes) : Json.colon (w ++ 58 :: r) = .ok r := by
  rw [Json.colon, Json.skipSpace_to hw (by decide)]
  rfl

/-! ## Labels -/

theorem labelMembers_iff {ms : List (String × Value)} {first : Bool} {s : Bytes}
    (h : WritesMembers first ms s) {l a : Attributes} :
    labelMembers first l (s ++ 125 :: r) = .ok (a, x) ↔
      x = 125 :: r ∧ ∃ es : List (String × String), ms = es.map (fun e => (e.1, Value.text e.2)) ∧
        a = es.foldl (fun m e => m.insert e.1 e.2) l := by
  induction ms generalizing first s l with
  | nil =>
    cases h with
    | nil hw =>
      rw [labelMembers_closed (key_end first hw r)]
      constructor
      · intro ha
        cases ha
        exact ⟨rfl, [], rfl, rfl⟩
      · rintro ⟨rfl, es, hes, rfl⟩
        obtain rfl : es = [] := List.map_eq_nil_iff.1 hes.symm
        rfl
  | cons e ms ih =>
    cases h with
    | @cons _ k v _ b t w c u s hb ht hw hc hv hms =>
      have hsplit : b ++ t ++ w ++ 58 :: c ++ u ++ s ++ 125 :: r =
          b ++ t ++ (w ++ 58 :: (c ++ u ++ (s ++ 125 :: r))) := by simp
      rw [hsplit, labelMembers_next (key_member hb ht _), colon_white hw]
      simp only
      constructor
      · intro ha
        split at ha
        · cases ha
        · next t' r' hread =>
          obtain ⟨rfl, rfl⟩ := (text_iff hv hc).1 hread
          obtain ⟨rfl, es, rfl, rfl⟩ := (ih hms).1 ha
          exact ⟨rfl, (k, t') :: es, rfl, rfl⟩
      · rintro ⟨rfl, es, hes, rfl⟩
        cases es with
        | nil => cases hes
        | cons e es =>
          obtain ⟨hkv, rfl⟩ := List.cons.inj hes
          cases hkv
          rw [(text_iff hv hc).2 ⟨rfl, rfl⟩]
          exact (ih hms).2 ⟨rfl, es, rfl, rfl⟩

theorem labels_iff {a : Attributes} (h : Writes v u) (hw : White w) :
    labels (w ++ u ++ r) = .ok (a, x) ↔ StandsForLabels v a ∧ x = r := by
  obtain ⟨b, s, hu, hopens, hskip⟩ := skipSpace_writes h hw r
  rw [labels, hskip]
  by_cases hb : b = 123
  · subst hb
    obtain ⟨ms, rfl⟩ := opensWith_object hopens
    simp only [if_true]
    cases h with
    | @object _ s' hms =>
      obtain rfl : s' ++ [125] = s := (List.cons.inj hu).2
      rw [List.append_assoc, List.singleton_append]
      constructor
      · intro ha
        split at ha
        · cases ha
        · next a' r' hread =>
          obtain ⟨rfl, es, rfl, rfl⟩ := (labelMembers_iff hms).1 hread
          cases ha
          refine ⟨.object fun name => ?_, rfl⟩
          rw [NameMap.get?_foldl_insert, NameMap.get?_empty, Option.or_none]
      · rintro ⟨hlabels, rfl⟩
        generalize hv : Value.object ms = v at hlabels
        cases hlabels with
        | @object es a ha =>
          cases hv
          have hfold : a = es.foldl (fun m e => m.insert e.1 e.2) NameMap.empty := by
            refine NameMap.ext_get? fun name => ?_
            rw [NameMap.get?_foldl_insert, NameMap.get?_empty, Option.or_none, ha]
          rw [(labelMembers_iff hms).2 ⟨rfl, es, rfl, hfold⟩]
          rfl
  · simp only [if_neg hb]
    constructor
    · intro ha
      exact absurd ha mismatch_ne_ok
    · rintro ⟨hlabels, -⟩
      cases hlabels
      exact absurd hopens hb

/-! ## Fields -/

/-- The draft with the value for its field. -/
inductive Draft.Sets (d : Draft) (v : Value) : Field → Draft → Prop
  | id {t : Option String} : StandsForId v t → Sets d v .id ⟨some t, d.data, d.attributes⟩
  | data {bs : Bytes} : StandsForPayload v bs → Sets d v .data ⟨d.id, some bs, d.attributes⟩
  | attributes {a : Attributes} : StandsForLabels v a →
      Sets d v .attributes ⟨d.id, d.data, some a⟩

theorem field_iff {f : Field} {d d' : Draft} (h : Writes v u) (hw : White w) :
    field f d (w ++ u ++ r) = .ok (d', x) ↔ d.Sets v f d' ∧ x = r := by
  cases f with
  | id =>
    rw [field]
    constructor
    · intro hf
      split at hf
      · cases hf
      · next t r' hread =>
        obtain ⟨hv, rfl⟩ := (optionalText_iff h hw).1 hread
        cases hf
        exact ⟨.id hv, rfl⟩
    · rintro ⟨hset, rfl⟩
      cases hset with
      | id hv => rw [(optionalText_iff h hw).2 ⟨hv, rfl⟩]
  | data =>
    rw [field]
    constructor
    · intro hf
      split at hf
      · cases hf
      · next bs r' hread =>
        obtain ⟨hv, rfl⟩ := (payload_iff h hw).1 hread
        cases hf
        exact ⟨.data hv, rfl⟩
    · rintro ⟨hset, rfl⟩
      cases hset with
      | data hv => rw [(payload_iff h hw).2 ⟨hv, rfl⟩]
  | attributes =>
    rw [field]
    constructor
    · intro hf
      split at hf
      · cases hf
      · next a r' hread =>
        obtain ⟨hv, rfl⟩ := (labels_iff h hw).1 hread
        cases hf
        exact ⟨.attributes hv, rfl⟩
    · rintro ⟨hset, rfl⟩
      cases hset with
      | attributes hv => rw [(labels_iff h hw).2 ⟨hv, rfl⟩]

theorem member_field_iff {f : Field} {a : Bytes} {d d' : Draft} (h : Writes v u) (hw : White w)
    (ha : White a) :
    member f.name d (w ++ 58 :: (a ++ u ++ r)) = .ok (d', x) ↔
      d.has f = false ∧ d.Sets v f d' ∧ x = r := by
  rw [member, Field.ofName?_name, colon_white hw]
  simp only
  cases hhas : d.has f with
  | true =>
    constructor
    · intro hf
      cases hf
    · rintro ⟨hf, -⟩
      cases hf
  | false =>
    rw [if_neg (by decide), field_iff h ha]
    simp

/-- A member that is no field is passed over as a whole, whatever its value. -/
theorem member_other {k : String} {a : Bytes} (hk : Field.ofName? k = none) (h : Writes v u)
    (hw : White w) (ha : White a) (hr : Stops r) (d : Draft) :
    member k d (w ++ 58 :: (a ++ u ++ r)) = .ok (d, r) := by
  rw [member, hk, colon_white hw]
  simp only [Json.skipValue_writes h ha hr, malformed]

/-! ## Drafts -/

/-- What values do to a field: none leaves it, and one sets it if it is not set yet. -/
inductive Slot {α : Type} (StandsFor : Value → α → Prop) : Option α → List Value → Option α → Prop
  | kept (o : Option α) : Slot StandsFor o [] o
  | set {v : Value} {x : α} : StandsFor v x → Slot StandsFor none [v] (some x)

section Slot

variable {α : Type} {StandsFor : Value → α → Prop}

theorem slot_nil {o o' : Option α} : Slot StandsFor o [] o' ↔ o' = o := by
  constructor
  · rintro ⟨⟩
    rfl
  · rintro rfl
    exact .kept _

theorem slot_some {a : α} {vs : List Value} {o : Option α} :
    Slot StandsFor (some a) vs o ↔ vs = [] ∧ o = some a := by
  constructor
  · rintro ⟨⟩
    exact ⟨rfl, rfl⟩
  · rintro ⟨rfl, rfl⟩
    exact .kept _

theorem slot_cons {v : Value} {vs : List Value} {o o' : Option α} :
    Slot StandsFor o (v :: vs) o' ↔
      o = none ∧ ∃ a, StandsFor v a ∧ Slot StandsFor (some a) vs o' := by
  constructor
  · rintro ⟨⟩
    next a ha => exact ⟨rfl, a, ha, .kept _⟩
  · rintro ⟨rfl, a, ha, hvs⟩
    obtain ⟨rfl, rfl⟩ := slot_some.1 hvs
    exact .set ha

theorem slot_atMostOnce {default a : α} {vs : List Value} :
    AtMostOnce StandsFor default vs a ↔
      ∃ o, Slot StandsFor none vs o ∧ o.getD default = a := by
  constructor
  · rintro (_ | ha)
    · exact ⟨none, .kept _, rfl⟩
    · exact ⟨some a, .set ha, rfl⟩
  · rintro ⟨o, _ | ha, rfl⟩
    · exact .absent
    · exact .once ha

end Slot

/-- What the members of a record make of a draft. -/
structure Draft.Takes (d : Draft) (ms : List (String × Value)) (d' : Draft) : Prop where
  id : Slot StandsForId d.id (named "id" ms) d'.id
  data : Slot StandsForPayload d.data (named "data" ms) d'.data
  attributes : Slot StandsForLabels d.attributes (named "attributes" ms) d'.attributes

variable {d d' : Draft} {ms : List (String × Value)}

theorem takes_nil : d.Takes [] d' ↔ d' = d := by
  constructor
  · rintro ⟨hid, hdata, hattr⟩
    cases d
    cases d'
    obtain rfl := slot_nil.1 hid
    obtain rfl := slot_nil.1 hdata
    obtain rfl := slot_nil.1 hattr
    rfl
  · rintro rfl
    exact ⟨.kept _, .kept _, .kept _⟩

theorem named_other {name k : String} (h : k ≠ name) :
    named name ((k, v) :: ms) = named name ms := by
  simp [named, h]

theorem name_of_ofName? {k : String} {f : Field} (h : Field.ofName? k = some f) : k = f.name := by
  unfold Field.ofName? at h
  split at h
  · next hk =>
    cases h
    exact hk
  · split at h
    · next hk =>
      cases h
      exact hk
    · split at h
      · next hk =>
        cases h
        exact hk
      · cases h

/-- A member that is no field leaves the draft. -/
theorem takes_other {k : String} (hk : Field.ofName? k = none) :
    d.Takes ((k, v) :: ms) d' ↔ d.Takes ms d' := by
  have hnamed : ∀ f : Field, named f.name ((k, v) :: ms) = named f.name ms := by
    intro f
    refine named_other fun hf => ?_
    rw [hf, Field.ofName?_name] at hk
    cases hk
  have hid := hnamed .id
  have hdata := hnamed .data
  have hattr := hnamed .attributes
  simp only [Field.name] at hid hdata hattr
  constructor
  · rintro ⟨h₁, h₂, h₃⟩
    exact ⟨hid ▸ h₁, hdata ▸ h₂, hattr ▸ h₃⟩
  · rintro ⟨h₁, h₂, h₃⟩
    exact ⟨hid ▸ h₁, hdata ▸ h₂, hattr ▸ h₃⟩

/-- A field is set if it was not before, and the other members follow. -/
theorem takes_field {f : Field} :
    d.Takes ((f.name, v) :: ms) d' ↔
      d.has f = false ∧ ∃ d₁, d.Sets v f d₁ ∧ d₁.Takes ms d' := by
  cases f with
  | id =>
    have hnamed : named "id" ((Field.id.name, v) :: ms) = v :: named "id" ms := rfl
    constructor
    · rintro ⟨hid, hdata, hattr⟩
      obtain ⟨hd, t, ht, hid⟩ := slot_cons.1 (hnamed ▸ hid)
      exact ⟨by rw [Draft.has, hd]; rfl, _, .id ht, hid, hdata, hattr⟩
    · rintro ⟨hd, d₁, hset, hid, hdata, hattr⟩
      have hnone : d.id = none := by simpa [Draft.has] using hd
      cases hset with
      | id ht => exact ⟨slot_cons.2 ⟨hnone, _, ht, hid⟩, hdata, hattr⟩
  | data =>
    have hnamed : named "data" ((Field.data.name, v) :: ms) = v :: named "data" ms := rfl
    constructor
    · rintro ⟨hid, hdata, hattr⟩
      obtain ⟨hd, bs, hbs, hdata⟩ := slot_cons.1 (hnamed ▸ hdata)
      exact ⟨by rw [Draft.has, hd]; rfl, _, .data hbs, hid, hdata, hattr⟩
    · rintro ⟨hd, d₁, hset, hid, hdata, hattr⟩
      have hnone : d.data = none := by simpa [Draft.has] using hd
      cases hset with
      | data hbs => exact ⟨hid, slot_cons.2 ⟨hnone, _, hbs, hdata⟩, hattr⟩
  | attributes =>
    have hnamed : named "attributes" ((Field.attributes.name, v) :: ms) =
        v :: named "attributes" ms := rfl
    constructor
    · rintro ⟨hid, hdata, hattr⟩
      obtain ⟨hd, a, ha, hattr⟩ := slot_cons.1 (hnamed ▸ hattr)
      exact ⟨by rw [Draft.has, hd]; rfl, _, .attributes ha, hid, hdata, hattr⟩
    · rintro ⟨hd, d₁, hset, hid, hdata, hattr⟩
      have hnone : d.attributes = none := by simpa [Draft.has] using hd
      cases hset with
      | attributes ha => exact ⟨hid, hdata, slot_cons.2 ⟨hnone, _, ha, hattr⟩⟩

theorem describes_iff {m : Message} :
    Describes ms m ↔ ∃ d, Draft.empty.Takes ms d ∧ d.message = m := by
  constructor
  · rintro ⟨hid, hdata, hattr⟩
    obtain ⟨i, hi, hmi⟩ := slot_atMostOnce.1 hid
    obtain ⟨p, hp, hmp⟩ := slot_atMostOnce.1 hdata
    obtain ⟨a, ha, hma⟩ := slot_atMostOnce.1 hattr
    refine ⟨⟨i, p, a⟩, ⟨hi, hp, ha⟩, ?_⟩
    rw [Draft.message, hmi, hmp, hma]
  · rintro ⟨d, ⟨hid, hdata, hattr⟩, rfl⟩
    exact ⟨slot_atMostOnce.2 ⟨_, hid, rfl⟩, slot_atMostOnce.2 ⟨_, hdata, rfl⟩,
      slot_atMostOnce.2 ⟨_, hattr, rfl⟩⟩

/-! ## Members -/

theorem members_iff {first : Bool} {s : Bytes} (h : WritesMembers first ms s) :
    members first d (s ++ 125 :: r) = .ok (d', x) ↔ d.Takes ms d' ∧ x = 125 :: r := by
  induction ms generalizing first s d with
  | nil =>
    cases h with
    | nil hw =>
      rw [members_closed (key_end first hw r), takes_nil]
      constructor
      · intro hd
        cases hd
        exact ⟨rfl, rfl⟩
      · rintro ⟨rfl, rfl⟩
        rfl
  | cons e ms ih =>
    cases h with
    | @cons _ k v _ b t w a u s hb ht hw ha hv hms =>
      have hsplit : b ++ t ++ w ++ 58 :: a ++ u ++ s ++ 125 :: r =
          b ++ t ++ (w ++ 58 :: (a ++ u ++ (s ++ 125 :: r))) := by simp
      rw [hsplit, members_next (key_member hb ht _)]
      cases hk : Field.ofName? k with
      | none =>
        rw [member_other hk hv hw ha hms.stops, takes_other hk]
        exact ih hms
      | some f =>
        obtain rfl := name_of_ofName? hk
        rw [takes_field]
        constructor
        · intro hd
          split at hd
          · cases hd
          · next d₁ r' hread =>
            obtain ⟨hhas, hset, rfl⟩ := (member_field_iff hv hw ha).1 hread
            obtain ⟨htakes, rfl⟩ := (ih hms).1 hd
            exact ⟨⟨hhas, d₁, hset, htakes⟩, rfl⟩
        · rintro ⟨⟨hhas, d₁, hset, htakes⟩, rfl⟩
          rw [(member_field_iff hv hw ha).2 ⟨hhas, hset, rfl⟩]
          exact (ih hms).2 ⟨htakes, rfl⟩

/-! ## Elements -/

theorem elementStart_end (first : Bool) (hw : White w) (r : Bytes) :
    elementStart first (w ++ 93 :: r) = .ok (false, 93 :: r) := by
  rw [elementStart, Json.skipSpace_to hw (by decide)]
  rfl

theorem elementStart_next {first : Bool} {b : Bytes} (hb : Between first b) (h : Writes v u)
    (r : Bytes) : elementStart first (b ++ u ++ r) = .ok (true, u ++ r) := by
  obtain ⟨c, t, rfl, hopens⟩ := h.opensWith
  obtain ⟨hspace, hclose⟩ := hopens.begins
  cases hb with
  | first hw =>
    rw [List.append_assoc, List.cons_append, elementStart, Json.skipSpace_to hw hspace]
    simp only [if_neg hclose, if_true]
  | @comma w a hw ha =>
    have hsplit : w ++ 44 :: a ++ c :: t ++ r = w ++ 44 :: (a ++ c :: (t ++ r)) := by simp
    rw [hsplit, elementStart, Json.skipSpace_to hw (by decide)]
    simp only [show ¬ (44 : UInt8) = 93 by decide, if_false, Bool.false_eq_true, if_true]
    rw [Json.skipSpace_to ha hspace]
    simp only [if_neg hclose, List.cons_append]

/-- A list must end where its fields do. -/
theorem endList_iff {first : Bool} {vs : List Value} {s : Bytes} (h : WritesElements first vs s)
    (hfirst : first = false ∨ vs = []) :
    endList (s ++ 93 :: r) = .ok x ↔ vs = [] ∧ x = r := by
  cases h with
  | nil hw =>
    rw [endList, Json.skipSpace_to hw (by decide)]
    simp only [if_true, Except.ok.injEq, true_and]
    exact eq_comm
  | @cons _ v vs b u s hb hv hvs =>
    obtain rfl : first = false := by simpa using hfirst
    obtain ⟨c, t, rfl, hopens⟩ := hv.opensWith
    obtain ⟨hspace, hclose⟩ := hopens.begins
    cases hb with
    | @comma w a hw ha =>
      have hsplit : w ++ 44 :: a ++ c :: t ++ s ++ 93 :: r =
          w ++ 44 :: (a ++ c :: (t ++ s ++ 93 :: r)) := by simp
      rw [hsplit, endList, Json.skipSpace_to hw (by decide)]
      simp only [show ¬ (44 : UInt8) = 93 by decide, if_false, if_true]
      rw [Json.skipSpace_to ha hspace]
      simp [if_neg hclose, Json.fail]

theorem sets_has {f g : Field} (h : d.Sets v f d') (hg : g ≠ f) : d'.has g = d.has g := by
  cases h <;> cases g <;> first | rfl | exact absurd rfl hg

/-- The elements of a list are set for the fields in their order, and none is left. -/
theorem elements_iff {fs : List Field} {first : Bool} {vs : List Value} {s : Bytes}
    (h : WritesElements first vs s) (hfirst : first = false ∨ fs ≠ []) (hfs : fs.Nodup)
    (hnew : ∀ f ∈ fs, d.has f = false) :
    (∃ y, elements first fs d (s ++ 93 :: r) = .ok (d', y) ∧ endList y = .ok x) ↔
      vs.length ≤ fs.length ∧ d.Takes ((fs.map Field.name).zip vs) d' ∧ x = r := by
  induction fs generalizing first vs s d with
  | nil =>
    have hend := endList_iff (r := r) (x := x) h (.inl (by simpa using hfirst))
    rw [elements]
    constructor
    · rintro ⟨y, hy, hx⟩
      cases hy
      obtain ⟨rfl, rfl⟩ := hend.1 hx
      exact ⟨Nat.le_refl _, takes_nil.2 rfl, rfl⟩
    · rintro ⟨hlen, htakes, rfl⟩
      obtain rfl := takes_nil.1 htakes
      exact ⟨_, rfl, hend.2 ⟨List.eq_nil_of_length_eq_zero (by simpa using hlen), rfl⟩⟩
  | cons f fs ih =>
    rw [elements]
    cases h with
    | nil hw =>
      have hnone : WritesElements first [] [] := .nil Json.white_nil
      have hend := endList_iff (r := r) (x := x) hnone (.inr rfl)
      rw [elementStart_end first hw, List.zip_nil_right, takes_nil]
      constructor
      · rintro ⟨y, hy, hx⟩
        cases hy
        exact ⟨Nat.zero_le _, rfl, (hend.1 hx).2⟩
      · rintro ⟨-, rfl, rfl⟩
        exact ⟨_, rfl, hend.2 ⟨rfl, rfl⟩⟩
    | @cons _ v vs b u s hb hv hvs =>
      obtain ⟨hf, hrest⟩ := List.nodup_cons.1 hfs
      have hnext : ∀ {d₁}, d.Sets v f d₁ → ∀ g ∈ fs, d₁.has g = false := by
        intro d₁ hset g hg
        have hne : g ≠ f := by
          rintro rfl
          exact hf hg
        rw [sets_has hset hne]
        exact hnew g (List.mem_cons_of_mem _ hg)
      have hsplit : b ++ u ++ s ++ 93 :: r = b ++ u ++ (s ++ 93 :: r) := by simp
      rw [hsplit, elementStart_next hb hv, List.map_cons, List.zip_cons_cons, takes_field]
      simp only
      constructor
      · rintro ⟨y, hy, hx⟩
        split at hy
        · cases hy
        · next d₁ r' hread =>
          obtain ⟨hset, rfl⟩ := (field_iff (w := []) hv Json.white_nil).1 hread
          obtain ⟨hlen, htakes, rfl⟩ := (ih hvs (.inl rfl) hrest (hnext hset)).1 ⟨y, hy, hx⟩
          exact ⟨Nat.succ_le_succ hlen, ⟨hnew f List.mem_cons_self, d₁, hset, htakes⟩, rfl⟩
      · rintro ⟨hlen, ⟨-, d₁, hset, htakes⟩, rfl⟩
        have hread : field f d (u ++ (s ++ 93 :: x)) = .ok (d₁, s ++ 93 :: x) :=
          (field_iff (w := []) hv Json.white_nil).2 ⟨hset, rfl⟩
        rw [hread]
        exact (ih hvs (.inl rfl) hrest (hnext hset)).2 ⟨Nat.le_of_succ_le_succ hlen, htakes, rfl⟩

/-! ## Records -/

theorem read_iff {m : Message} (h : Writes v u) (hw : White w) :
    read (w ++ u ++ r) = .ok (m, x) ↔ Represents v m ∧ x = r := by
  obtain ⟨b, s, hu, hopens, hskip⟩ := skipSpace_writes h hw r
  rw [read, hskip]
  by_cases hobject : b = 123
  · subst hobject
    obtain ⟨ms, rfl⟩ := opensWith_object hopens
    simp only [if_true]
    cases h with
    | @object _ s' hms =>
      obtain rfl : s' ++ [125] = s := (List.cons.inj hu).2
      rw [List.append_assoc, List.singleton_append]
      constructor
      · intro hread
        split at hread
        · cases hread
        · next d r' hd =>
          obtain ⟨htakes, rfl⟩ := (members_iff hms).1 hd
          cases hread
          exact ⟨.object (describes_iff.2 ⟨d, htakes, rfl⟩), rfl⟩
      · rintro ⟨⟨hmembers⟩, rfl⟩
        obtain ⟨d, htakes, rfl⟩ := describes_iff.1 hmembers
        rw [(members_iff hms).2 ⟨htakes, rfl⟩]
        rfl
  by_cases hlist : b = 91
  · subst hlist
    obtain ⟨vs, rfl⟩ := opensWith_list hopens
    simp only [if_neg hobject, if_true]
    cases h with
    | @list _ s' hvs =>
      obtain rfl : s' ++ [93] = s := (List.cons.inj hu).2
      rw [List.append_assoc, List.singleton_append]
      have hiff : ∀ d, (∃ y, elements true [.id, .data, .attributes] .empty (s' ++ 93 :: r) =
          .ok (d, y) ∧ endList y = .ok x) ↔ vs.length ≤ 3 ∧
            Draft.empty.Takes (["id", "data", "attributes"].zip vs) d ∧ x = r :=
        fun d => elements_iff hvs (.inr (by simp)) (by decide) (by decide)
      constructor
      · intro hread
        split at hread
        · cases hread
        · next d y hd =>
          split at hread
          · cases hread
          · next x' hend =>
            cases hread
            obtain ⟨hlen, htakes, rfl⟩ := (hiff d).1 ⟨y, hd, hend⟩
            exact ⟨.list hlen (describes_iff.2 ⟨d, htakes, rfl⟩), rfl⟩
      · rintro ⟨hrep, hx⟩
        cases hrep with
        | list hlen hmembers =>
          obtain ⟨d, htakes, rfl⟩ := describes_iff.1 hmembers
          obtain ⟨y, hd, hend⟩ := (hiff d).2 ⟨hlen, htakes, hx⟩
          rw [hd]
          simp only [hend]
  · simp only [if_neg hobject, if_neg hlist]
    constructor
    · intro hm
      exact absurd hm mismatch_ne_ok
    · rintro ⟨hrep, -⟩
      cases hrep with
      | object => exact absurd hopens hobject
      | list => exact absurd hopens hlist

/-! ## Whole texts -/

theorem decode_iff {s : Bytes} {m : Message} (h : Renders v s) :
    decode s = .ok m ↔ Represents v m := by
  cases h with
  | @around a u b ha hv hb =>
    have hend : skipSpace b = [] := by
      have hb' := Json.skipSpace_white hb []
      rwa [List.append_nil] at hb'
    constructor
    · intro hd
      rw [decode] at hd
      split at hd
      · next m' hwhole =>
        cases hd
        rw [readWhole] at hwhole
        split at hwhole
        · cases hwhole
        · next m' r' hread =>
          obtain ⟨hrep, rfl⟩ := (read_iff hv ha).1 hread
          rw [hend] at hwhole
          cases hwhole
          exact hrep
      · cases hd
    · intro hrep
      rw [decode, readWhole, (read_iff hv ha).2 ⟨hrep, rfl⟩]
      simp only [hend]

/-- The members that are fields, in their order. -/
def fieldMembers (ms : List (String × Value)) : List (String × Value) :=
  ms.filter fun e => (Field.ofName? e.1).isSome

theorem AtMostOnce.perm {α : Type} {StandsFor : Value → α → Prop} {default a : α}
    {vs vs' : List Value} (h : AtMostOnce StandsFor default vs a) (hp : vs.Perm vs') :
    AtMostOnce StandsFor default vs' a := by
  cases h with
  | absent =>
    rw [hp.symm.eq_nil]
    exact .absent
  | once ha =>
    rw [List.perm_singleton.1 hp.symm]
    exact .once ha

theorem Describes.perm {ms ms' : List (String × Value)} {m : Message} (h : Describes ms m)
    (hp : (fieldMembers ms).Perm (fieldMembers ms')) : Describes ms' m := by
  have hnamed : ∀ f : Field, (named f.name ms).Perm (named f.name ms') := by
    have hsame : ∀ (f : Field) ms, named f.name ms = named f.name (fieldMembers ms) := by
      intro f ms
      rw [named, named, fieldMembers, List.filter_filter]
      congr 2
      funext e
      by_cases he : e.1 = f.name
      · simp [he, Field.ofName?_name]
      · simp [he]
    intro f
    rw [hsame f ms, hsame f ms']
    exact (hp.filter _).map _
  exact ⟨h.id.perm (hnamed .id), h.data.perm (hnamed .data), h.attributes.perm (hnamed .attributes)⟩

/-- The renderings of a value are decoded alike, namely as the message that it represents, and if it
represents none they are refused. The other members of an object make no difference, nor does the
order of its members. -/
theorem decode_rendered :
    (∀ (v : Value) (s : Bytes), Renders v s → ∀ m, decode s = .ok m ↔ Represents v m) ∧
      ∀ (ms ms' : List (String × Value)) (s s' : Bytes),
        (fieldMembers ms).Perm (fieldMembers ms') →
        Renders (.object ms) s → Renders (.object ms') s' →
        ∀ m, decode s = .ok m ↔ decode s' = .ok m := by
  refine ⟨fun v s hs m => decode_iff hs, fun ms ms' s s' hp hs hs' m => ?_⟩
  rw [decode_iff hs, decode_iff hs']
  constructor
  · rintro ⟨h⟩
    exact .object (h.perm hp)
  · rintro ⟨h⟩
    exact .object (h.perm hp.symm)

/-- A payload behind a member that is none of the fields, and its two renderings with an escape in a
key and without this member. -/
theorem decode_rendered_escapedKey :
    let payload : String × Value := ("data", .text "YQ==")
    let other : String × Value := ("x", .list [.boolean true, .null])
    let long := Utf8.ofText "\x7b\"x\":[true , null],\"d\\u0061ta\":\"YQ==\"\x7d"
    let short := Utf8.ofText " \x7b\"data\":\"YQ==\"\x7d"
    Renders (.object [other, payload]) long ∧ Renders (.object [payload]) short ∧
      (fieldMembers [other, payload]).Perm (fieldMembers [payload]) ∧
      Represents (.object [payload]) ⟨none, [97], .empty⟩ ∧
      decode short = .ok ⟨none, [97], .empty⟩ ∧ decode long = .ok ⟨none, [97], .empty⟩ := by
  intro payload other long short
  have hnil : White [] := Json.white_nil
  have hspace : White [32] := by simp [White]
  have hplain : ∀ t : String, (t.toList.all fun c => 32 ≤ c.toNat ∧ c.toNat ≠ 34 ∧ c.toNat ≠ 92) →
      WritesText t (34 :: Utf8.ofText t ++ [34]) := by
    intro t ht
    exact Json.writesText_plain (by simpa using ht)
  have hx := hplain "x" (by decide)
  have hdata := hplain "data" (by decide)
  have hvalue : Writes (.text "YQ==") (34 :: Utf8.ofText "YQ==" ++ [34]) :=
    .text (hplain _ (by decide))
  have hlist : Writes (.list [.boolean true, .null]) (Utf8.ofText "[true , null]") :=
    .list (.cons (.first hnil) .true (.cons (.comma hspace hspace) .null (.nil hnil)))
  have hescape : WritesText "data" (Utf8.ofText "\"d\\u0061ta\"") := by
    have hd : Json.WritesChar 'd' [100] := .plain (by decide) (by decide) (by decide)
    have ht : Json.WritesChar 't' [116] := .plain (by decide) (by decide) (by decide)
    have ha : Json.WritesChar 'a' [97] := .plain (by decide) (by decide) (by decide)
    have hunit : Json.WritesUnit (((0 * 16 + 0) * 16 + 6) * 16 + 1) [48, 48, 54, 49] :=
      .digits (.inl ⟨by decide, rfl⟩) (.inl ⟨by decide, rfl⟩) (.inl ⟨by decide, rfl⟩)
        (.inl ⟨by decide, rfl⟩)
    have ha' : Json.WritesChar 'a' [92, 117, 48, 48, 54, 49] := .unit hunit
    have hchars : Json.WritesChars ['d', 'a', 't', 'a'] [100, 92, 117, 48, 48, 54, 49, 116, 97] :=
      .cons hd (.cons ha' (.cons ht (.cons ha .nil)))
    exact WritesText.quoted (t := "data") hchars
  have hlong : Renders (.object [other, payload]) long := by
    have hmembers := WritesMembers.cons (.comma hnil hnil) hescape hnil hnil hvalue (.nil hnil)
    have hall := WritesMembers.cons (.first hnil) hx hnil hnil hlist hmembers
    exact (congrArg (Renders _) (by decide)).mp (.around hnil (.object hall) hnil)
  have hshort : Renders (.object [payload]) short := by
    have hmembers := WritesMembers.cons (.first hnil) hdata hnil hnil hvalue (.nil hnil)
    exact (congrArg (Renders _) (by decide)).mp (.around hspace (.object hmembers) hnil)
  have hperm : (fieldMembers [other, payload]).Perm (fieldMembers [payload]) := by
    have hsame : fieldMembers [other, payload] = fieldMembers [payload] := rfl
    rw [hsame]
  have hrep : Represents (.object [payload]) ⟨none, [97], .empty⟩ :=
    .object ⟨.absent, .once (.base64 (by decide)), .absent⟩
  have hdecode := (decode_rendered.1 _ _ hshort _).2 hrep
  exact ⟨hlong, hshort, hperm, hrep, hdecode,
    (decode_rendered.2 _ _ _ _ hperm hlong hshort _).2 hdecode⟩

end PubSub.Record
