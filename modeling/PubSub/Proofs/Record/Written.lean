import PubSub.Proofs.NameMap
import PubSub.Proofs.Record.Members

/-!
# Records as they are written

A record is read back whatever follows it (`read_written`), with its labels in any order. A record
that was cut is never read, neither at the end of the bytes nor with another record's line behind
the cut (`read_cut`).
-/

namespace PubSub.Record

open Json (Failure)

/-! ## Members -/

/-- What is written after a field's name, and what reading it adds to a draft. -/
inductive Fills : Draft → List Bytes → Draft → Prop
  | done (d : Draft) : Fills d [] d
  | field {d d₁ d₂ : Draft} {f : Field} {v : Bytes} {ms : List Bytes} : d.has f = false →
      (∀ r, field f d (v ++ r) = .ok (d₁, r)) →
      (∀ p t, Behind t → Astray Flaw.isEnd t (labels t) → Cut p v →
        Astray Flaw.isEnd t (field f d (p ++ t))) →
      Fills d₁ ms d₂ → Fills d (writeMember f.name v :: ms) d₂

theorem Field.ofName?_name (f : Field) : Field.ofName? f.name = some f := by
  cases f <;> rfl

theorem member_field {d : Draft} {f : Field} (h : d.has f = false) (r : Bytes) :
    member f.name d (58 :: r) = field f d r := by
  rw [member, Field.ofName?_name]
  simp [h, colon_written]

theorem member_stray {r : Bytes} (h : Stray r) (k : String) (d : Draft) :
    ∃ e, member k d r = .error e := by
  obtain ⟨e, he⟩ := colon_stray h
  rw [member, he]
  split
  · exact ⟨_, rfl⟩
  · split <;> exact ⟨_, rfl⟩

theorem members_closed {first : Bool} {d : Draft} {s r : Bytes}
    (h : key first s = .ok (none, r)) : members first d s = .ok (d, r) := by
  rw [members]
  split
  · next e he => simp [he] at h
  · next r' hr =>
    rw [hr] at h
    cases h
    rfl
  · next k r' hr => simp [hr] at h

theorem members_error {first : Bool} {d : Draft} {s : Bytes} {e : Failure Flaw}
    (h : key first s = .error e) : members first d s = .error e := by
  rw [members]
  split
  · next e' he =>
    rw [he] at h
    cases h
    rfl
  · next r' hr => simp [hr] at h
  · next k r' hr => simp [hr] at h

theorem members_next {first : Bool} {d : Draft} {s r : Bytes} {k : String}
    (h : key first s = .ok (some k, r)) :
    members first d s =
      match member k d r with
      | .error e => .error e
      | .ok (d, r) => members false d r := by
  rw [members]
  split
  · next e he => simp [he] at h
  · next r' hr => simp [hr] at h
  · next k' r' hr =>
    rw [hr] at h
    cases h
    split
    · next e he => rw [he]
    · next d r'' hm => rw [hm]

theorem members_written {d d' : Draft} {ms : List Bytes} (h : Fills d ms d') (first : Bool)
    (r : Bytes) : members first d (membersText first ms ++ r) = .ok (d', 125 :: r) := by
  induction h generalizing first with
  | done d => exact members_closed (key_closed first r)
  | @field d d₁ d₂ f v ms hnew hread _ _ ih =>
    have hs : membersText first (writeMember f.name v :: ms) ++ r =
        lead first ++ quoteText f.name ++ (58 :: (v ++ (membersText false ms ++ r))) := by
      simp [membersText, writeMember]
    rw [hs, members_next (key_written first f.name _), member_field hnew, hread]
    exact ih false

private theorem members_stray {r : Bytes} (h : Stray r) (d : Draft) :
    ∃ e, members false d r = .error e := by
  obtain ⟨e, he⟩ := key_stray h
  exact ⟨e, members_error he⟩

private theorem members_astray {t s : Bytes} {first : Bool}
    (hk : Astray Flaw.isEnd t (key first s)) (d : Draft) :
    Fails Flaw.isEnd t (members first d s) := by
  rcases hk with ⟨e, he, hend⟩ | ⟨hne, k, r, he, hr⟩
  · exact ⟨e, members_error he, hend⟩
  · obtain ⟨k, rfl⟩ := key_some_of_stray he hr
    obtain ⟨e, hm⟩ := member_stray hr k d
    rw [members_next he, hm]
    exact .of_ne_nil hne ⟨_, rfl⟩

theorem members_cut {t : Bytes} (ht : Behind t) (hl : Astray Flaw.isEnd t (labels t))
    {d d' : Draft} {ms : List Bytes} (hf : Fills d ms d') {first : Bool} {p : Bytes}
    (h : Cut p (membersText first ms)) : Fails Flaw.isEnd t (members first d (p ++ t)) := by
  induction hf generalizing first p with
  | done d =>
    obtain rfl := cut_singleton h
    exact members_astray (key_behind ht first) d
  | @field d d₁ d₂ f v ms hnew hread hcut _ ih =>
    have hs : membersText first (writeMember f.name v :: ms) =
        (lead first ++ quoteText f.name) ++ ([58] ++ (v ++ membersText false ms)) := by
      simp [membersText, writeMember]
    rw [hs] at h
    rcases h.append with hkey | ⟨q₁, rfl, h₁⟩
    · exact members_astray (key_cut ht hkey) d
    rw [List.append_assoc, members_next (key_written first f.name _)]
    rcases h₁.append with hcolon | ⟨q₂, rfl, h₂⟩
    · obtain rfl := cut_singleton hcolon
      obtain ⟨e, he, hend⟩ := colon_behind ht
      rw [List.nil_append, member, Field.ofName?_name, he]
      simp only [hnew, Bool.false_eq_true, if_false]
      exact ⟨_, rfl, fun h => isEnd_malformed (hend h)⟩
    rw [List.append_assoc, List.singleton_append, member_field hnew]
    rcases h₂.append with hvalue | ⟨q₃, rfl, h₃⟩
    · rcases hcut _ t ht hl hvalue with ⟨e, he, hend⟩ | ⟨hne, d', r, he, hr⟩
      · rw [he]
        exact ⟨e, rfl, hend⟩
      · rw [he]
        exact .of_ne_nil hne (members_stray hr d')
    · rw [List.append_assoc, hread]
      exact ih h₃

/-! ## The fields of a message -/

def idText : Option String → List Bytes
  | none => []
  | some t => [writeMember "id" (quoteText t)]

def dataText (data : Bytes) : List Bytes :=
  if data = [] then [] else [writeMember "data" (quoteBytes (Base64.encode data))]

def attributesText (es : List (String × String)) : List Bytes :=
  if es = [] then [] else [writeMember "attributes" (labelsText es)]

/-- The members of a message's record. -/
def fieldTexts (es : List (String × String)) (m : Message) : List Bytes :=
  idText m.id ++ dataText m.data ++ attributesText es

theorem encodeWith_eq (es : List (String × String)) (m : Message) :
    encodeWith es m = writeObject (fieldTexts es m) := by
  rw [encodeWith, fieldTexts]
  cases m.id <;> rfl

theorem Fills.append {d d₁ d₂ : Draft} {ms ns : List Bytes} (h₁ : Fills d ms d₁)
    (h₂ : Fills d₁ ns d₂) : Fills d (ms ++ ns) d₂ := by
  induction h₁ with
  | done d => exact h₂
  | field hnew hread hcut _ ih => exact .field hnew hread hcut (ih h₂)

theorem Fills.one {d d' : Draft} {f : Field} {v : Bytes} (hnew : d.has f = false)
    (hread : ∀ r, Record.field f d (v ++ r) = .ok (d', r))
    (hcut : ∀ p t, Behind t → Astray Flaw.isEnd t (labels t) → Cut p v →
      Astray Flaw.isEnd t (Record.field f d (p ++ t))) :
    Fills d [writeMember f.name v] d' :=
  .field hnew hread hcut (.done d')

theorem fills_id (x : Option String) :
    ∃ d, Fills .empty (idText x) d ∧ d.id.getD none = x ∧ d.data = none ∧ d.attributes = none := by
  cases x with
  | none => exact ⟨_, .done _, rfl, rfl, rfl⟩
  | some s =>
    refine ⟨⟨some (some s), none, none⟩, .one (f := .id) rfl (fun r => ?_) fun p t ht _ h => ?_,
      rfl, rfl, rfl⟩
    · rw [field, optionalText_quoted]
      rfl
    · have := (optionalText_quoted_cut ht h).map fun x => (⟨some x, none, none⟩ : Draft)
      rw [field]
      cases hx : optionalText (p ++ t) <;> rw [hx] at this <;> exact this

theorem fills_data {d : Draft} (h : d.data = none) (bs : Bytes) :
    ∃ d', Fills d (dataText bs) d' ∧ d'.data.getD [] = bs ∧ d'.id = d.id ∧
      d'.attributes = d.attributes := by
  by_cases hb : bs = []
  · subst hb
    exact ⟨d, .done _, by rw [h]; rfl, rfl, rfl⟩
  · refine ⟨⟨d.id, some bs, d.attributes⟩, ?_, rfl, rfl, rfl⟩
    rw [dataText, if_neg hb]
    refine .one (f := .data) (by simp [Draft.has, h]) (fun r => ?_) fun p t ht _ hp => ?_
    · rw [field, payload_written]
    · have := (payload_cut ht hp).map fun x => (⟨d.id, some x, d.attributes⟩ : Draft)
      rw [field]
      cases hx : payload (p ++ t) <;> rw [hx] at this <;> exact this

theorem fills_attributes {d : Draft} (h : d.attributes = none) (es : List (String × String)) :
    ∃ d', Fills d (attributesText es) d' ∧
      d'.attributes.getD NameMap.empty = NameMap.ofList es ∧ d'.id = d.id ∧ d'.data = d.data := by
  by_cases he : es = []
  · subst he
    exact ⟨d, .done _, by rw [h]; rfl, rfl, rfl⟩
  · refine ⟨⟨d.id, d.data, some (NameMap.ofList es)⟩, ?_, rfl, rfl, rfl⟩
    rw [attributesText, if_neg he]
    refine .one (f := .attributes) (by simp [Draft.has, h]) (fun r => ?_) fun p t ht hl hp => ?_
    · rw [field, labels_written]
      rfl
    · have := (labels_cut ht hl hp).map fun x => (⟨d.id, d.data, some x⟩ : Draft)
      rw [field]
      cases hx : labels (p ++ t) <;> rw [hx] at this <;> exact this

/-- The record of a message fills a draft of the message. -/
theorem fills_message (es : List (String × String)) (m : Message) :
    ∃ d, Fills .empty (fieldTexts es m) d ∧ d.message = ⟨m.id, m.data, NameMap.ofList es⟩ := by
  obtain ⟨d₁, h₁, hid, hdata, hattr⟩ := fills_id m.id
  obtain ⟨d₂, h₂, hdata₂, hid₂, hattr₂⟩ := fills_data hdata m.data
  obtain ⟨d₃, h₃, hattr₃, hid₃, hdata₃⟩ := fills_attributes (hattr₂.trans hattr) es
  refine ⟨d₃, (h₁.append h₂).append h₃, ?_⟩
  rw [Draft.message, hattr₃, hid₃, hid₂, hid, hdata₃, hdata₂]

/-! ## Whole records -/

/-- The labels of a message in the order in which they are written. -/
structure Written where
  message : Message
  labels : List (String × String)
  perm : labels.Perm message.attributes.entries

namespace Written

/-- A message with its labels in their own order. -/
def sorted (m : Message) : Written := ⟨m, m.attributes.entries, .refl _⟩

def bytes (x : Written) : Bytes := encodeWith x.labels x.message

def line (x : Written) : Bytes := x.bytes ++ [10]

theorem bytes_eq (x : Written) :
    x.bytes = 123 :: membersText true (fieldTexts x.labels x.message) := by
  rw [bytes, encodeWith_eq, writeObject_eq]

end Written

theorem read_written (x : Written) (r : Bytes) : read (x.bytes ++ r) = .ok (x.message, r) := by
  obtain ⟨d, hf, hm⟩ := fills_message x.labels x.message
  rw [x.bytes_eq, List.cons_append, read, skipSpace_cons (by decide)]
  simp only [if_true, members_written hf]
  rw [hm, NameMap.ofList_perm x.perm]
  rfl

theorem settleInObject_cause (e : Failure Flaw) : (settleInObject e).cause = e.cause := by
  rw [settleInObject]
  split
  · split
    · split <;> rfl
    · rfl
  · rfl

theorem read_cut {t : Bytes} (ht : Behind t) (hl : Astray Flaw.isEnd t (labels t)) {x : Written}
    {p : Bytes} (h : Cut p x.bytes) (hne : p ≠ []) : Fails Flaw.isEnd t (read (p ++ t)) := by
  obtain ⟨d, hf, -⟩ := fills_message x.labels x.message
  rw [x.bytes_eq] at h
  obtain rfl | ⟨q, rfl, hq⟩ := h.cons
  · exact absurd rfl hne
  · obtain ⟨e, he, hend⟩ := members_cut ht hl hf hq
    rw [List.cons_append, read, skipSpace_cons (by decide)]
    simp only [if_true, he]
    exact ⟨_, rfl, fun h => by rw [settleInObject_cause]; exact hend h⟩

/-! ## The line behind a cut -/

/-- Read as labels, the members of a record are texts, or one of them is an object and fails. -/
private theorem labelMembers_texts {ms : List Bytes}
    (h : ∀ m ∈ ms, ∃ k v, m = writeMember k v ∧ ((∃ s, v = quoteText s) ∨ ∃ u, v = 123 :: u))
    (first : Bool) (a : Attributes) (r : Bytes) :
    (∃ e, labelMembers first a (membersText first ms ++ r) = .error e) ∨
      ∃ a', labelMembers first a (membersText first ms ++ r) = .ok (a', 125 :: r) := by
  induction ms generalizing first a with
  | nil => exact .inr ⟨a, labelMembers_closed (key_closed first r)⟩
  | cons m ms ih =>
    obtain ⟨k, v, rfl, hv⟩ := h m List.mem_cons_self
    have hs : membersText first (writeMember k v :: ms) ++ r =
        lead first ++ quoteText k ++ (58 :: (v ++ (membersText false ms ++ r))) := by
      simp [membersText, writeMember]
    rw [hs, labelMembers_next (key_written first k _), colon_written]
    rcases hv with ⟨s, rfl⟩ | ⟨u, rfl⟩
    · simp only [text_quoted]
      exact ih (fun m hm => h m (List.mem_cons_of_mem _ hm)) false _
    · have ht : ∃ e, text (123 :: u ++ (membersText false ms ++ r)) = .error e := by
        rw [List.cons_append, text, skipSpace_cons (by decide)]
        exact mismatch_error _ .text 123 _
      obtain ⟨e, he⟩ := ht
      simp only [he]
      exact .inl ⟨e, rfl⟩

theorem fieldTexts_mem {es : List (String × String)} {m : Message} {x : Bytes}
    (h : x ∈ fieldTexts es m) :
    ∃ (f : Field) (v : Bytes), x = writeMember f.name v ∧
      ((∃ s, v = quoteText s) ∨ ∃ u, v = 123 :: u) := by
  simp only [fieldTexts, List.mem_append] at h
  rcases h with (h | h) | h
  · cases hid : m.id with
    | none => simp [hid, idText] at h
    | some s =>
      simp only [hid, idText, List.mem_singleton] at h
      exact ⟨.id, _, h, .inl ⟨s, rfl⟩⟩
  · rw [dataText] at h
    split at h
    · simp at h
    · obtain ⟨s, hq, -⟩ := quoteBytes_base64 m.data
      exact ⟨.data, _, List.mem_singleton.1 h, .inl ⟨s, hq⟩⟩
  · rw [attributesText] at h
    split at h
    · simp at h
    · exact ⟨.attributes, _, List.mem_singleton.1 h, .inr ⟨_, writeObject_eq _⟩⟩

/-- What the lines of records begin with: nothing or a brace. -/
def Lines (t : Bytes) : Prop := t = [] ∨ ∃ u, t = 123 :: u

theorem behind_line (x : Written) (rest : Bytes) : Behind (x.line ++ rest) := by
  rw [Written.line, x.bytes_eq]
  cases hf : fieldTexts x.labels x.message with
  | nil => exact .empty rest
  | cons m ms =>
    obtain ⟨f, v, rfl, -⟩ := fieldTexts_mem (hf ▸ List.mem_cons_self)
    cases f
    · exact .members 105 _ (.inr (.inr rfl))
    · exact .members 100 _ (.inr (.inl rfl))
    · exact .members 97 _ (.inl rfl)

theorem labels_line (x : Written) {rest : Bytes} (h : Lines rest) :
    Astray Flaw.isEnd (x.line ++ rest) (labels (x.line ++ rest)) := by
  have hne : x.line ++ rest ≠ [] := by simp [Written.line]
  have hm : ∀ m ∈ fieldTexts x.labels x.message,
      ∃ k v, m = writeMember k v ∧ ((∃ s, v = quoteText s) ∨ ∃ u, v = 123 :: u) := by
    intro m hm
    obtain ⟨f, v, hx⟩ := fieldTexts_mem hm
    exact ⟨f.name, v, hx⟩
  have hs : Stray (10 :: rest) := by
    intro b u hb
    rw [Json.skipSpace, List.dropWhile_cons_of_pos (by decide)] at hb
    rcases h with rfl | ⟨v, rfl⟩
    · simp at hb
    · rw [List.dropWhile_cons_of_neg (by decide)] at hb
      cases hb
      decide
  have ht : x.line ++ rest =
      123 :: (membersText true (fieldTexts x.labels x.message) ++ 10 :: rest) := by
    rw [Written.line, x.bytes_eq, List.append_assoc]
    rfl
  rcases labelMembers_texts hm true NameMap.empty (10 :: rest) with ⟨e, he⟩ | ⟨a, ha⟩
  · refine .inl (.of_ne_nil hne ⟨e, ?_⟩)
    rw [ht, labels, skipSpace_cons (by decide)]
    simp only [if_true, he]
  · refine .inr ⟨hne, a, 10 :: rest, ?_, hs⟩
    rw [ht, labels, skipSpace_cons (by decide)]
    simp only [if_true, ha]
    rfl

end PubSub.Record
