import PubSub.Proofs.Record.Strings
import PubSub.Proofs.Text.Base64
import PubSub.Record.Decode

/-!
# Keys, texts, payloads and labels

What stands within an object is read back, and once it was cut reading goes astray: what comes next
is no comma, no colon and no brace.
-/

namespace PubSub.Record

open Json (Failure skipSpace)

/-- Whether a flaw is that the text ended. -/
def Flaw.isEnd (f : Flaw) : Bool := f.category = .ended

/-! ## Keys and colons -/

theorem Astray.malformed {α : Type} {t : Bytes} {x : Json.Scan α}
    (h : Astray Json.Flaw.isEnd t x) : Astray Flaw.isEnd t (malformed x) := by
  rcases h with ⟨e, rfl, hend⟩ | ⟨hne, a, r, rfl, hr⟩
  · refine .inl ⟨_, rfl, fun h => ?_⟩
    simp [Failure.map, Flaw.isEnd, Flaw.category, hend h]
  · exact .inr ⟨hne, a, r, rfl, hr⟩

/-- What stands before a member: a comma unless it is the first. -/
def lead (first : Bool) : Bytes := if first then [] else [44]

theorem key_written (first : Bool) (k : String) (r : Bytes) :
    key first (lead first ++ quoteText k ++ r) = .ok (some k, r) := by
  have hs : keyStart first (lead first ++ quoteText k ++ r) =
      .ok (true, (Utf8.ofText k).flatMap escapeByte ++ 34 :: r) := by
    cases first <;>
      simp [keyStart, lead, quoteText, quoteBytes, skipSpace_cons (b := 44) (by decide),
        skipSpace_cons (b := 34) (by decide)]
  rw [key, hs]
  simp only [text_written, malformed]

theorem key_closed (first : Bool) (r : Bytes) : key first (125 :: r) = .ok (none, 125 :: r) := by
  simp [key, keyStart, skipSpace_cons (b := 125) (by decide)]

theorem keyStart_false {first : Bool} {s r : Bytes}
    (h : keyStart first s = .ok (false, r)) : ∃ u, r = 125 :: u := by
  unfold keyStart at h
  split at h
  · simp [Json.fail] at h
  · next b u _ =>
    split at h
    · next hb =>
      simp only [Except.ok.injEq, Prod.mk.injEq, true_and] at h
      exact ⟨u, by rw [← h, hb]⟩
    · grind [Json.fail]

/-- The members of an object end with its brace only. -/
theorem key_some_of_stray {first : Bool} {s r : Bytes} {k : Option String}
    (h : key first s = .ok (k, r)) (hr : Stray r) : ∃ k', k = some k' := by
  unfold key at h
  split at h
  · simp at h
  · next r' hs =>
    obtain ⟨u, rfl⟩ := keyStart_false hs
    simp only [Except.ok.injEq, Prod.mk.injEq] at h
    obtain ⟨-, rfl⟩ := h
    exact absurd rfl (hr 125 u (skipSpace_cons (by decide) u)).2.2
  · split at h
    · simp at h
    · next k' r' hk =>
      simp only [Except.ok.injEq, Prod.mk.injEq] at h
      exact ⟨k', h.1.symm⟩

theorem key_stray {r : Bytes} (h : Stray r) : ∃ e, key false r = .error e := by
  rw [key, keyStart]
  cases hs : skipSpace r with
  | nil => exact ⟨_, rfl⟩
  | cons b u =>
    obtain ⟨-, hcomma, hbrace⟩ := h b u hs
    simp [hcomma, hbrace, Json.fail]

theorem key_behind {t : Bytes} (ht : Behind t) (first : Bool) :
    Astray Flaw.isEnd t (key first t) := by
  rcases ht.eq_nil_or_brace with rfl | ⟨u, rfl⟩
  · exact .inl ⟨_, rfl, fun _ => rfl⟩
  · rw [key, keyStart, skipSpace_cons (by decide)]
    cases first <;> exact .inl ⟨_, rfl, fun h => by simp at h⟩

/-- A key that was cut after its opening quote. -/
private theorem key_cutText {t p : Bytes} (ht : Behind t) {first : Bool} {k : String}
    (h : Cut p ((Utf8.ofText k).flatMap escapeByte ++ [34])) :
    Astray Flaw.isEnd t (key first (lead first ++ 34 :: p ++ t)) := by
  have hs : keyStart first (lead first ++ 34 :: p ++ t) = .ok (true, p ++ t) := by
    cases first <;>
      simp [keyStart, lead, skipSpace_cons (b := 44) (by decide),
        skipSpace_cons (b := 34) (by decide)]
  rw [key, hs]
  rcases (text_cut ht h).malformed with ⟨e, he, hend⟩ | ⟨hne, a, r, he, hr⟩
  · dsimp only
    rw [he]
    exact .inl ⟨e, rfl, hend⟩
  · dsimp only
    rw [he]
    exact .inr ⟨hne, _, r, rfl, hr⟩

private theorem key_comma {t : Bytes} (ht : Behind t) :
    Astray Flaw.isEnd t (key false (44 :: t)) := by
  rw [key, keyStart, skipSpace_cons (by decide)]
  rcases ht.eq_nil_or_brace with rfl | ⟨u, rfl⟩
  · exact .inl ⟨_, rfl, fun _ => rfl⟩
  · simp only [skipSpace_cons (b := 123) (by decide)]
    exact .inl ⟨_, rfl, fun h => by simp at h⟩

theorem key_cut {t p : Bytes} (ht : Behind t) {first : Bool} {k : String}
    (h : Cut p (lead first ++ quoteText k)) : Astray Flaw.isEnd t (key first (p ++ t)) := by
  rcases h.append with hlead | ⟨q, rfl, hquote⟩
  · cases first with
    | true => exact absurd hlead not_cut_nil
    | false =>
      obtain rfl := cut_singleton hlead
      exact key_behind ht false
  · obtain rfl | ⟨q, rfl, hq⟩ := hquote.cons
    · cases first with
      | true => exact key_behind ht true
      | false => exact key_comma ht
    · exact key_cutText ht hq

theorem colon_written (r : Bytes) : Json.colon (58 :: r) = .ok r := by
  rw [Json.colon, skipSpace_cons (by decide)]
  rfl

theorem colon_stray {r : Bytes} (h : Stray r) : ∃ e, Json.colon r = .error e := by
  rw [Json.colon]
  cases hs : skipSpace r with
  | nil => exact ⟨_, rfl⟩
  | cons b u => simp [(h b u hs).1, Json.fail]

theorem colon_behind {t : Bytes} (ht : Behind t) : Fails Json.Flaw.isEnd t (Json.colon t) := by
  rcases ht.eq_nil_or_brace with rfl | ⟨u, rfl⟩
  · exact ⟨_, rfl, fun _ => rfl⟩
  · rw [Json.colon, skipSpace_cons (by decide)]
    exact ⟨_, rfl, fun h => by simp at h⟩

/-! ## Texts as values -/

theorem text_quoted (s : String) (r : Bytes) : text (quoteText s ++ r) = .ok (s, r) := by
  have h : quoteText s ++ r = 34 :: ((Utf8.ofText s).flatMap escapeByte ++ 34 :: r) := by
    simp [quoteText, quoteBytes]
  rw [h, text, skipSpace_cons (by decide)]
  simp [text_written, malformed]

theorem mismatch_error (α : Type) (wanted : Wanted) (b : UInt8) (s : Bytes) :
    ∃ e, (mismatch wanted b s : Except (Failure Flaw) α) = .error e := by
  cases h : (mismatch wanted b s : Except (Failure Flaw) α) with
  | error e => exact ⟨e, rfl⟩
  | ok a => exact absurd h mismatch_ne_ok

theorem text_behind {t : Bytes} (ht : Behind t) : Astray Flaw.isEnd t (text t) := by
  rcases ht.eq_nil_or_brace with rfl | ⟨u, rfl⟩
  · exact .inl ⟨_, rfl, fun _ => rfl⟩
  · rw [text, skipSpace_cons (by decide)]
    obtain ⟨e, he⟩ := mismatch_error (String × Bytes) .text 123 u
    exact .inl ⟨e, he, fun h => by simp at h⟩

theorem text_quoted_cut {t p : Bytes} (ht : Behind t) {s : String} (h : Cut p (quoteText s)) :
    Astray Flaw.isEnd t (text (p ++ t)) := by
  obtain rfl | ⟨q, rfl, hq⟩ := h.cons
  · exact text_behind ht
  · rw [List.cons_append, text, skipSpace_cons (by decide)]
    exact (text_cut ht hq).malformed

theorem Astray.map {κ α β : Type} {isEnd : κ → Bool} {t : Bytes}
    {x : Except (Failure κ) (α × Bytes)} (h : Astray isEnd t x) (f : α → β) :
    Astray isEnd t (x.map fun p => (f p.1, p.2)) := by
  rcases h with ⟨e, rfl, hend⟩ | ⟨hne, a, r, rfl, hr⟩
  · exact .inl ⟨e, rfl, hend⟩
  · exact .inr ⟨hne, f a, r, rfl, hr⟩

theorem optionalText_eq {s : Bytes} (h : (skipSpace s).head? ≠ some 110) :
    optionalText s = (text s).map fun p => (some p.1, p.2) := by
  rw [optionalText]
  split
  · cases text s <;> rfl
  · next b r hs =>
    rw [if_neg (by simpa [hs] using h)]
    cases text s <;> rfl

theorem optionalText_quoted (s : String) (r : Bytes) :
    optionalText (quoteText s ++ r) = .ok (some s, r) := by
  have h : skipSpace (quoteText s ++ r) = quoteText s ++ r := skipSpace_cons (by decide) _
  rw [optionalText_eq (by rw [h]; simp [quoteText, quoteBytes]), text_quoted]
  rfl

theorem optionalText_quoted_cut {t p : Bytes} (ht : Behind t) {s : String}
    (h : Cut p (quoteText s)) : Astray Flaw.isEnd t (optionalText (p ++ t)) := by
  have hn : (skipSpace (p ++ t)).head? ≠ some 110 := by
    obtain rfl | ⟨q, rfl, -⟩ := h.cons
    · rcases ht.eq_nil_or_brace with rfl | ⟨u, rfl⟩
      · simp [skipSpace]
      · rw [List.nil_append, skipSpace_cons (by decide)]
        simp
    · rw [List.cons_append, skipSpace_cons (by decide)]
      simp
  rw [optionalText_eq hn]
  exact (text_quoted_cut ht h).map some

/-! ## Payloads -/

/-- The bytes of a payload's text are ASCII, so they are the bytes of a text. -/
theorem quoteBytes_base64 (bs : Bytes) :
    ∃ s, quoteBytes (Base64.encode bs) = quoteText s ∧ Utf8.ofText s = Base64.encode bs := by
  have h := Utf8.ofText_ascii (Base64.encode bs) (Base64.encode_lt bs)
  exact ⟨_, by rw [quoteText, h], h⟩

theorem payload_written (bs r : Bytes) :
    payload (quoteBytes (Base64.encode bs) ++ r) = .ok (bs, r) := by
  obtain ⟨s, hq, hs⟩ := quoteBytes_base64 bs
  rw [hq, payload, optionalText_quoted]
  simp only [hs, Base64.decode_encode]

theorem payload_cut {t p bs : Bytes} (ht : Behind t) (h : Cut p (quoteBytes (Base64.encode bs))) :
    Astray Flaw.isEnd t (payload (p ++ t)) := by
  obtain ⟨s, hq, -⟩ := quoteBytes_base64 bs
  rw [hq] at h
  rw [payload]
  rcases optionalText_quoted_cut ht h with ⟨e, he, hend⟩ | ⟨hne, a, r, he, hr⟩
  · rw [he]
    exact .inl ⟨e, rfl, hend⟩
  · rw [he]
    cases a with
    | none => exact .inr ⟨hne, [], r, rfl, hr⟩
    | some x =>
      dsimp only
      cases Base64.decode (Utf8.ofText x) with
      | ok bs => exact .inr ⟨hne, bs, r, rfl, hr⟩
      | error flaw => exact .inl ⟨_, rfl, fun h => absurd h hne⟩

/-! ## Objects -/

/-- The members of an object, up to its closing brace. -/
def membersText : (first : Bool) → List Bytes → Bytes
  | _, [] => [125]
  | first, m :: ms => lead first ++ m ++ membersText false ms

theorem writeObject_eq (ms : List Bytes) : writeObject ms = 123 :: membersText true ms := by
  have h : ∀ m ms,
      (List.intersperse [44] (m :: ms)).flatten ++ [125] = m ++ membersText false ms := by
    intro m ms
    induction ms generalizing m with
    | nil => simp [membersText]
    | cons n ms ih =>
      rw [List.intersperse_cons_cons, List.flatten_cons, List.flatten_cons, List.append_assoc,
        List.append_assoc, ih n]
      simp [membersText, lead]
  cases ms with
  | nil => rfl
  | cons m ms =>
    rw [writeObject, h]
    simp [membersText, lead]

/-- A label is written as a member with a text. -/
def labelText (e : String × String) : Bytes := writeMember e.1 (quoteText e.2)

theorem labelMembers_closed {first : Bool} {a : Attributes} {s r : Bytes}
    (h : key first s = .ok (none, r)) : labelMembers first a s = .ok (a, r) := by
  rw [labelMembers]
  split
  · next e he => simp [he] at h
  · next r' hr =>
    rw [hr] at h
    cases h
    rfl
  · next k r' hr => simp [hr] at h

theorem labelMembers_error {first : Bool} {a : Attributes} {s : Bytes} {e : Failure Flaw}
    (h : key first s = .error e) : labelMembers first a s = .error e := by
  rw [labelMembers]
  split
  · next e' he =>
    rw [he] at h
    cases h
    rfl
  · next r' hr => simp [hr] at h
  · next k r' hr => simp [hr] at h

theorem labelMembers_next {first : Bool} {a : Attributes} {s r : Bytes} {k : String}
    (h : key first s = .ok (some k, r)) :
    labelMembers first a s =
      match Json.colon r with
      | .error e => .error (e.map .malformed)
      | .ok r =>
        match text r with
        | .error e => .error e
        | .ok (v, r) => labelMembers false (a.insert k v) r := by
  rw [labelMembers]
  split
  · next e he => simp [he] at h
  · next r' hr => simp [hr] at h
  · next k' r' hr =>
    rw [hr] at h
    cases h
    split
    · next e he => rw [he]
    · next r'' hc =>
      rw [hc]
      dsimp only
      split
      · next e he => rw [he]
      · next v r'' ht => rw [ht]

theorem labelMembers_written (es : List (String × String)) (first : Bool) (a : Attributes)
    (r : Bytes) :
    labelMembers first a (membersText first (es.map labelText) ++ r) =
      .ok (es.foldl (fun a e => a.insert e.1 e.2) a, 125 :: r) := by
  induction es generalizing first a with
  | nil => exact labelMembers_closed (key_closed first r)
  | cons e es ih =>
    have hs : membersText first ((e :: es).map labelText) ++ r =
        lead first ++ quoteText e.1 ++
          (58 :: (quoteText e.2 ++ (membersText false (es.map labelText) ++ r))) := by
      simp [membersText, labelText, writeMember]
    rw [hs, labelMembers_next (key_written first e.1 _)]
    simp only [colon_written, text_quoted, ih, List.foldl_cons]

theorem isEnd_malformed {f : Json.Flaw} (h : f.isEnd = true) :
    Flaw.isEnd (.malformed f) = true := by
  simp [Flaw.isEnd, Flaw.category, h]

private theorem labelMembers_stray {r : Bytes} (h : Stray r) (a : Attributes) :
    ∃ e, labelMembers false a r = .error e := by
  obtain ⟨e, he⟩ := key_stray h
  exact ⟨e, labelMembers_error he⟩

/-- After a key that went astray there is no colon. -/
private theorem labelMembers_astray {t s : Bytes} {first : Bool}
    (hk : Astray Flaw.isEnd t (key first s)) (a : Attributes) :
    Fails Flaw.isEnd t (labelMembers first a s) := by
  rcases hk with ⟨e, he, hend⟩ | ⟨hne, k, r, he, hr⟩
  · exact ⟨e, labelMembers_error he, hend⟩
  · obtain ⟨k, rfl⟩ := key_some_of_stray he hr
    obtain ⟨e, hc⟩ := colon_stray hr
    rw [labelMembers_next he, hc]
    exact .of_ne_nil hne ⟨_, rfl⟩

theorem labelMembers_cut {t : Bytes} (ht : Behind t) {es : List (String × String)} {first : Bool}
    {p : Bytes} (h : Cut p (membersText first (es.map labelText))) (a : Attributes) :
    Fails Flaw.isEnd t (labelMembers first a (p ++ t)) := by
  induction es generalizing first a p with
  | nil =>
    obtain rfl := cut_singleton h
    exact labelMembers_astray (key_behind ht first) a
  | cons e es ih =>
    have hs : membersText first ((e :: es).map labelText) =
        (lead first ++ quoteText e.1) ++
          ([58] ++ (quoteText e.2 ++ membersText false (es.map labelText))) := by
      simp [membersText, labelText, writeMember]
    rw [hs] at h
    rcases h.append with hkey | ⟨q₁, rfl, h₁⟩
    · exact labelMembers_astray (key_cut ht hkey) a
    rw [List.append_assoc, labelMembers_next (key_written first e.1 _)]
    rcases h₁.append with hcolon | ⟨q₂, rfl, h₂⟩
    · obtain rfl := cut_singleton hcolon
      obtain ⟨e, he, hend⟩ := colon_behind ht
      rw [List.nil_append, he]
      exact ⟨_, rfl, fun h => isEnd_malformed (hend h)⟩
    rw [List.append_assoc, List.singleton_append, colon_written]
    dsimp only
    rcases h₂.append with hvalue | ⟨q₃, rfl, h₃⟩
    · rcases text_quoted_cut ht hvalue with ⟨e, he, hend⟩ | ⟨hne, v, r, he, hr⟩
      · rw [he]
        exact ⟨e, rfl, hend⟩
      · rw [he]
        exact .of_ne_nil hne (labelMembers_stray hr _)
    · rw [List.append_assoc, text_quoted]
      exact ih h₃ _

/-- The object of labels, in the order of a list. -/
def labelsText (es : List (String × String)) : Bytes := writeObject (es.map labelText)

theorem labels_written (es : List (String × String)) (r : Bytes) :
    labels (labelsText es ++ r) =
      .ok (es.foldl (fun a e => a.insert e.1 e.2) NameMap.empty, r) := by
  rw [labelsText, writeObject_eq, List.cons_append, labels, skipSpace_cons (by decide)]
  simp [labelMembers_written]

theorem labels_cut {t : Bytes} (ht : Behind t) (hl : Astray Flaw.isEnd t (labels t))
    {es : List (String × String)} {p : Bytes} (h : Cut p (labelsText es)) :
    Astray Flaw.isEnd t (labels (p ++ t)) := by
  rw [labelsText, writeObject_eq] at h
  obtain rfl | ⟨q, rfl, hq⟩ := h.cons
  · exact hl
  · obtain ⟨e, he, hend⟩ := labelMembers_cut ht hq NameMap.empty
    rw [List.cons_append, labels, skipSpace_cons (by decide)]
    simp only [if_true, he]
    exact .inl ⟨e, rfl, hend⟩

end PubSub.Record
