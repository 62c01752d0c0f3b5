import PubSub.Proofs.Json.Growing
import PubSub.Proofs.Record.Log

/-!
# Logs that grow

What was read of a log stays when bytes are appended. An error that is not the end of the text stays
too, unless it is a number that lacks a digit: within a value that is passed over such a number is
no end of the text, although a digit completes it.
-/

namespace PubSub.Json.Outlook

open Record (malformed)

variable {α β : Type} {bare : Prop} {next : Bytes → Prop} {put : α → Bytes → β} {s : Bytes}

instance : EndFlaws Record.Flaw := ⟨Record.Flaw.isEnd, .malformed .invalidNumber⟩

theorem alike_malformed (c : Flaw) : Alike c (Record.Flaw.malformed c) where
  isEnd := Record.isEnd_malformed
  lacksDigit := congrArg Record.Flaw.malformed

theorem scanned {f : Bytes → Except (Failure Flaw) β} (h : Outlook bare next put f s) :
    Outlook bare next put (fun t => malformed (f t)) s := by
  cases h with
  | read a r h => exact .read a r fun t => by rw [h t]; rfl
  | refused h =>
    refine .refused fun t => ?_
    obtain ⟨e, he⟩ := h t
    exact ⟨_, by rw [he]; rfl⟩
  | ended e h hend => exact .ended _ (by rw [h]; rfl) (Record.isEnd_malformed hend)
  | used hbare a h => exact .used hbare a (by rw [h]; rfl)
  | lacking e h hcause k a hk hnext hgoes =>
    exact .lacking _ (by rw [h]; rfl) (congrArg Record.Flaw.malformed hcause) k a hk hnext
      fun t ht => by rw [hgoes t ht]; rfl

end PubSub.Json.Outlook

namespace PubSub.Record

open Json (Closing Failure Firm Loose Outlook Position closing_nil onlyRest skipSpace
  skipSpace_append stops_cons)

/-! ## Texts -/

theorem mismatch_firm {α : Type} (wanted : Wanted) (b : UInt8) (s : Bytes) :
    Firm (Prod.mk : α → Bytes → α × Bytes) (mismatch wanted b) s :=
  .failed (mismatch_error _ wanted b)

theorem text_firm (s : Bytes) : Firm Prod.mk text s := by
  refine .mark (fun t h => ⟨_, by rw [text, h]; rfl, rfl⟩) (fun t b r h => by rw [text, h])
    fun b r _ => ?_
  exact .choose (fun _ => (Json.text_firm r).scanned) fun _ => mismatch_firm .text b r

theorem optionalText_mark {s r : Bytes} {b : UInt8} (h : skipSpace s = b :: r) :
    optionalText s =
      if b = 110 then
        match malformed (Json.literal [117, 108, 108] r) with
        | .error e => .error e
        | .ok r => .ok (none, r)
      else
        match if b = 34 then malformed (Json.text r) else mismatch .text b r with
        | .error e => .error e
        | .ok (t, r) => .ok (some t, r) := by
  simp only [optionalText, text, h]
  rfl

theorem optionalText_firm (s : Bytes) : Firm Prod.mk optionalText s := by
  refine .mark (fun t h => ⟨_, by rw [optionalText, h]; simp only [text, h]; rfl, rfl⟩)
    (fun t b r h => optionalText_mark h) fun b r _ => ?_
  refine .choose (fun _ => ?_) fun _ => ?_
  · exact (Json.literal_firm [117, 108, 108] r).scanned.andThen (k := fun _ t => .ok (none, t))
      (fun t e h => by rw [h]) (fun t _ u h => by rw [h])
      fun _ u _ => .done Prod.mk none u
  · have hvalue : Firm Prod.mk
        (fun t => if b = 34 then malformed (Json.text t) else mismatch .text b t) r :=
      .choose (fun _ => (Json.text_firm r).scanned) fun _ => mismatch_firm .text b r
    exact hvalue.andThen (k := fun v t => .ok (some v, t)) (fun t e h => by rw [h])
      (fun t v u h => by rw [h]) fun v u _ => .done Prod.mk _ u

theorem payload_firm (s : Bytes) : Firm Prod.mk payload s := by
  refine (optionalText_firm s).andThen (fun t e h => by rw [payload, h])
    (fun t v r h => by rw [payload, h]) fun v r _ => ?_
  cases v with
  | none => exact .done Prod.mk [] r
  | some v =>
    dsimp only
    cases Base64.decode (Utf8.ofText v) with
    | ok bs => exact .done Prod.mk bs r
    | error flaw => exact .failed fun _ => ⟨_, rfl⟩

/-! ## Keys and labels -/

theorem keyStart_firm (first : Bool) (s : Bytes) : Firm Prod.mk (keyStart first) s := by
  refine .mark (fun t h => ⟨_, by rw [keyStart, h]; rfl, rfl⟩) (fun t b r h => by rw [keyStart, h])
    fun b r _ => ?_
  refine .choose (fun _ => .read false (b :: r) fun _ => rfl) fun _ => ?_
  refine .choose (fun _ => ?_) fun _ => .choose (fun _ => ?_) fun _ => .failed fun _ => ⟨_, rfl⟩
  · exact .choose (fun _ => .done Prod.mk true r) fun _ => .failed fun _ => ⟨_, rfl⟩
  · refine .mark (fun t h => ⟨_, by rw [h]; rfl, rfl⟩) (fun t c u h => by rw [h]) fun c u _ => ?_
    exact .choose (fun _ => .done Prod.mk true u) fun _ =>
      .choose (fun _ => .failed fun _ => ⟨_, rfl⟩) fun _ => .failed fun _ => ⟨_, rfl⟩

theorem key_firm (first : Bool) (s : Bytes) : Firm Prod.mk (key first) s := by
  refine (keyStart_firm first s).andThenBy (fun t e h => by rw [key, h]) fun more r _ => ?_
  cases more with
  | false => exact ⟨_, fun t u h => by rw [key, h], .done Prod.mk none r⟩
  | true =>
    refine ⟨_, fun t u h => by rw [key, h], ?_⟩
    exact (Json.text_firm r).scanned.andThen (k := fun k t => .ok (some k, t))
      (fun t e h => by simp only [h]) (fun t k u h => by simp only [h])
      fun k u _ => .done Prod.mk _ u

/-- An object ends with its brace. -/
theorem key_brace {first : Bool} {s r : Bytes} (h : key first s = .ok (none, r)) :
    ∃ u, r = 125 :: u := by
  unfold key at h
  split at h
  · cases h
  · next u hstart =>
    cases h
    exact keyStart_false hstart
  · split at h
    · cases h
    · cases h

theorem labelMembers_firm (first : Bool) (a : Attributes) (s : Bytes) :
    Firm Prod.mk (labelMembers first a) s := by
  induction hn : s.length using Nat.strongRecOn generalizing first a s with
  | ind n ih =>
    subst hn
    refine (key_firm first s).andThenBy (fun t e h => labelMembers_error h) fun k r hkey => ?_
    cases k with
    | none => exact ⟨_, fun t u h => labelMembers_closed h, .done Prod.mk a r⟩
    | some k =>
      refine ⟨_, fun t u h => labelMembers_next h, ?_⟩
      refine (Json.colon_firm r).bindFirm
        (fun t e h => ⟨e.map .malformed, by rw [h], Outlook.alike_malformed _⟩)
        (fun t _ u h => by rw [h]) fun _ u hcolon => ?_
      refine (text_firm u).andThen (fun t e h => by simp only [h])
        (fun t v w h => by simp only [h]; rfl) fun v w htext => ih _ ?_ _ _ w rfl
      have before := (Json.colon_left hcolon).suffix.trans (key_suffix hkey)
      exact ((text_left htext).after before).shorter

theorem labelMembers_brace {first : Bool} {a a' : Attributes} {s r : Bytes}
    (h : labelMembers first a s = .ok (a', r)) : ∃ u, r = 125 :: u := by
  fun_induction labelMembers first a s with
  | case1 | case3 | case4 => cases h
  | case2 first a s t ends =>
    cases h
    exact key_brace ends
  | case5 first a s k t name u colon v w value ih => exact ih h

theorem labels_firm (s : Bytes) : Firm Prod.mk labels s := by
  refine .mark (fun t h => ⟨_, by rw [labels, h]; rfl, rfl⟩) (fun t b r h => by rw [labels, h])
    fun b r _ => ?_
  refine .choose (fun _ => ?_) fun _ => mismatch_firm .labels b r
  refine (labelMembers_firm true _ r).andThen (k := fun a t => .ok (a, t.drop 1))
    (fun t e h => by rw [h]) (fun t a u h => by rw [h]) fun a u h => ?_
  obtain ⟨v, rfl⟩ := labelMembers_brace h
  exact .read a v fun _ => rfl

/-! ## Fields and members -/

theorem field_firm (f : Field) (d : Draft) (s : Bytes) : Firm Prod.mk (field f d) s := by
  cases f with
  | id =>
    exact (optionalText_firm s).andThen (k := fun v t => .ok (⟨some v, d.data, d.attributes⟩, t))
      (fun t e h => by rw [field, h]) (fun t v u h => by rw [field, h])
      fun v u _ => .done Prod.mk _ u
  | data =>
    exact (payload_firm s).andThen (k := fun bs t => .ok (⟨d.id, some bs, d.attributes⟩, t))
      (fun t e h => by rw [field, h]) (fun t bs u h => by rw [field, h])
      fun bs u _ => .done Prod.mk _ u
  | attributes =>
    exact (labels_firm s).andThen (k := fun a t => .ok (⟨d.id, d.data, some a⟩, t))
      (fun t e h => by rw [field, h]) (fun t a u h => by rw [field, h])
      fun a u _ => .done Prod.mk _ u

theorem member_loose (k : String) (d : Draft) (s : Bytes) : Loose Prod.mk (member k d) s := by
  unfold member
  cases Field.ofName? k with
  | none =>
    refine (Json.colon_firm s).bindFirm
      (fun t e h => ⟨e.map .malformed, by rw [h], Outlook.alike_malformed _⟩)
      (fun t _ u h => by rw [h]) fun _ u _ => ?_
    exact (Json.skipValue_loose u).scanned.andLast (k := fun _ t => .ok (d, t))
      (fun t e h => by rw [h]) (fun t _ v h => by rw [h])
      (fun _ v _ => .done Prod.mk d v) fun _ => ⟨d, fun _ _ => rfl⟩
  | some f =>
    refine .choose (fun _ => .failed fun _ => ⟨_, rfl⟩) fun _ => Outlook.of_firm ?_
    exact (Json.colon_firm s).bindFirm
      (fun t e h => ⟨e.map .malformed, by rw [h], Outlook.alike_malformed _⟩)
      (fun t _ u h => by rw [h]) fun _ u _ => field_firm f d u

theorem members_brace {first : Bool} {d d' : Draft} {s r : Bytes}
    (h : members first d s = .ok (d', r)) : ∃ u, r = 125 :: u := by
  fun_induction members first d s with
  | case1 | case3 => cases h
  | case2 first d s t ends =>
    cases h
    exact key_brace ends
  | case4 first d s k t name d u read ih => exact ih h

/-- What comes after the members of an object. -/
def Braced (t : Bytes) : Prop := ∃ u, t = 125 :: u

theorem members_outlook (first : Bool) (d : Draft) (s : Bytes) :
    Outlook False Braced Prod.mk (members first d) s := by
  induction hn : s.length using Nat.strongRecOn generalizing first d s with
  | ind n ih =>
    subst hn
    refine (key_firm first s).andThenBy (fun t e h => members_error h) fun k r hkey => ?_
    cases k with
    | none => exact ⟨_, fun t u h => members_closed h, .done Prod.mk d r⟩
    | some k =>
      refine ⟨_, fun t u h => members_next h, ?_⟩
      -- a number may be the last thing of a member, but its object still lacks the brace
      refine (member_loose k d r).bind (fun t e h => ⟨e, by rw [h], .refl _⟩)
        (fun t d u h => by rw [h]) (fun d u h => ih _ ?_ _ _ u rfl)
        (fun _ d => .inl ⟨_, members_error rfl, rfl⟩)
        fun _ d => ⟨[], d, closing_nil, ⟨[125], [], rfl⟩, ?_⟩
      · exact ((member_left h).after (key_suffix hkey)).shorter
      · rintro _ ⟨u, rfl⟩
        exact ⟨stops_cons (by decide) (by decide) (by decide) (by decide) u,
          members_closed (key_closed false u)⟩

/-! ## Lists -/

theorem elementStart_firm (first : Bool) (s : Bytes) : Firm Prod.mk (elementStart first) s := by
  refine .mark (fun t h => ⟨_, by rw [elementStart, h]; rfl, rfl⟩)
    (fun t b r h => by rw [elementStart, h]) fun b r _ => ?_
  refine .choose (fun _ => .read false (b :: r) fun _ => rfl) fun _ => ?_
  refine .choose (fun _ => .read true (b :: r) fun _ => rfl) fun _ => ?_
  refine .choose (fun _ => ?_) fun _ => .failed fun _ => ⟨_, rfl⟩
  refine .mark (fun t h => ⟨_, by rw [h]; rfl, rfl⟩) (fun t c u h => by rw [h]) fun c u _ => ?_
  exact .choose (fun _ => .failed fun _ => ⟨_, rfl⟩) fun _ => .read true (c :: u) fun _ => rfl

theorem elements_firm (first : Bool) (fs : List Field) (d : Draft) (s : Bytes) :
    Firm Prod.mk (elements first fs d) s := by
  induction fs generalizing first d s with
  | nil => exact .done Prod.mk d s
  | cons f fs ih =>
    refine (elementStart_firm first s).andThenBy (fun t e h => by rw [elements, h])
      fun more r _ => ?_
    cases more with
    | false => exact ⟨_, fun t u h => by rw [elements, h], .done Prod.mk d r⟩
    | true =>
      refine ⟨_, fun t u h => by rw [elements, h], ?_⟩
      exact (field_firm f d r).andThen (fun t e h => by simp only [h])
        (fun t d u h => by simp only [h]) fun d u _ => ih false d u

theorem endList_firm (s : Bytes) : Firm onlyRest endList s := by
  refine .mark (fun t h => ⟨_, by rw [endList, h]; rfl, rfl⟩) (fun t b r h => by rw [endList, h])
    fun b r _ => ?_
  refine .choose (fun _ => .done onlyRest () r) fun _ => .choose (fun _ => ?_) fun _ =>
    .failed fun _ => ⟨_, rfl⟩
  -- behind a comma every list is too long
  refine .failed fun t => ?_
  cases skipSpace t with
  | nil => exact ⟨_, rfl⟩
  | cons c u =>
    dsimp only
    split <;> exact ⟨_, rfl⟩

/-! ## Records -/

theorem settleInList_cause (e : Failure Flaw) : (settleInList e).cause = e.cause := by
  rw [settleInList]
  split
  · split
    · split
      · rfl
      · split <;> rfl
    · rfl
  · rfl

theorem read_outlook (s : Bytes) : Outlook False (fun _ => True) Prod.mk read s := by
  refine .mark (fun t h => ⟨_, by rw [read, h]; rfl, rfl⟩) (fun t b r h => by rw [read, h])
    fun b r _ => ?_
  refine .choose (fun _ => ?_) fun _ => Outlook.of_firm ?_
  · refine (members_outlook true .empty r).bind (k := fun d t => .ok (d.message, t.drop 1))
      (fun t e h => ⟨settleInObject e, by rw [h], ?_⟩) (fun t d u h => by rw [h])
      (fun d u h => ?_) False.elim
      fun _ d => ⟨[125], d.message, ?_, ⟨[], trivial⟩, fun t _ => ⟨⟨t, rfl⟩, rfl⟩⟩
    · rw [settleInObject_cause]
      exact .refl _
    · obtain ⟨v, rfl⟩ := members_brace h
      exact .read d.message v fun _ => rfl
    · intro b hb
      exact .inr (List.mem_singleton.1 hb)
  · refine .choose (fun _ => ?_) fun _ => mismatch_firm .record b r
    refine (elements_firm true _ .empty r).bindFirm
      (fun t e h => ⟨settleInList e, by rw [h], ?_⟩) (fun t d u h => by rw [h]) fun d u _ => ?_
    · rw [settleInList_cause]
      exact .refl _
    · exact (endList_firm u).andThen (k := fun _ t => .ok (d.message, t))
        (fun t e h => by simp only [h]) (fun t _ v h => by simp only [h])
        fun _ v _ => .done Prod.mk _ v

/-! ## Streams -/

/-- What comes next on the streams that begin with `s`: nothing yet, a record, an error whatever
follows, an error because `s` ends, or one because a number in it lacks a digit. -/
inductive Prospect (s : Bytes) : Prop
  | blank (h : skipSpace s = [])
  | record (m : Message) (r : Bytes) (hshort : r.length < s.length)
      (h : ∀ p t, ∃ q, readAll p (s ++ t) = (m :: (readAll q (r ++ t)).1, (readAll q (r ++ t)).2))
  | broken (h : ∀ p t, ∃ e, readAll p (s ++ t) = ([], some e))
  | cut (h : ∀ p, ∃ e, readAll p s = ([], some e) ∧ e.isEnd = true)
  | digit (h : ∀ p, ∃ e, readAll p s = ([], some e) ∧ e.flaw = .malformed .invalidNumber)
      (k : Bytes) (hk : Closing k) (hfull : ∀ p, (readAll p (s ++ 48 :: k)).2 = none)

theorem prospect (s : Bytes) : Prospect s := by
  cases hs : skipSpace s with
  | nil => exact .blank hs
  | cons b u =>
    have hmore := skipSpace_append hs
    cases read_outlook (b :: u) with
    | read m r h =>
      refine .record m r ?_ fun p t => readAll_read p (hmore t) (h t)
      have hread : read (b :: u) = .ok (m, r) := by simpa using h []
      exact ((read_left hread).after (hs ▸ Json.skipSpace_suffix s)).shorter
    | refused h =>
      refine .broken fun p t => ?_
      obtain ⟨e, he⟩ := h t
      obtain ⟨d, hd, -⟩ := readAll_broken p (hmore t) he
      exact ⟨d, hd⟩
    | ended e h hend =>
      refine .cut fun p => ?_
      obtain ⟨d, hd, hflaw⟩ := readAll_broken p hs h
      exact ⟨d, hd, by rw [DecodeError.isEnd, hflaw]; exact hend⟩
    | used hbare => exact hbare.elim
    | lacking e h hcause k m hk _ hgoes =>
      refine .digit (fun p => ?_) k hk fun p => ?_
      · obtain ⟨d, hd, hflaw⟩ := readAll_broken p hs h
        exact ⟨d, hd, hflaw.trans hcause⟩
      · have hread := hgoes [] trivial
        rw [List.append_nil] at hread
        obtain ⟨q, hq⟩ := readAll_read p (hmore (48 :: k)) hread
        rw [hq, readAll_finished q rfl]

/-- The messages of a stream stay when it goes on. -/
theorem readAll_prefix (p q : Position) (s t : Bytes) :
    (readAll p s).1 <+: (readAll q (s ++ t)).1 := by
  induction hn : s.length using Nat.strongRecOn generalizing p q s with
  | ind n ih =>
    subst hn
    cases prospect s with
    | blank h =>
      rw [readAll_finished p h]
      exact List.nil_prefix
    | record m r hshort h =>
      obtain ⟨p', hp⟩ := h p []
      obtain ⟨q', hq⟩ := h q t
      simp only [List.append_nil] at hp
      rw [hp, hq]
      exact List.cons_prefix_cons.2 ⟨rfl, ih r.length hshort p' q' r rfl⟩
    | broken h =>
      obtain ⟨e, he⟩ := h p []
      rw [List.append_nil] at he
      rw [he]
      exact List.nil_prefix
    | cut h | digit h =>
      obtain ⟨e, he, -⟩ := h p
      rw [he]
      exact List.nil_prefix

/-- An error that is not the end of the text stays too, or it is a number that lacks a digit. -/
theorem readAll_stays (p : Position) (s : Bytes) {e : DecodeError} (h : (readAll p s).2 = some e)
    (hend : e.isEnd = false) :
    (∀ q t, (readAll q (s ++ t)).1 = (readAll p s).1 ∧ (readAll q (s ++ t)).2 ≠ none) ∨
      e.flaw = .malformed .invalidNumber ∧
        ∃ k, Closing k ∧ ∀ q, (readAll q (s ++ 48 :: k)).2 = none := by
  induction hn : s.length using Nat.strongRecOn generalizing p s with
  | ind n ih =>
    subst hn
    cases prospect s with
    | blank hs =>
      rw [readAll_finished p hs] at h
      cases h
    | record m r hshort hr =>
      obtain ⟨p', hp⟩ := hr p []
      rw [List.append_nil, List.append_nil] at hp
      rw [hp] at h
      rcases ih r.length hshort p' r h rfl with hstays | ⟨hflaw, k, hk, hfull⟩
      · refine .inl fun q t => ?_
        obtain ⟨q', hq⟩ := hr q t
        obtain ⟨hsame, herror⟩ := hstays q' t
        rw [hp, hq, hsame]
        exact ⟨rfl, herror⟩
      · refine .inr ⟨hflaw, k, hk, fun q => ?_⟩
        obtain ⟨q', hq⟩ := hr q (48 :: k)
        rw [hq]
        exact hfull q'
    | broken hs =>
      obtain ⟨d, hd⟩ := hs p []
      rw [List.append_nil] at hd
      refine .inl fun q t => ?_
      obtain ⟨d', hd'⟩ := hs q t
      rw [hd, hd']
      exact ⟨rfl, Option.some_ne_none d'⟩
    | cut hs =>
      obtain ⟨d, hd, hended⟩ := hs p
      rw [hd] at h
      cases h
      rw [hended] at hend
      cases hend
    | digit hs k hk hfull =>
      obtain ⟨d, hd, hflaw⟩ := hs p
      rw [hd] at h
      cases h
      exact .inr ⟨hflaw, k, hk, hfull⟩

/-- A zero and closing brackets complete the content. -/
def LacksDigit (content : Bytes) : Prop :=
  ∃ k, Closing k ∧ (decodeAll (content ++ 48 :: k)).2 = none

theorem decodeAll_stays_iff {content : Bytes} {e : DecodeError}
    (h : (decodeAll content).2 = some e) (hend : e.isEnd = false) :
    (∀ t, (decodeAll (content ++ t)).1 = (decodeAll content).1 ∧
      (decodeAll (content ++ t)).2 ≠ none) ↔ ¬ LacksDigit content := by
  constructor
  · rintro hstays ⟨k, -, hfull⟩
    exact (hstays (48 :: k)).2 hfull
  · intro hdigit
    rcases readAll_stays .start content h hend with hstays | ⟨-, k, hk, hfull⟩
    · exact hstays .start
    · exact absurd ⟨k, hk, hfull .start⟩ hdigit

theorem LacksDigit.flaw {content : Bytes} {e : DecodeError} (hdigit : LacksDigit content)
    (h : (decodeAll content).2 = some e) (hend : e.isEnd = false) :
    e.flaw = .malformed .invalidNumber := by
  rcases readAll_stays .start content h hend with hstays | ⟨hflaw, -⟩
  · obtain ⟨k, -, hfull⟩ := hdigit
    exact absurd hfull (hstays .start (48 :: k)).2
  · exact hflaw

end PubSub.Record
