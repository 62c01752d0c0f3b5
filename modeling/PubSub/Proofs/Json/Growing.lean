import PubSub.Proofs.Json.Outlook

/-!
# Scanning texts that grow

Strings and keys have a firm outlook. A value that is passed over has not: it may end with a number.
-/

namespace PubSub.Json

open Record (textBytes_quote textBytes_plain textBytes_escaped textBytes_escape_error
  skipSpace_cons)

/-- A scanner that returns only the bytes left. -/
abbrev onlyRest (_ : Unit) (r : Bytes) : Bytes := r

/-! ## Literals and strings -/

theorem literal_firm (word s : Bytes) : Firm onlyRest (literal word) s := by
  induction word generalizing s with
  | nil => exact .done onlyRest () s
  | cons a word ih =>
    refine .byte (k := fun b t => if a = b then literal word t else fail .literalExpected t .read)
      ⟨_, rfl, rfl⟩ (fun _ _ => rfl) fun b r _ => ?_
    exact .choose (fun _ => ih r) fun _ => .failed fun _ => ⟨_, rfl⟩

theorem hexUnit_firm (s : Bytes) : Firm Prod.mk hexUnit s := by
  match s with
  | [] | [_] | [_, _] | [_, _, _] => exact .ended _ rfl rfl
  | a :: b :: c :: d :: r =>
    refine Outlook.goOn (r := r) (g := fun t => hexUnit (a :: b :: c :: d :: t)) ?_ fun _ => rfl
    simp only [hexUnit]
    split
    · exact .done Prod.mk _ r
    · exact .failed fun _ => ⟨_, rfl⟩

theorem escapePart_firm (b : UInt8) (s : Bytes) : Firm onlyRest (escapePart b) s := by
  refine .byte (k := fun a t => if a = b then .ok t else fail .hexEscapeEnded t .read)
    ⟨_, rfl, rfl⟩ (fun _ _ => rfl) fun a r _ => ?_
  exact .choose (fun _ => .done onlyRest () r) fun _ => .failed fun _ => ⟨_, rfl⟩

theorem pairWith_firm (n : Nat) (s : Bytes) : Firm Prod.mk (pairWith n) s := by
  refine (escapePart_firm 92 s).andThen
    (fun t e h => by rw [pairWith, h]) (fun t _ r h => by rw [pairWith, h])
    fun _ r _ => ?_
  refine (escapePart_firm 117 r).andThen
    (fun t e h => by simp only [h]) (fun t _ u h => by simp only [h]; rfl)
    fun _ u _ => ?_
  refine (hexUnit_firm u).andThen
    (fun t e h => by simp only [h]) (fun t m v h => by simp only [h]; rfl)
    fun m v _ => ?_
  exact .choose (fun _ => .done Prod.mk _ v) fun _ => .failed fun _ => ⟨_, rfl⟩

theorem numbered_firm (s : Bytes) : Firm Prod.mk numbered s := by
  refine (hexUnit_firm s).andThen
    (fun t e h => by rw [numbered, h]) (fun t n r h => by rw [numbered, h])
    fun n r _ => ?_
  exact .choose (fun _ => .failed fun _ => ⟨_, rfl⟩) fun _ =>
    .choose (fun _ => pairWith_firm n r) fun _ => .done Prod.mk _ r

theorem escape_firm (s : Bytes) : Firm Prod.mk escape s := by
  refine .byte ⟨_, rfl, rfl⟩ (fun _ _ => rfl) fun b r _ => ?_
  refine .choose (fun _ => numbered_firm r) fun _ => ?_
  cases shortEscape? b with
  | some c => exact .done Prod.mk _ r
  | none => exact .failed fun _ => ⟨_, rfl⟩

theorem textBytes_firm (seen s : Bytes) : Firm Prod.mk (textBytes seen) s := by
  induction hn : s.length using Nat.strongRecOn generalizing seen s with
  | ind n ih =>
    subst hn
    refine .byte (k := fun b t => textBytes seen (b :: t)) ⟨_, by rw [textBytes]; rfl, rfl⟩
      (fun _ _ => rfl) fun b r hr => ?_
    by_cases hq : b = 34
    · subst hq
      exact .read _ r fun t => textBytes_quote seen (r ++ t)
    by_cases hs : b = 92
    · subst hs
      refine (escape_firm r).andThen
        (fun t e h => textBytes_escape_error h seen)
        (fun t c u h => textBytes_escaped h seen) fun c u h => ih _ ?_ _ u rfl
      have := (escape_left h).shorter
      simp only [hr, List.length_cons]
      omega
    by_cases hc : b < 32
    · exact .failed fun t => ⟨_, by rw [textBytes, if_neg hq, if_neg hs, if_pos hc]; rfl⟩
    · exact (ih r.length (by simp [hr]) (b :: seen) r rfl).congr (textBytes_plain hq hs hc seen)

theorem text_firm (s : Bytes) : Firm Prod.mk text s := by
  cases textBytes_firm [] s with
  | read bs r h =>
    cases htext : Utf8.toText? bs with
    | some t => exact .read t r fun u => by rw [text, h u]; simp only [htext]
    | none => exact .refused fun u => ⟨_, by rw [text, h u]; simp only [htext]; rfl⟩
  | refused h =>
    refine .refused fun u => ?_
    obtain ⟨e, he⟩ := h u
    exact ⟨e, by rw [text, he]⟩
  | ended e h hend => exact .ended e (by rw [text, h]) hend
  | used hbare => exact hbare.elim
  | lacking _ _ _ _ _ _ hnext => exact hnext.elim fun _ => False.elim

/-! ## Texts that are passed over -/

theorem skipEscape_firm (s : Bytes) : Firm onlyRest skipEscape s := by
  refine .byte ⟨_, rfl, rfl⟩ (fun _ _ => rfl) fun b r _ => ?_
  refine .choose (fun _ => ?_) fun _ => .choose (fun _ => .done onlyRest () r) fun _ =>
    .failed fun _ => ⟨_, rfl⟩
  exact (hexUnit_firm r).andThen (k := fun _ t => .ok t)
    (fun t e h => by rw [h]; rfl) (fun t n u h => by rw [h]; rfl)
    fun n u _ => .done onlyRest () u

theorem skipText_firm (s : Bytes) : Firm onlyRest skipText s := by
  induction hn : s.length using Nat.strongRecOn generalizing s with
  | ind n ih =>
    subst hn
    refine .byte (k := fun b t => skipText (b :: t)) ⟨_, by rw [skipText]; rfl, rfl⟩
      (fun _ _ => rfl) fun b r hr => ?_
    by_cases hq : b = 34
    · subst hq
      exact .read () r fun t => skipText_quote (r ++ t)
    by_cases hs : b = 92
    · subst hs
      refine (skipEscape_firm r).andThen
        (fun t e h => skipText_escape_error h)
        (fun t _ u h => skipText_escaped h) fun _ u h => ih _ ?_ u rfl
      have : u.length < r.length := (skipEscape_left h).shorter
      simp only [hr, List.length_cons]
      omega
    by_cases hc : b < 32
    · exact .failed fun t => ⟨_, by rw [skipText, if_neg hq, if_neg hs, if_pos hc]; rfl⟩
    · exact (ih r.length (by simp [hr]) r rfl).congr (skipText_plain ⟨hq, hs, hc⟩)

theorem colon_firm (s : Bytes) : Firm onlyRest colon s := by
  refine .mark (k := fun b t => if b = 58 then .ok t else fail .colonExpected (b :: t) .next)
    (fun t h => ⟨_, by rw [colon, h]; rfl, rfl⟩) (fun t b r h => by rw [colon, h]) fun b r _ => ?_
  exact .choose (fun _ => .done onlyRest () r) fun _ => .failed fun _ => ⟨_, rfl⟩

theorem skipKey_firm (frame : Frame) (s : Bytes) : Firm onlyRest (skipKey frame) s := by
  cases frame with
  | list => exact .done onlyRest () s
  | object =>
    refine .mark (fun t h => ⟨_, by rw [skipKey, h]; rfl, rfl⟩)
      (fun t b r h => by rw [skipKey, h]) fun b r _ => ?_
    refine .choose (fun _ => ?_) fun _ => .failed fun _ => ⟨_, rfl⟩
    exact (skipText_firm r).andThen (fun t e h => by rw [h])
      (fun t _ u h => by rw [h]) fun _ u _ => colon_firm u

/-! ## Numbers -/

section

variable {α : Type} {f : Bytes → Scan α} {s t : Bytes}

/-- The last digits of a number. -/
theorem digits_loose (a : Bytes → α)
    (h : ∀ u, f (s ++ u) = .ok (a ((t ++ u).takeWhile isDigit), (t ++ u).dropWhile isDigit)) :
    Loose Prod.mk f s := by
  cases hd : t.dropWhile isDigit with
  | nil =>
    refine .used trivial (a (t.takeWhile isDigit)) ?_
    simpa [hd] using h []
  | cons b r =>
    refine .read (a (t.takeWhile isDigit)) (b :: r) fun u => ?_
    have hshort : (t.takeWhile isDigit).length ≠ t.length := by
      intro hlen
      have := congrArg List.length (List.takeWhile_append_dropWhile (p := isDigit) (l := t))
      rw [List.length_append, hlen, hd, List.length_cons] at this
      omega
    rw [h u, List.takeWhile_append, if_neg hshort, List.dropWhile_append, hd]
    rfl

/-- A number that goes on with at least one digit. -/
theorem digit_loose (a : Bytes → α) (lacks : ∃ e, f [] = .error e ∧ e.cause = .invalidNumber)
    (goes : ∀ d t, isDigit d = true →
      f (d :: t) = .ok (a (d :: t.takeWhile isDigit), t.dropWhile isDigit))
    (other : ∀ d, s.head? = some d → isDigit d = false → ∀ t, ∃ e, f (d :: t) = .error e) :
    Loose Prod.mk f s := by
  cases s with
  | nil =>
    obtain ⟨e, he, hcause⟩ := lacks
    refine .lacking e he hcause [] (a [48]) closing_nil ⟨[], stops_nil⟩ fun t ht => ?_
    have hnone : ∀ b ∈ ([] : Bytes), isDigit b = true := by
      intro b hb
      cases hb
    obtain ⟨htake, hdrop⟩ := digits_until hnone fun b u hb => (ht b u hb).1
    have hzero := goes 48 t (by decide)
    rw [List.nil_append] at htake hdrop
    rwa [htake, hdrop] at hzero
  | cons d r =>
    cases hd : isDigit d with
    | true => exact digits_loose (fun ds => a (d :: ds)) fun t => goes d (r ++ t) hd
    | false => exact .refused fun t => other d rfl hd (r ++ t)

end

theorem exponent_signed {e c : UInt8} (he : e = 101 ∨ e = 69) (hc : c = 43 ∨ c = 45)
    (s : Bytes) : Loose Prod.mk (exponent .invalidNumber) (e :: c :: s) := by
  refine Outlook.goOn (r := s) (g := fun t => exponent .invalidNumber (e :: c :: t)) ?_ fun _ => rfl
  refine digit_loose (fun ds => some (c = 45, ds)) ?_ (fun d t hd => ?_) fun d _ hd t => ?_
  · rcases hc with rfl | rfl <;> exact ⟨_, by simp [exponent, he]; rfl, rfl⟩
  · rcases hc with rfl | rfl <;> simp [exponent, he, hd]
  · rcases hc with rfl | rfl <;> simp [exponent, he, hd, fail]

theorem exponent_unsigned {e : UInt8} (he : e = 101 ∨ e = 69) {s : Bytes}
    (hsign : ∀ c u, s = c :: u → ¬ (c = 43 ∨ c = 45)) :
    Loose Prod.mk (exponent .invalidNumber) (e :: s) := by
  refine Outlook.goOn (r := s) (g := fun t => exponent .invalidNumber (e :: t)) ?_ fun _ => rfl
  refine digit_loose (fun ds => some (false, ds)) ⟨_, by simp [exponent, he]; rfl, rfl⟩
    (fun d t hd => ?_) fun d hs hd t => ?_
  · have hsign : d ≠ 43 ∧ d ≠ 45 := by
      constructor <;> (rintro rfl; simp [isDigit] at hd)
    simp [exponent, he, hd, hsign]
  · obtain ⟨u, rfl⟩ := List.head?_eq_some_iff.1 hs
    simp [exponent, he, hd, not_or.1 (hsign d u rfl), fail]

theorem exponent_loose (s : Bytes) : Loose Prod.mk (exponent .invalidNumber) s := by
  cases s with
  | nil => exact .used trivial none rfl
  | cons e r =>
    by_cases he : e = 101 ∨ e = 69
    · by_cases hsign : ∃ c u, r = c :: u ∧ (c = 43 ∨ c = 45)
      · obtain ⟨c, u, rfl, hc⟩ := hsign
        exact exponent_signed he hc u
      · exact exponent_unsigned he fun c u hr hc => hsign ⟨c, u, hr, hc⟩
    · exact .read none (e :: r) fun t => by simp [exponent, he]

theorem fraction_loose (s : Bytes) : Loose Prod.mk (fraction .invalidNumber) s := by
  cases s with
  | nil => exact .used trivial none rfl
  | cons p r =>
    by_cases hp : p = 46
    · subst hp
      refine Outlook.goOn (r := r) (g := fun t => fraction .invalidNumber (46 :: t)) ?_ fun _ => rfl
      refine digit_loose some ⟨_, rfl, rfl⟩ (fun d t hd => ?_) fun d _ hd t => ?_
      · simp [fraction, hd]
      · simp [fraction, hd, fail]
    · exact .read none (p :: r) fun t => by simp [fraction, hp]

theorem wholePart_loose (s : Bytes) : Loose Prod.mk (wholePart .invalidNumber) s := by
  cases s with
  | nil =>
    have hdigit : ∀ b ∈ ([48] : Bytes), 48 ≤ b ∧ b ≤ 57 := by
      intro b hb
      rw [List.mem_singleton.1 hb]
      decide
    have hzero : Whole [48] := ⟨⟨List.cons_ne_nil _ _, hdigit⟩, fun _ => rfl⟩
    exact .lacking _ rfl rfl [] [48] closing_nil ⟨[], stops_nil⟩ fun t ht =>
      wholePart_writes hzero fun b u hb => (ht b u hb).1
  | cons d r =>
    by_cases hd : d = 48
    · subst hd
      cases r with
      | nil => exact .used trivial [48] rfl
      | cons c t =>
        cases hc : isDigit c with
        | true => exact .refused fun u => ⟨_, by simp [wholePart, hc]; rfl⟩
        | false => exact .read [48] (c :: t) fun u => by simp [wholePart, hc]
    · cases hdigit : isDigit d with
      | true =>
        exact digits_loose (t := r) (fun ds => d :: ds) fun u => by simp [wholePart, hd, hdigit]
      | false => exact .refused fun u => ⟨_, by simp [wholePart, hd, hdigit]; rfl⟩

theorem numeral_loose (negative : Bool) (s : Bytes) :
    Loose Prod.mk (numeral .invalidNumber negative) s := by
  have hfraction : ∀ t, Stops t → fraction .invalidNumber t = .ok (none, t) := fun t ht =>
    fraction_writes .absent fun b u hb => ⟨(ht b u hb).1, (ht b u hb).2.1⟩
  have hexponent : ∀ t, Stops t → exponent .invalidNumber t = .ok (none, t) := fun t ht =>
    exponent_writes .absent ht
  refine (wholePart_loose s).andLast
    (fun t e h => by rw [numeral, h]) (fun t w r h => by rw [numeral, h])
    (fun w r _ => ?_) fun w => ⟨⟨negative, w, none, none⟩, fun t ht => ?_⟩
  · refine (fraction_loose r).andLast
      (fun t e h => by simp only [h]) (fun t f u h => by simp only [h]; rfl)
      (fun f u _ => ?_) fun f => ⟨⟨negative, w, f, none⟩, fun t ht => ?_⟩
    · exact (exponent_loose u).andLast (k := fun x t => .ok (⟨negative, w, f, x⟩, t))
        (fun t e h => by simp only [h]) (fun t x v h => by simp only [h])
        (fun x v _ => .done Prod.mk _ v) fun x => ⟨_, fun _ _ => rfl⟩
    · simp only [hexponent t ht]
  · simp only [hfraction t ht, hexponent t ht]

/-! ## Values that are passed over -/

theorem restOf_loose {α : Type} {f : Bytes → Scan α} {s : Bytes} (h : Loose Prod.mk f s) :
    Loose onlyRest (fun t => restOf (f t)) s :=
  h.andLast (k := fun _ t => .ok t) (fun t e he => by rw [he]; rfl)
    (fun t a r he => by rw [he]; rfl) (fun _ r _ => .done onlyRest () r)
    fun _ => ⟨(), fun _ _ => rfl⟩

theorem skipScalar_loose (b : UInt8) (s : Bytes) : Loose onlyRest (skipScalar b) s := by
  unfold skipScalar
  cases literalTail? b with
  | some word => exact (literal_firm word s).of_firm
  | none =>
    refine .choose (fun _ => (skipText_firm s).of_firm) fun _ => ?_
    refine .choose (fun _ => restOf_loose (numeral_loose true s)) fun _ => ?_
    refine .choose (fun _ => ?_) fun _ => .failed fun _ => ⟨_, rfl⟩
    exact (restOf_loose (numeral_loose false (b :: s))).goOn fun _ => rfl

section

variable {stack : List Frame} {frame : Frame} {s r : Bytes} {b : UInt8}

theorem skipRest_done {await : Await} (hawait : await ≠ .value) (s : Bytes) :
    skipRest await [] s = .ok s := by
  rw [skipRest]
  exact hawait

theorem skipRest_value_ends (stack : List Frame) (h : skipSpace s = []) :
    ∃ e, skipRest .value stack s = .error e ∧ e.cause.isEnd = true := by
  refine ⟨⟨.endInValue, [], .next⟩, ?_, rfl⟩
  rw [skipRest, h]
  rfl

theorem skipRest_open_ends {await : Await} (hawait : await ≠ .value) (frame : Frame)
    (stack : List Frame) (h : skipSpace s = []) :
    ∃ e, skipRest await (frame :: stack) s = .error e ∧ e.cause.isEnd = true := by
  refine ⟨⟨frame.endFlaw, [], .next⟩, ?_, by cases frame <;> rfl⟩
  cases await with
  | value => exact absurd rfl hawait
  | member | firstMember =>
    rw [skipRest, h]
    rfl

end

/-- What closes the open lists and objects. -/
theorem closing_closes (stack : List Frame) : Closing (stack.map Frame.close) := by
  intro b hb
  obtain ⟨frame, -, rfl⟩ := List.mem_map.1 hb
  cases frame with
  | list => exact .inl rfl
  | object => exact .inr rfl

theorem isSpace_close (frame : Frame) : isSpace frame.close = false := by
  cases frame <;> rfl

theorem skipRest_closes (stack : List Frame) (t : Bytes) :
    skipRest .member stack (stack.map Frame.close ++ t) = .ok t := by
  induction stack with
  | nil => exact skipRest_done (by decide) t
  | cons frame stack ih =>
    have hclose : skipRest (awaiting false) (frame :: stack)
        (frame.close :: (stack.map Frame.close ++ t)) = _ :=
      skipRest_close (skipSpace_cons (isSpace_close frame) _)
    exact hclose.trans ih

theorem stops_closes (stack : List Frame) {t : Bytes} (h : Stops t) :
    Stops (stack.map Frame.close ++ t) := by
  cases stack with
  | nil => exact h
  | cons frame stack =>
    cases frame <;> exact stops_cons (by decide) (by decide) (by decide) (by decide) _

section

variable {stack : List Frame} {frame : Frame} {s : Bytes}

/-- After a value the open lists and objects go on or end. -/
theorem skipRest_value_loose
    (ih : ∀ await stack r, 2 * r.length + Await.rank await < 2 * s.length →
      Loose onlyRest (skipRest await stack) r) : Loose onlyRest (skipRest .value stack) s := by
  refine .mark (fun t h => skipRest_value_ends stack h) (fun t b r h => skipRest_value h)
    fun b r hr => ?_
  have hshort := (skipSpace_left hr).shorter
  have hopen : 2 * r.length + Await.rank .firstMember < 2 * s.length := by
    simp only [Await.rank]
    omega
  refine .choose (fun _ => ih .firstMember _ r hopen) fun _ => ?_
  refine .choose (fun _ => ih .firstMember _ r hopen) fun _ => ?_
  refine (skipScalar_loose b r).bind (fun t e h => ⟨e, by rw [h], .refl _⟩)
    (fun t _ u h => by rw [h]) (fun _ u h => ih .member stack u ?_) (fun _ _ => ?_)
    fun _ _ => ⟨_, (), closing_closes stack, ⟨[], stops_nil⟩, fun t ht =>
      ⟨stops_closes stack ht, skipRest_closes stack t⟩⟩
  · have hleft : u.length < s.length :=
      ((skipScalar_left h).after (hr ▸ skipSpace_suffix s)).shorter
    simp only [Await.rank]
    omega
  · cases stack with
    | nil => exact .inr ⟨trivial, (), skipRest_done (by decide) []⟩
    | cons frame stack => exact .inl (skipRest_open_ends (by decide) frame stack rfl)

theorem skipRest_member_loose
    (ih : ∀ await stack r, 2 * r.length + Await.rank await < 2 * s.length →
      Loose onlyRest (skipRest await stack) r) :
    Loose onlyRest (skipRest .member (frame :: stack)) s := by
  refine .mark (fun t h => skipRest_open_ends (by decide) frame stack h)
    (fun t b r h => skipRest_member h) fun b r hr => ?_
  have hshort := (skipSpace_left hr).shorter
  refine .choose (fun _ => ?_) fun _ => ?_
  · refine (skipKey_firm frame r).andThen (fun t e h => by rw [h]) (fun t _ u h => by rw [h])
      fun _ u h => ih .value _ u ?_
    have hkey : u.length ≤ r.length := (skipKey_suffix h).length_le
    simp only [Await.rank]
    omega
  · refine .choose (fun _ => ih .member stack r ?_) fun _ => .failed fun _ => ⟨_, rfl⟩
    simp only [Await.rank]
    omega

theorem skipRest_firstMember_loose
    (ih : ∀ await stack r, 2 * r.length + Await.rank await < 2 * s.length + 1 →
      Loose onlyRest (skipRest await stack) r) :
    Loose onlyRest (skipRest .firstMember (frame :: stack)) s := by
  refine .mark (fun t h => skipRest_open_ends (by decide) frame stack h)
    (fun t b r h => skipRest_firstMember h) fun b r hr => ?_
  have hshort := (skipSpace_left hr).shorter
  refine .choose (fun _ => ih .member stack r ?_) fun _ => ?_
  · simp only [Await.rank]
    omega
  · -- the byte that was looked at belongs to the key
    have hfirm : Firm onlyRest (fun t => skipKey frame (b :: t)) r :=
      (skipKey_firm frame (b :: r)).goOn fun _ => rfl
    refine hfirm.andThen (fun t e h => by rw [h]) (fun t _ u h => by rw [h])
      fun _ u h => ih .value _ u ?_
    have hkey : u.length ≤ (b :: r).length := (skipKey_suffix h).length_le
    simp only [Await.rank, List.length_cons] at hkey ⊢
    omega

end

theorem skipRest_loose (await : Await) (stack : List Frame) (s : Bytes) :
    Loose onlyRest (skipRest await stack) s := by
  induction hn : 2 * s.length + await.rank using Nat.strongRecOn generalizing await stack s with
  | ind n ih =>
    subst hn
    cases await with
    | value => exact skipRest_value_loose fun await stack r h => ih _ h await stack r rfl
    | member =>
      cases stack with
      | nil => exact .read () s fun t => skipRest_done (by decide) (s ++ t)
      | cons frame stack =>
        exact skipRest_member_loose fun await stack r h => ih _ h await stack r rfl
    | firstMember =>
      cases stack with
      | nil => exact .read () s fun t => skipRest_done (by decide) (s ++ t)
      | cons frame stack =>
        exact skipRest_firstMember_loose fun await stack r h => ih _ h await stack r rfl

theorem skipValue_loose (s : Bytes) : Loose onlyRest skipValue s := skipRest_loose .value [] s

end PubSub.Json
