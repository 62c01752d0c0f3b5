import PubSub.Proofs.Text.Utf8
import PubSub.Record.Encode
import PubSub.Json.Scan

/-!
# Strings between quotes

A written text is read back, and one that was cut short is not: reading it on into what stands
behind the cut fails, or stops in front of a name (`text_cut`).
-/

namespace PubSub.Record

open Json (Failure Flaw hexUnit escape textBytes isTrailing isLeading)

/-! ## Reading what was written -/

private theorem hexUnit_control {b : UInt8} (h : b < 32) (t : Bytes) :
    hexUnit (48 :: 48 :: (Hex.lower (b.toNat / 16)).toNat.toUInt8 ::
      (Hex.lower (b.toNat % 16)).toNat.toUInt8 :: t) = .ok (b.toNat, t) := by
  have hz : Json.hexValue? 48 = some 0 := by decide
  have hd : ∀ n : Fin 32,
      Json.hexValue? (Hex.lower (n.val / 16)).toNat.toUInt8 = some (n.val / 16) ∧
      Json.hexValue? (Hex.lower (n.val % 16)).toNat.toUInt8 = some (n.val % 16) := by decide
  obtain ⟨hx, hy⟩ := hd ⟨b.toNat, h⟩
  simp only at hx hy
  rw [hexUnit, hz, hx, hy]
  simp only [Except.ok.injEq, Prod.mk.injEq, and_true]
  omega

private theorem escape_control {b : UInt8} (h : b < 32) (t : Bytes) :
    escape (117 :: 48 :: 48 :: (Hex.lower (b.toNat / 16)).toNat.toUInt8 ::
      (Hex.lower (b.toNat % 16)).toNat.toUInt8 :: t) = .ok ([b], t) := by
  have hb : b.toNat < 32 := h
  have ht : isTrailing b.toNat = false := by simp only [isTrailing]; simp; omega
  have hl : isLeading b.toNat = false := by simp only [isLeading]; simp; omega
  rw [escape, if_pos rfl, Json.numbered, hexUnit_control h]
  simp only [ht, hl, Bool.false_eq_true, if_false]
  rw [Utf8.encodeChar_ascii (UInt8.lt_trans h (by decide))]

theorem textBytes_quote (seen s : Bytes) :
    textBytes seen (34 :: s) = .ok (seen.reverse, s) := by
  rw [textBytes, if_pos rfl]

theorem textBytes_escaped {s r c : Bytes} (h : escape s = .ok (c, r)) (seen : Bytes) :
    textBytes seen (92 :: s) = textBytes (c.reverse ++ seen) r := by
  rw [textBytes, if_neg (by decide), if_pos rfl]
  split
  · next e he => simp [he] at h
  · next c' r' he =>
    rw [he] at h
    cases h
    rfl

theorem textBytes_escape_error {s : Bytes} {e : Failure Flaw} (h : escape s = .error e)
    (seen : Bytes) : textBytes seen (92 :: s) = .error e := by
  rw [textBytes, if_neg (by decide), if_pos rfl]
  split
  · next e' he =>
    rw [he] at h
    cases h
    rfl
  · next c r he => simp [he] at h

theorem textBytes_plain {b : UInt8} (hq : b ≠ 34) (hs : b ≠ 92) (hc : ¬ b < 32)
    (seen s : Bytes) : textBytes seen (b :: s) = textBytes (b :: seen) s := by
  rw [textBytes, if_neg hq, if_neg hs, if_neg hc]

theorem escape_short {x b : UInt8} (h : Json.shortEscape? x = some b) (hx : x ≠ 117)
    (t : Bytes) : escape (x :: t) = .ok ([b], t) := by
  rw [escape, if_neg hx, h]

/-- A byte is written as itself, after a backslash by another byte, or by its number. -/
theorem escapeByte_cases (b : UInt8) :
    (escapeByte b = [b] ∧ b ≠ 34 ∧ b ≠ 92 ∧ ¬ b < 32) ∨
    (∃ x, escapeByte b = [92, x] ∧ ∀ t, escape (x :: t) = .ok ([b], t)) ∨
    ∃ x y, escapeByte b = [92, 117, 48, 48, x, y] ∧
      ∀ t, escape (117 :: 48 :: 48 :: x :: y :: t) = .ok ([b], t) := by
  unfold escapeByte
  split
  · next h => subst h; exact .inr (.inl ⟨_, rfl, escape_short (by decide) (by decide)⟩)
  split
  · next h => subst h; exact .inr (.inl ⟨_, rfl, escape_short (by decide) (by decide)⟩)
  split
  · next h => subst h; exact .inr (.inl ⟨_, rfl, escape_short (by decide) (by decide)⟩)
  split
  · next h => subst h; exact .inr (.inl ⟨_, rfl, escape_short (by decide) (by decide)⟩)
  split
  · next h => subst h; exact .inr (.inl ⟨_, rfl, escape_short (by decide) (by decide)⟩)
  split
  · next h => subst h; exact .inr (.inl ⟨_, rfl, escape_short (by decide) (by decide)⟩)
  split
  · next h => subst h; exact .inr (.inl ⟨_, rfl, escape_short (by decide) (by decide)⟩)
  split
  · next h => exact .inr (.inr ⟨_, _, rfl, escape_control h⟩)
  · next hq hs _ _ _ _ _ hc => exact .inl ⟨rfl, hq, hs, hc⟩

/-- A written byte is read as itself. -/
theorem textBytes_escapeByte (b : UInt8) (seen t : Bytes) :
    textBytes seen (escapeByte b ++ t) = textBytes (b :: seen) t := by
  rcases escapeByte_cases b with ⟨h, hq, hs, hc⟩ | ⟨x, h, he⟩ | ⟨x, y, h, he⟩
  · rw [h]
    exact textBytes_plain hq hs hc seen t
  · rw [h]
    exact textBytes_escaped (he t) seen
  · rw [h]
    exact textBytes_escaped (he t) seen

theorem textBytes_written (bs seen t : Bytes) :
    textBytes seen (bs.flatMap escapeByte ++ 34 :: t) = .ok (seen.reverse ++ bs, t) := by
  induction bs generalizing seen with
  | nil => rw [List.flatMap_nil, List.nil_append, textBytes_quote, List.append_nil]
  | cons b bs ih =>
    rw [List.flatMap_cons, List.append_assoc, textBytes_escapeByte, ih]
    simp

/-- A written text is read back after its opening quote. -/
theorem text_written (s : String) (t : Bytes) :
    Json.text ((Utf8.ofText s).flatMap escapeByte ++ 34 :: t) = .ok (s, t) := by
  rw [Json.text, textBytes_written]
  simp only [List.reverse_nil, List.nil_append, Utf8.toText?_ofText]

/-! ## Reading what was cut -/

/-- The first byte of a field's name. -/
def Initial (b : UInt8) : Prop := b = 97 ∨ b = 100 ∨ b = 105

/-- What may stand behind the place where a record was cut: nothing, or the line of another
record. -/
inductive Behind : Bytes → Prop
  | nothing : Behind []
  | members (b : UInt8) (u : Bytes) : Initial b → Behind (123 :: 34 :: b :: u)
  | empty (u : Bytes) : Behind (123 :: 125 :: 10 :: u)

/-- A failure, which is an early end if there is nothing behind the cut. -/
def Fails {κ α : Type} (isEnd : κ → Bool) (t : Bytes) (x : Except (Failure κ) α) : Prop :=
  ∃ e, x = .error e ∧ (t = [] → isEnd e.cause = true)

/-- What comes next goes on no object: neither a colon, nor a comma, nor a closing brace. -/
def Stray (r : Bytes) : Prop := ∀ b u, Json.skipSpace r = b :: u → b ≠ 58 ∧ b ≠ 44 ∧ b ≠ 125

/-- Reading on over a cut with `t` behind it fails, or ends where no object goes on. -/
def Astray {κ α : Type} (isEnd : κ → Bool) (t : Bytes)
    (x : Except (Failure κ) (α × Bytes)) : Prop :=
  Fails isEnd t x ∨ (t ≠ [] ∧ ∃ a r, x = .ok (a, r) ∧ Stray r)

theorem skipSpace_cons {b : UInt8} (h : Json.isSpace b = false) (s : Bytes) :
    Json.skipSpace (b :: s) = b :: s := by
  rw [Json.skipSpace, List.dropWhile_cons_of_neg (by simp [h])]

theorem Initial.stray {b : UInt8} (h : Initial b) (u : Bytes) : Stray (b :: u) := by
  intro c v hv
  rcases h with rfl | rfl | rfl <;>
    (rw [skipSpace_cons (by decide)] at hv; cases hv; decide)

theorem Fails.of_ne_nil {κ α : Type} {isEnd : κ → Bool} {t : Bytes} {x : Except (Failure κ) α}
    (hne : t ≠ []) (h : ∃ e, x = .error e) : Fails isEnd t x := by
  obtain ⟨e, he⟩ := h
  exact ⟨e, he, fun h => absurd h hne⟩

/-- `p` is what a cut leaves of `x`, which goes on with at least one more byte. -/
def Cut (p x : Bytes) : Prop := ∃ c q, x = p ++ c :: q

theorem not_cut_nil {p : Bytes} : ¬ Cut p [] := by
  rintro ⟨c, q, h⟩
  simp at h

theorem Cut.append {p x y : Bytes} (h : Cut p (x ++ y)) :
    Cut p x ∨ ∃ q, p = x ++ q ∧ Cut q y := by
  obtain ⟨c, q, h⟩ := h
  rcases List.append_eq_append_iff.1 h with ⟨r, rfl, hy⟩ | ⟨r, hx, hr⟩
  · exact .inr ⟨r, rfl, c, q, hy⟩
  · cases r with
    | nil => exact .inr ⟨[], by simpa using hx.symm, c, q, by simpa using hr.symm⟩
    | cons d r =>
      simp only [List.cons_append, List.cons.injEq] at hr
      exact .inl ⟨d, r, hx⟩

theorem Cut.cons {p x : Bytes} {b : UInt8} (h : Cut p (b :: x)) :
    p = [] ∨ ∃ q, p = b :: q ∧ Cut q x := by
  rcases Cut.append (x := [b]) h with ⟨c, q, hq⟩ | ⟨q, rfl, hq⟩
  · cases p with
    | nil => exact .inl rfl
    | cons d p => simp at hq
  · exact .inr ⟨q, rfl, hq⟩

private theorem hexUnit_brace {s : Bytes} (h : 123 ∈ s.take 4) : ∃ e, hexUnit s = .error e := by
  have hn : Json.hexValue? 123 = none := by decide
  unfold hexUnit
  split
  · split
    · next hw hx hy hz =>
      simp only [List.take_succ_cons, List.take_zero, List.mem_cons, List.not_mem_nil,
        or_false] at h
      rcases h with rfl | rfl | rfl | rfl <;> simp_all
    · exact ⟨_, rfl⟩
  · exact ⟨_, rfl⟩

theorem cut_singleton {p : Bytes} {b : UInt8} (h : Cut p [b]) : p = [] := by
  obtain rfl | ⟨q, -, hq⟩ := h.cons
  · rfl
  · exact absurd hq not_cut_nil

theorem Behind.eq_nil_or_brace {t : Bytes} (h : Behind t) : t = [] ∨ ∃ u, t = 123 :: u := by
  cases h with
  | nothing => exact .inl rfl
  | members b u _ => exact .inr ⟨_, rfl⟩
  | empty u => exact .inr ⟨_, rfl⟩

/-- Fewer than four digits are no number. -/
private theorem hexUnit_cut {t : Bytes} (ht : Behind t) {ds : Bytes} (hd : ds.length < 4) :
    Fails Flaw.isEnd t (hexUnit (ds ++ t)) := by
  rcases ht.eq_nil_or_brace with rfl | ⟨u, rfl⟩
  · refine ⟨⟨.endInString, [], .read⟩, ?_, fun _ => rfl⟩
    rw [List.append_nil]
    match ds, hd with
    | [], _ | [_], _ | [_, _], _ | [_, _, _], _ => rfl
  · refine .of_ne_nil (by simp) (hexUnit_brace ?_)
    match ds, hd with
    | [], _ | [_], _ | [_, _], _ | [_, _, _], _ => simp

/-- An escape that was cut after its backslash stands for nothing. -/
private theorem escape_cut {t : Bytes} (ht : Behind t) {p : Bytes}
    (h : p = [] ∨ ∃ ds, p = 117 :: ds ∧ ds.length < 4) :
    Fails Flaw.isEnd t (escape (p ++ t)) := by
  rcases h with rfl | ⟨ds, rfl, hd⟩
  · cases ht with
    | nothing => exact ⟨_, rfl, fun _ => rfl⟩
    | members b u _ => exact ⟨_, rfl, fun h => by simp at h⟩
    | empty u => exact ⟨_, rfl, fun h => by simp at h⟩
  · obtain ⟨e, he, hend⟩ := hexUnit_cut ht hd
    refine ⟨e, ?_, hend⟩
    rw [List.cons_append, escape, if_pos rfl, Json.numbered, he]

/-- What stands behind a cut closes the string before a name, or ends it with a line feed. -/
private theorem textBytes_behind {t : Bytes} (ht : Behind t) (seen : Bytes) :
    Astray Flaw.isEnd t (textBytes seen t) := by
  cases ht with
  | nothing =>
    rw [textBytes]
    exact .inl ⟨_, rfl, fun _ => rfl⟩
  | members b u hb =>
    rw [textBytes_plain (by decide) (by decide) (by decide), textBytes_quote]
    exact .inr ⟨by simp, _, _, rfl, hb.stray u⟩
  | empty u =>
    rw [textBytes_plain (by decide) (by decide) (by decide),
      textBytes_plain (by decide) (by decide) (by decide), textBytes, if_neg (by decide),
      if_neg (by decide), if_pos (by decide)]
    exact .inl ⟨_, rfl, fun h => by simp at h⟩

/-- A written byte that was cut is an escape without its end. -/
private theorem textBytes_cutByte {t p : Bytes} (ht : Behind t) {b : UInt8}
    (h : Cut p (escapeByte b)) (seen : Bytes) :
    Astray Flaw.isEnd t (textBytes seen (p ++ t)) := by
  have hesc : ∀ q, (q = [] ∨ ∃ ds, q = 117 :: ds ∧ ds.length < 4) →
      Astray Flaw.isEnd t (textBytes seen (92 :: q ++ t)) := by
    intro q hq
    obtain ⟨e, he, hend⟩ := escape_cut ht hq
    rw [List.cons_append, textBytes_escape_error he]
    exact .inl ⟨e, rfl, hend⟩
  rcases escapeByte_cases b with ⟨hw, -⟩ | ⟨x, hw, -⟩ | ⟨x, y, hw, -⟩
  · rw [hw] at h
    obtain rfl := cut_singleton h
    exact textBytes_behind ht seen
  · rw [hw] at h
    obtain rfl | ⟨q, rfl, hq⟩ := h.cons
    · exact textBytes_behind ht seen
    obtain rfl | ⟨q, -, hq⟩ := hq.cons
    · exact hesc [] (.inl rfl)
    · exact absurd hq not_cut_nil
  · rw [hw] at h
    obtain rfl | ⟨q, rfl, hq⟩ := h.cons
    · exact textBytes_behind ht seen
    apply hesc
    obtain rfl | ⟨ds, rfl, c, r, hr⟩ := hq.cons
    · exact .inl rfl
    · refine .inr ⟨ds, rfl, ?_⟩
      have := congrArg List.length hr
      simp only [List.length_cons, List.length_nil, List.length_append] at this
      omega

theorem textBytes_cut {t : Bytes} (ht : Behind t) {bs p : Bytes}
    (h : Cut p (bs.flatMap escapeByte ++ [34])) (seen : Bytes) :
    Astray Flaw.isEnd t (textBytes seen (p ++ t)) := by
  induction bs generalizing p seen with
  | nil =>
    obtain rfl := cut_singleton h
    exact textBytes_behind ht seen
  | cons b bs ih =>
    rw [List.flatMap_cons, List.append_assoc] at h
    rcases h.append with h | ⟨q, rfl, hq⟩
    · exact textBytes_cutByte ht h seen
    · rw [List.append_assoc, textBytes_escapeByte]
      exact ih hq _

/-- A text that was cut after its opening quote. -/
theorem text_cut {t : Bytes} (ht : Behind t) {bs p : Bytes}
    (h : Cut p (bs.flatMap escapeByte ++ [34])) : Astray Flaw.isEnd t (Json.text (p ++ t)) := by
  rw [Json.text]
  rcases textBytes_cut ht h [] with ⟨e, he, hend⟩ | ⟨hne, bs, r, he, hr⟩
  · rw [he]
    exact .inl ⟨e, rfl, hend⟩
  · rw [he]
    dsimp only
    cases Utf8.toText? bs with
    | some s => exact .inr ⟨hne, s, r, rfl, hr⟩
    | none => exact .inl ⟨_, rfl, fun h => absurd h hne⟩

end PubSub.Record
