import PubSub.Json.Skip
import PubSub.Proofs.Json.Grammar
import PubSub.Proofs.Record.Strings

/-!
# Reading what the grammar writes

Texts are read and skipped in any spelling, and a value is passed over as a whole, however deep it
is (`skipValue_writes`). What follows a value decides only where its number ends.
-/

namespace PubSub.Json

open Record (skipSpace_cons textBytes_quote textBytes_plain textBytes_escaped escape_short)

/-! ## White space -/

theorem isSpace_iff {b : UInt8} : isSpace b = true ↔ b = 32 ∨ b = 9 ∨ b = 10 ∨ b = 13 := by
  simp only [isSpace, decide_eq_true_eq]
  grind

theorem white_nil : White [] := by
  intro b hb
  cases hb

theorem skipSpace_white {w : Bytes} (h : White w) (r : Bytes) :
    skipSpace (w ++ r) = skipSpace r := by
  have hspace : ∀ b ∈ w, isSpace b = true := by
    intro b hb
    exact isSpace_iff.2 (h b hb)
  exact List.dropWhile_append_of_pos hspace

/-- White space before a byte that is none. -/
theorem skipSpace_to {w : Bytes} (h : White w) {b : UInt8} (hb : isSpace b = false) (r : Bytes) :
    skipSpace (w ++ b :: r) = b :: r := by
  rw [skipSpace_white h, skipSpace_cons hb]

/-! ## Escapes -/

theorem hexValue?_writes {v : Nat} {b : UInt8} (h : WritesHex v b) : hexValue? b = some v := by
  have hdigit : ∀ n : Fin 10, hexValue? (48 + n.val).toUInt8 = some n.val := by decide
  have hlower : ∀ n : Fin 6, hexValue? (97 + n.val).toUInt8 = some (10 + n.val) := by decide
  have hupper : ∀ n : Fin 6, hexValue? (65 + n.val).toUInt8 = some (10 + n.val) := by decide
  have hb : ∀ n, b.toNat = n → b = n.toUInt8 := by
    intro n hn
    simp [← hn, Nat.toUInt8]
  rcases h with ⟨hv, h⟩ | ⟨hlo, hhi, h | h⟩
  · rw [hb _ h]
    exact hdigit ⟨v, hv⟩
  · rw [hb _ h, show 87 + v = 97 + (v - 10) by omega, hlower ⟨v - 10, by omega⟩]
    simp only [Option.some.injEq]
    omega
  · rw [hb _ h, show 55 + v = 65 + (v - 10) by omega, hupper ⟨v - 10, by omega⟩]
    simp only [Option.some.injEq]
    omega

theorem hexUnit_writes {n : Nat} {s : Bytes} (h : WritesUnit n s) (r : Bytes) :
    hexUnit (s ++ r) = .ok (n, r) := by
  cases h with
  | digits ha hb hc hd =>
    rw [List.cons_append, List.cons_append, List.cons_append, List.cons_append, List.nil_append,
      hexUnit, hexValue?_writes ha, hexValue?_writes hb, hexValue?_writes hc, hexValue?_writes hd]

theorem scalar_not_surrogate (c : Char) :
    isTrailing c.toNat = false ∧ isLeading c.toNat = false := by
  have h := c.valid
  simp only [UInt32.isValidChar, Nat.isValidChar] at h
  have hc : c.toNat < 0xD800 ∨ 0xDFFF < c.toNat ∧ c.toNat < 0x110000 := h
  simp only [isTrailing, isLeading, decide_eq_false_iff_not]
  omega

/-- A character by its number. -/
theorem escape_unit {c : Char} {s : Bytes} (h : WritesUnit c.toNat s) (r : Bytes) :
    escape (117 :: s ++ r) = .ok (Utf8.encodeChar c, r) := by
  obtain ⟨ht, hl⟩ := scalar_not_surrogate c
  rw [List.cons_append, escape, if_pos rfl, numbered, hexUnit_writes h]
  simp only [ht, hl, Bool.false_eq_true, if_false, Char.ofNat_toNat]

/-- A character above the first plane by its two surrogates. -/
theorem escape_pair {c : Char} {s t : Bytes} (hc : 0x10000 ≤ c.toNat)
    (hs : WritesUnit (0xD800 + (c.toNat - 0x10000) / 0x400) s)
    (ht : WritesUnit (0xDC00 + (c.toNat - 0x10000) % 0x400) t) (r : Bytes) :
    escape (117 :: s ++ 92 :: 117 :: t ++ r) = .ok (Utf8.encodeChar c, r) := by
  have h := c.valid
  simp only [UInt32.isValidChar, Nat.isValidChar] at h
  have hlt : c.toNat < 0x110000 := by
    have : c.toNat < 0xD800 ∨ 0xDFFF < c.toNat ∧ c.toNat < 0x110000 := h
    omega
  have hleading : isTrailing (0xD800 + (c.toNat - 0x10000) / 0x400) = false ∧
      isLeading (0xD800 + (c.toNat - 0x10000) / 0x400) = true := by
    simp only [isTrailing, isLeading, decide_eq_false_iff_not, decide_eq_true_eq]
    omega
  have htrailing : isTrailing (0xDC00 + (c.toNat - 0x10000) % 0x400) = true := by
    simp only [isTrailing, decide_eq_true_eq]
    omega
  have hnumber : 0x10000 + (0xD800 + (c.toNat - 0x10000) / 0x400 - 0xD800) * 0x400 +
      (0xDC00 + (c.toNat - 0x10000) % 0x400 - 0xDC00) = c.toNat := by
    omega
  have hsplit : 117 :: s ++ 92 :: 117 :: t ++ r = 117 :: (s ++ 92 :: 117 :: (t ++ r)) := by simp
  rw [hsplit, escape, if_pos rfl, numbered, hexUnit_writes hs]
  simp only [hleading.1, hleading.2, Bool.false_eq_true, if_false, if_true]
  rw [pairWith, escapePart, if_pos rfl]
  simp only
  rw [escapePart, if_pos rfl]
  simp only
  rw [hexUnit_writes ht]
  simp only [htrailing, if_true, hnumber, Char.ofNat_toNat]

/-- The letter after a backslash. -/
theorem shortEscape?_letter {c : Char} {b : UInt8} (h : (c.toNat, b) ∈ letterEscapes) :
    b ≠ 117 ∧ ∃ x, shortEscape? b = some x ∧ Utf8.encodeChar c = [x] := by
  have hc : Char.ofNat c.toNat = c := Char.ofNat_toNat c
  simp only [letterEscapes, List.mem_cons, Prod.mk.injEq, List.not_mem_nil, or_false] at h
  rcases h with ⟨hn, rfl⟩ | ⟨hn, rfl⟩ | ⟨hn, rfl⟩ | ⟨hn, rfl⟩ | ⟨hn, rfl⟩ | ⟨hn, rfl⟩ | ⟨hn, rfl⟩ |
    ⟨hn, rfl⟩ <;>
  · refine ⟨by decide, _, rfl, ?_⟩
    rw [← hc, hn]
    decide

/-! ## Characters -/

/-- A byte of a string that stands for itself. -/
def IsPlain (b : UInt8) : Prop := b ≠ 34 ∧ b ≠ 92 ∧ ¬ b < 32

theorem encodeChar_isPlain {c : Char} (hc : 32 ≤ c.toNat) (hq : c.toNat ≠ 34)
    (hs : c.toNat ≠ 92) : ∀ b ∈ Utf8.encodeChar c, IsPlain b := by
  have h := c.valid
  simp only [UInt32.isValidChar, Nat.isValidChar] at h
  have hlt : c.toNat < 0xD800 ∨ 0xDFFF < c.toNat ∧ c.toNat < 0x110000 := h
  have hbyte : ∀ n, n < 256 → 32 ≤ n → n ≠ 34 → n ≠ 92 → IsPlain n.toUInt8 := by
    intro n hn hlo hq hs
    have he : n.toUInt8.toNat = n := by simp [Nat.toUInt8, Nat.mod_eq_of_lt hn]
    simp only [IsPlain, ne_eq, ← UInt8.toNat_inj, UInt8.lt_iff_toNat_lt, he, UInt8.toNat_ofNat]
    omega
  intro b hb
  unfold Utf8.encodeChar at hb
  simp only at hb
  split at hb
  · simp only [List.mem_singleton] at hb
    rw [hb]
    exact hbyte _ (by omega) (by omega) (by omega) (by omega)
  · split at hb
    · simp only [List.mem_cons, List.not_mem_nil, or_false] at hb
      rcases hb with rfl | rfl <;>
        exact hbyte _ (by omega) (by omega) (by omega) (by omega)
    · split at hb
      · simp only [List.mem_cons, List.not_mem_nil, or_false] at hb
        rcases hb with rfl | rfl | rfl <;>
          exact hbyte _ (by omega) (by omega) (by omega) (by omega)
      · simp only [List.mem_cons, List.not_mem_nil, or_false] at hb
        rcases hb with rfl | rfl | rfl | rfl <;>
          exact hbyte _ (by omega) (by omega) (by omega) (by omega)

theorem textBytes_isPlain {s : Bytes} (h : ∀ b ∈ s, IsPlain b) (seen r : Bytes) :
    textBytes seen (s ++ r) = textBytes (s.reverse ++ seen) r := by
  induction s generalizing seen with
  | nil => rfl
  | cons b s ih =>
    obtain ⟨hq, hs, hc⟩ := h b List.mem_cons_self
    rw [List.cons_append, textBytes_plain hq hs hc, ih fun a ha => h a (List.mem_cons_of_mem _ ha)]
    simp

/-- A character is read in any of its spellings. -/
theorem textBytes_writes {c : Char} {s : Bytes} (h : WritesChar c s) (seen r : Bytes) :
    textBytes seen (s ++ r) = textBytes ((Utf8.encodeChar c).reverse ++ seen) r := by
  cases h with
  | plain hc hq hs => exact textBytes_isPlain (encodeChar_isPlain hc hq hs) seen r
  | letter hb =>
    obtain ⟨hu, x, hx, hc⟩ := shortEscape?_letter hb
    rw [hc]
    exact textBytes_escaped (escape_short hx hu r) seen
  | unit hu => exact textBytes_escaped (escape_unit hu r) seen
  | pair hc hs ht => exact textBytes_escaped (escape_pair hc hs ht r) seen

/-- So is a text, after its opening quote. -/
theorem text_writes {t : String} {s : Bytes} (h : WritesChars t.toList s) (r : Bytes) :
    text (s ++ 34 :: r) = .ok (t, r) := by
  have hchars : ∀ {cs s}, WritesChars cs s → ∀ seen,
      textBytes seen (s ++ 34 :: r) = .ok (seen.reverse ++ Utf8.encode cs, r) := by
    intro cs s hcs
    induction hcs with
    | nil =>
      intro seen
      rw [List.nil_append, textBytes_quote]
      simp [Utf8.encode]
    | cons hc _ ih =>
      intro seen
      rw [List.append_assoc, textBytes_writes hc, ih]
      simp [Utf8.encode]
  have htext : Utf8.toText? (Utf8.encode t.toList) = some t := Utf8.toText?_ofText t
  rw [text, hchars h]
  simp only [List.reverse_nil, List.nil_append, htext]

/-! ## Texts that are passed over -/

theorem skipText_quote (r : Bytes) : skipText (34 :: r) = .ok r := by
  rw [skipText, if_pos rfl]

theorem skipText_plain {b : UInt8} (h : IsPlain b) (r : Bytes) :
    skipText (b :: r) = skipText r := by
  rw [skipText, if_neg h.1, if_neg h.2.1, if_neg h.2.2]

theorem skipText_isPlain {s : Bytes} (h : ∀ b ∈ s, IsPlain b) (r : Bytes) :
    skipText (s ++ r) = skipText r := by
  induction s with
  | nil => rfl
  | cons b s ih =>
    rw [List.cons_append, skipText_plain (h b List.mem_cons_self)]
    exact ih fun a ha => h a (List.mem_cons_of_mem _ ha)

theorem skipText_escaped {s r : Bytes} (h : skipEscape s = .ok r) :
    skipText (92 :: s) = skipText r := by
  rw [skipText, if_neg (by decide), if_pos rfl]
  split
  · next e he => simp [he] at h
  · next r' he =>
    rw [he] at h
    cases h
    rfl

theorem skipText_escape_error {s : Bytes} {e : Failure Flaw} (h : skipEscape s = .error e) :
    skipText (92 :: s) = .error e := by
  rw [skipText, if_neg (by decide), if_pos rfl]
  split
  · next e' he =>
    rw [he] at h
    cases h
    rfl
  · next r he => simp [he] at h

theorem skipEscape_unit {n : Nat} {s : Bytes} (h : WritesUnit n s) (r : Bytes) :
    skipEscape (117 :: s ++ r) = .ok r := by
  rw [List.cons_append, skipEscape, if_pos rfl, hexUnit_writes h]
  rfl

theorem skipText_char {c : Char} {s : Bytes} (h : WritesChar c s) (r : Bytes) :
    skipText (s ++ r) = skipText r := by
  cases h with
  | plain hc hq hs => exact skipText_isPlain (encodeChar_isPlain hc hq hs) r
  | letter hb =>
    obtain ⟨hu, x, hx, -⟩ := shortEscape?_letter hb
    refine skipText_escaped ?_
    change skipEscape (_ :: r) = _
    rw [skipEscape, if_neg hu, hx]
    rfl
  | unit hu => exact skipText_escaped (skipEscape_unit hu r)
  | pair _ hs ht =>
    -- the two halves are passed over one by one
    rw [List.append_assoc, List.cons_append, skipText_escaped (skipEscape_unit hs _)]
    exact skipText_escaped (skipEscape_unit ht r)

theorem skipText_writes {cs : List Char} {s : Bytes} (h : WritesChars cs s) (r : Bytes) :
    skipText (s ++ 34 :: r) = .ok r := by
  induction h with
  | nil => exact skipText_quote r
  | cons hc _ ih => rw [List.append_assoc, skipText_char hc, ih]

/-! ## Numbers -/

/-- What follows a number goes on with it nowhere. -/
def Stops (r : Bytes) : Prop :=
  ∀ b u, r = b :: u → isDigit b = false ∧ b ≠ 46 ∧ b ≠ 101 ∧ b ≠ 69

theorem stops_nil : Stops [] := by
  intro b u h
  cases h

theorem stops_cons {b : UInt8} (hd : isDigit b = false) (hp : b ≠ 46) (he : b ≠ 101)
    (hE : b ≠ 69) (r : Bytes) : Stops (b :: r) := by
  intro c u h
  cases h
  exact ⟨hd, hp, he, hE⟩

theorem isDigit_of_digits {s : Bytes} (h : Digits s) : ∀ b ∈ s, isDigit b = true := by
  intro b hb
  simpa [isDigit] using h.digits b hb

theorem Digits.exists_cons {s : Bytes} (h : Digits s) :
    ∃ d ds, s = d :: ds ∧ isDigit d = true ∧ ∀ b ∈ ds, isDigit b = true := by
  have hdigit := isDigit_of_digits h
  cases s with
  | nil => exact absurd rfl h.ne_nil
  | cons d ds =>
    refine ⟨d, ds, rfl, hdigit d List.mem_cons_self, fun b hb => ?_⟩
    exact hdigit b (List.mem_cons_of_mem _ hb)

/-- A run of digits ends where no digit follows. -/
theorem digits_until {ds r : Bytes} (h : ∀ b ∈ ds, isDigit b = true)
    (hr : ∀ b u, r = b :: u → isDigit b = false) :
    (ds ++ r).takeWhile isDigit = ds ∧ (ds ++ r).dropWhile isDigit = r := by
  have hstop : r.takeWhile isDigit = [] ∧ r.dropWhile isDigit = r := by
    cases r with
    | nil => exact ⟨rfl, rfl⟩
    | cons b u => simp [hr b u rfl]
  rw [List.takeWhile_append_of_pos h, List.dropWhile_append_of_pos h, hstop.1, hstop.2,
    List.append_nil]
  exact ⟨rfl, rfl⟩

variable {atEnd : Flaw} {r : Bytes}

theorem exponent_writes {e : Option (Bool × Bytes)} {x : Bytes} (h : WritesExponent e x)
    (hr : Stops r) : exponent atEnd (x ++ r) = .ok (e, r) := by
  have hstop : ∀ b u, r = b :: u → isDigit b = false := fun b u hbu => (hr b u hbu).1
  cases h with
  | absent =>
    cases r with
    | nil => rfl
    | cons b u =>
      obtain ⟨-, -, he, hE⟩ := hr b u rfl
      simp [exponent, he, hE]
  | bare he hd =>
    obtain ⟨d, ds, rfl, hdigit, hds⟩ := hd.exists_cons
    obtain ⟨htake, hdrop⟩ := digits_until hds hstop
    have hsign : d ≠ 43 ∧ d ≠ 45 := by
      constructor <;> (rintro rfl; simp [isDigit] at hdigit)
    simp only [List.cons_append, exponent, if_pos he, if_neg hsign.1, if_neg hsign.2, hdigit,
      if_true, htake, hdrop]
  | plus he hd | minus he hd =>
    obtain ⟨d, ds, rfl, hdigit, hds⟩ := hd.exists_cons
    obtain ⟨htake, hdrop⟩ := digits_until hds hstop
    simp [exponent, he, hdigit, htake, hdrop]

theorem fraction_writes {f : Option Bytes} {s t : Bytes} (h : WritesFraction f s)
    (ht : ∀ b u, t = b :: u → isDigit b = false ∧ b ≠ 46) :
    fraction atEnd (s ++ t) = .ok (f, t) := by
  cases h with
  | absent =>
    cases t with
    | nil => rfl
    | cons b u => simp [fraction, (ht b u rfl).2]
  | present hd =>
    obtain ⟨d, ds, rfl, hdigit, hds⟩ := hd.exists_cons
    obtain ⟨htake, hdrop⟩ := digits_until hds fun b u hbu => (ht b u hbu).1
    simp [fraction, hdigit, htake, hdrop]

theorem wholePart_writes {w t : Bytes} (h : Whole w)
    (ht : ∀ b u, t = b :: u → isDigit b = false) : wholePart atEnd (w ++ t) = .ok (w, t) := by
  obtain ⟨d, ds, rfl, hdigit, hds⟩ := h.toDigits.exists_cons
  by_cases hd : d = 48
  · subst hd
    obtain rfl : ds = [] := by simpa using h.zeroAlone rfl
    cases t with
    | nil => rfl
    | cons b u => simp [wholePart, ht b u rfl]
  · obtain ⟨htake, hdrop⟩ := digits_until hds ht
    simp [wholePart, hd, hdigit, htake, hdrop]

/-- A number is read as its numeral, and no byte of what follows. -/
theorem numeral_writes {n : Numeral} {f x : Bytes} (hw : Whole n.whole)
    (hf : WritesFraction n.fraction f) (hx : WritesExponent n.exponent x) (hr : Stops r) :
    numeral atEnd n.negative (n.whole ++ f ++ x ++ r) = .ok (n, r) := by
  have hexp : ∀ b u, x ++ r = b :: u → isDigit b = false ∧ b ≠ 46 := by
    intro b u hbu
    generalize n.exponent = e at hx
    cases hx with
    | absent => exact ⟨(hr b u hbu).1, (hr b u hbu).2.1⟩
    | bare he | plus he | minus he =>
      cases hbu
      rcases he with rfl | rfl <;> decide
  have hfrac : ∀ b u, f ++ (x ++ r) = b :: u → isDigit b = false := by
    intro b u hbu
    generalize n.fraction = g at hf
    cases hf with
    | absent => exact (hexp b u hbu).1
    | present =>
      cases hbu
      decide
  rw [List.append_assoc, List.append_assoc, numeral, wholePart_writes hw hfrac]
  simp only
  rw [fraction_writes hf hexp]
  simp only
  rw [exponent_writes hx hr]

/-! ## First bytes -/

/-- The byte may be the first one of the value. -/
def Value.OpensWith : Value → UInt8 → Prop
  | .null, b => b = 110
  | .boolean true, b => b = 116
  | .boolean false, b => b = 102
  | .number _, b => b = 45 ∨ isDigit b = true
  | .text _, b => b = 34
  | .list _, b => b = 91
  | .object _, b => b = 123

/-- A number in front of what does not go on with it. -/
theorem skipScalar_number {q : Rat} {u : Bytes} (h : WritesNumber q u) (hr : Stops r) :
    ∃ b t, u = b :: t ∧ (b = 45 ∨ isDigit b = true) ∧ skipScalar b (t ++ r) = .ok r := by
  cases h with
  | @numeral n f x hw hf hx =>
    have hn : numeral .invalidNumber n.negative (n.whole ++ f ++ x ++ r) = .ok (n, r) :=
      numeral_writes hw hf hx hr
    cases hneg : n.negative with
    | true =>
      rw [hneg] at hn
      refine ⟨45, n.whole ++ f ++ x, rfl, .inl rfl, ?_⟩
      rw [skipScalar, hn]
      rfl
    | false =>
      rw [hneg] at hn
      obtain ⟨d, ds, hd, hdigit, -⟩ := hw.toDigits.exists_cons
      have hother : d ≠ 34 ∧ d ≠ 45 ∧ literalTail? d = none := by
        refine ⟨?_, ?_, ?_⟩
        · rintro rfl
          simp [isDigit] at hdigit
        · rintro rfl
          simp [isDigit] at hdigit
        · rw [literalTail?, if_neg, if_neg, if_neg] <;> (rintro rfl; simp [isDigit] at hdigit)
      refine ⟨d, ds ++ f ++ x, by simp [minusSign, hd], .inr hdigit, ?_⟩
      rw [hd] at hn
      rw [skipScalar, hother.2.2]
      simp only [if_neg hother.1, if_neg hother.2.1, hdigit, if_true]
      have hsame : d :: (ds ++ f ++ x ++ r) = d :: ds ++ f ++ x ++ r := rfl
      rw [hsame, hn]
      rfl

theorem Writes.opensWith {v : Value} {u : Bytes} (h : Writes v u) :
    ∃ b t, u = b :: t ∧ v.OpensWith b := by
  cases h with
  | null | true | false => exact ⟨_, _, rfl, rfl⟩
  | number hq =>
    obtain ⟨b, t, hu, hb, -⟩ := skipScalar_number hq stops_nil
    exact ⟨b, t, hu, hb⟩
  | text ht =>
    cases ht
    exact ⟨_, _, rfl, rfl⟩
  | list | object => exact ⟨_, _, rfl, rfl⟩

/-- A value begins neither with white space nor with a closing bracket. -/
theorem Value.OpensWith.begins {v : Value} {b : UInt8} (h : v.OpensWith b) :
    isSpace b = false ∧ b ≠ 93 := by
  have hdigit : isDigit b = true → Json.isSpace b = false ∧ b ≠ 93 := by
    intro hb
    constructor
    · cases hs : Json.isSpace b with
      | false => rfl
      | true => rcases isSpace_iff.1 hs with rfl | rfl | rfl | rfl <;> simp [isDigit] at hb
    · rintro rfl
      simp [isDigit] at hb
  cases v with
  | boolean x => cases x <;> (cases h; decide)
  | number q =>
    rcases h with rfl | h
    · decide
    · exact hdigit h
  | _ =>
    cases h
    decide

/-! ## Values that are passed over -/

variable {stack : List Frame} {frame : Frame} {s t : Bytes} {b : UInt8}

theorem skipRest_value (h : skipSpace s = b :: r) :
    skipRest .value stack s =
      if b = 91 then skipRest .firstMember (.list :: stack) r
      else if b = 123 then skipRest .firstMember (.object :: stack) r
      else
        match skipScalar b r with
        | .error e => .error e
        | .ok r => skipRest .member stack r := by
  conv => lhs; rw [skipRest, h]
  dsimp only
  cases skipScalar b r <;> rfl

theorem skipRest_member (h : skipSpace s = b :: r) :
    skipRest .member (frame :: stack) s =
      if b = 44 then
        match skipKey frame r with
        | .error e => .error e
        | .ok r => skipRest .value (frame :: stack) r
      else if b = frame.close then skipRest .member stack r
      else fail frame.commaFlaw (b :: r) .next := by
  conv => lhs; rw [skipRest, h]
  dsimp only
  cases skipKey frame r <;> rfl

theorem skipRest_firstMember (h : skipSpace s = b :: r) :
    skipRest .firstMember (frame :: stack) s =
      if b = frame.close then skipRest .member stack r
      else
        match skipKey frame (b :: r) with
        | .error e => .error e
        | .ok r => skipRest .value (frame :: stack) r := by
  conv => lhs; rw [skipRest, h]
  dsimp only
  cases skipKey frame (b :: r) <;> rfl

theorem skipRest_openList (h : skipSpace s = 91 :: t) :
    skipRest .value stack s = skipRest .firstMember (.list :: stack) t := by
  rw [skipRest_value h, if_pos rfl]

theorem skipRest_openObject (h : skipSpace s = 123 :: t) :
    skipRest .value stack s = skipRest .firstMember (.object :: stack) t := by
  rw [skipRest_value h, if_neg (by decide), if_pos rfl]

theorem skipRest_scalar (h : skipSpace s = b :: t) (hl : b ≠ 91) (ho : b ≠ 123)
    (hscalar : skipScalar b t = .ok r) : skipRest .value stack s = skipRest .member stack r := by
  rw [skipRest_value h, if_neg hl, if_neg ho, hscalar]

/-- What comes before an element or a member is awaited. -/
def awaiting (first : Bool) : Await := if first then .firstMember else .member

theorem skipRest_close {first : Bool} (h : skipSpace s = frame.close :: t) :
    skipRest (awaiting first) (frame :: stack) s = skipRest .member stack t := by
  have hcomma : frame.close ≠ 44 := by cases frame <;> decide
  cases first with
  | true =>
    rw [awaiting, if_pos rfl, skipRest_firstMember h, if_pos rfl]
  | false =>
    rw [awaiting, if_neg (by decide), skipRest_member h, if_neg hcomma, if_pos rfl]

/-- The first element or member, or another one behind a comma. -/
theorem skipRest_between (stack : List Frame) (frame : Frame) {first : Bool} {w u : Bytes}
    (h : Between first w) (hb : isSpace b = false) (hc : b ≠ frame.close)
    (hkey : ∀ a, White a → ∃ c, skipKey frame (a ++ b :: t) = .ok c ∧ skipSpace c = u) :
    ∃ c, skipSpace c = u ∧
      skipRest (awaiting first) (frame :: stack) (w ++ b :: t) =
        skipRest .value (frame :: stack) c := by
  cases h with
  | first hw =>
    obtain ⟨c, hk, hcu⟩ := hkey [] white_nil
    rw [List.nil_append] at hk
    refine ⟨c, hcu, ?_⟩
    rw [awaiting, if_pos rfl, skipRest_firstMember (skipSpace_to hw hb t), if_neg hc, hk]
  | @comma w a hw ha =>
    obtain ⟨c, hk, hcu⟩ := hkey a ha
    refine ⟨c, hcu, ?_⟩
    have hsplit : w ++ 44 :: a ++ b :: t = w ++ 44 :: (a ++ b :: t) := by simp
    have hcomma : skipSpace (w ++ 44 :: (a ++ b :: t)) = 44 :: (a ++ b :: t) :=
      skipSpace_to hw (by decide) _
    rw [hsplit, awaiting, if_neg (by decide), skipRest_member hcomma, if_pos rfl, hk]

theorem skipKey_member {k a x y : Bytes} {name : String} (hk : WritesText name k) (ha : White a)
    (hx : White x) (hy : White y) :
    ∃ c, skipKey .object (a ++ k ++ x ++ 58 :: y ++ t) = .ok c ∧ skipSpace c = skipSpace t := by
  cases hk with
  | @quoted s hs =>
    refine ⟨y ++ t, ?_, skipSpace_white hy t⟩
    have hsplit : a ++ (34 :: s ++ [34]) ++ x ++ 58 :: y ++ t =
        a ++ 34 :: (s ++ 34 :: (x ++ 58 :: (y ++ t))) := by simp
    rw [hsplit, skipKey, skipSpace_to ha (by decide)]
    simp only [if_true]
    rw [skipText_writes hs]
    simp only
    rw [colon, skipSpace_to hx (by decide)]
    rfl

/-- Nothing that follows a value in a list or an object goes on with a number. -/
theorem stops_white {w : Bytes} (h : White w) (hr : Stops r) : Stops (w ++ r) := by
  cases w with
  | nil => exact hr
  | cons c w =>
    rcases h c List.mem_cons_self with rfl | rfl | rfl | rfl <;>
      exact stops_cons (by decide) (by decide) (by decide) (by decide) _

theorem stops_between {w : Bytes} (h : Between false w) : Stops (w ++ r) := by
  cases h with
  | comma hw ha =>
    rw [List.append_assoc]
    exact stops_white hw (stops_cons (by decide) (by decide) (by decide) (by decide) _)

theorem WritesElements.stops {vs : List Value} (h : WritesElements false vs s) :
    Stops (s ++ 93 :: r) := by
  cases h with
  | nil hw => exact stops_white hw (stops_cons (by decide) (by decide) (by decide) (by decide) _)
  | cons hb =>
    rw [List.append_assoc, List.append_assoc]
    exact stops_between hb

theorem WritesMembers.stops {ms : List (String × Value)} (h : WritesMembers false ms s) :
    Stops (s ++ 125 :: r) := by
  cases h with
  | nil hw => exact stops_white hw (stops_cons (by decide) (by decide) (by decide) (by decide) _)
  | cons hb =>
    simp only [List.append_assoc]
    exact stops_between hb

mutual

/-- A value is passed over as a whole. -/
theorem Writes.skipped {v : Value} {u : Bytes} (h : Writes v u) {stack : List Frame} {s r : Bytes}
    (hs : skipSpace s = u ++ r) (hr : Stops r) :
    skipRest .value stack s = skipRest .member stack r := by
  cases h with
  | null | true | false => exact skipRest_scalar hs (by decide) (by decide) rfl
  | number hq =>
    obtain ⟨b, t, rfl, hb, hscalar⟩ := skipScalar_number hq hr
    have hother : b ≠ 91 ∧ b ≠ 123 := by
      constructor <;> (rintro rfl; simp [isDigit] at hb)
    exact skipRest_scalar hs hother.1 hother.2 hscalar
  | text ht =>
    cases ht with
    | @quoted u hu =>
      have htext : skipScalar 34 (u ++ [34] ++ r) = .ok r := by
        rw [List.append_assoc, skipScalar]
        exact skipText_writes hu r
      exact skipRest_scalar hs (by decide) (by decide) htext
  | @list vs u hvs =>
    rw [List.append_assoc] at hs
    rw [skipRest_openList hs]
    exact hvs.skipped
  | @object ms u hms =>
    rw [List.append_assoc] at hs
    rw [skipRest_openObject hs]
    exact hms.skipped

theorem WritesElements.skipped {first : Bool} {vs : List Value} {u : Bytes}
    (h : WritesElements first vs u) {stack : List Frame} {r : Bytes} :
    skipRest (awaiting first) (.list :: stack) (u ++ 93 :: r) = skipRest .member stack r := by
  cases h with
  | nil hw => exact skipRest_close (skipSpace_to hw (by decide) r)
  | @cons first v vs w u s hb hv hvs =>
    obtain ⟨b, t, rfl, hopens⟩ := hv.opensWith
    have hkey : ∀ a, White a → ∃ c, skipKey .list (a ++ b :: (t ++ s ++ 93 :: r)) = .ok c ∧
        skipSpace c = b :: t ++ (s ++ 93 :: r) := by
      intro a ha
      refine ⟨_, rfl, ?_⟩
      rw [skipSpace_to ha hopens.begins.1]
      simp
    obtain ⟨c, hc, hskip⟩ :=
      skipRest_between stack .list hb hopens.begins.1 hopens.begins.2 hkey
    have hsplit : w ++ b :: t ++ s ++ 93 :: r = w ++ b :: (t ++ s ++ 93 :: r) := by simp
    rw [hsplit, hskip, hv.skipped hc hvs.stops]
    exact hvs.skipped

theorem WritesMembers.skipped {first : Bool} {ms : List (String × Value)} {u : Bytes}
    (h : WritesMembers first ms u) {stack : List Frame} {r : Bytes} :
    skipRest (awaiting first) (.object :: stack) (u ++ 125 :: r) = skipRest .member stack r := by
  cases h with
  | nil hw => exact skipRest_close (skipSpace_to hw (by decide) r)
  | @cons first k v ms b t w a u s hb ht hw ha hv hms =>
    obtain ⟨d, x, hx, hopens⟩ := hv.opensWith
    obtain ⟨q, rfl⟩ : ∃ q, t = 34 :: q := by
      cases ht
      exact ⟨_, rfl⟩
    have hkey : ∀ c, White c → ∃ e,
        skipKey .object (c ++ 34 :: (q ++ w ++ 58 :: a ++ (u ++ (s ++ 125 :: r)))) = .ok e ∧
          skipSpace e = u ++ (s ++ 125 :: r) := by
      intro c hc
      obtain ⟨e, he, hskip⟩ := skipKey_member (t := u ++ (s ++ 125 :: r)) ht hc hw ha
      refine ⟨e, by rw [← he]; simp, hskip.trans ?_⟩
      rw [hx, List.cons_append, skipSpace_cons hopens.begins.1]
    obtain ⟨e, he, hskip⟩ :=
      skipRest_between stack .object hb (by decide) (by decide) hkey
    have hsplit : b ++ 34 :: q ++ w ++ 58 :: a ++ u ++ s ++ 125 :: r =
        b ++ 34 :: (q ++ w ++ 58 :: a ++ (u ++ (s ++ 125 :: r))) := by simp
    rw [hsplit, hskip, hv.skipped he hms.stops]
    exact hms.skipped

end

/-- A value is passed over, and nothing of what follows it. -/
theorem skipValue_writes {v : Value} {u w : Bytes} (h : Writes v u) (hw : White w) (hr : Stops r) :
    skipValue (w ++ u ++ r) = .ok r := by
  obtain ⟨b, t, rfl, hopens⟩ := h.opensWith
  have hs : skipSpace (w ++ b :: t ++ r) = b :: t ++ r := by
    rw [List.append_assoc]
    exact skipSpace_to hw hopens.begins.1 _
  rw [skipValue, h.skipped hs hr, skipRest]
  simp

end PubSub.Json
