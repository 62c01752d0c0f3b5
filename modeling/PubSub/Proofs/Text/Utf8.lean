import PubSub.Text.Utf8

/-!
# Text as bytes and back

Every text is read back from its bytes. The cases follow the four lengths of a written character;
the ranges of the second byte are where a character of three or four bytes needs its bounds.
-/

namespace PubSub.Utf8

private theorem toNat_toUInt8 {n : Nat} (h : n < 256) : n.toUInt8.toNat = n := by
  simp [Nat.toUInt8, Nat.mod_eq_of_lt h]

private theorem scalar_bounds (c : Char) :
    c.toNat < 0xD800 ∨ 0xDFFF < c.toNat ∧ c.toNat < 0x110000 := by
  have h := c.valid
  simp only [UInt32.isValidChar, Nat.isValidChar] at h
  exact h

private theorem tail?_toUInt8 {n : Nat} (h : n < 0x40) : tail? (0x80 + n).toUInt8 = some n := by
  have e := toNat_toUInt8 (n := 0x80 + n) (by omega)
  have hr : (0x80 : UInt8) ≤ (0x80 + n).toUInt8 ∧ (0x80 + n).toUInt8 ≤ 0xBF := by
    simp only [UInt8.le_iff_toNat_le, e, UInt8.toNat_ofNat]
    omega
  rw [tail?, if_pos hr, e, Nat.add_sub_cancel_left]

private theorem second?_toUInt8 {a : UInt8} {n : Nat} (h : n < 0x40)
    (h₁ : a.toNat = 0xE0 → 0x20 ≤ n) (h₂ : a.toNat = 0xED → n < 0x20)
    (h₃ : a.toNat = 0xF0 → 0x10 ≤ n) (h₄ : a.toNat = 0xF4 → n < 0x10) :
    second? a (0x80 + n).toUInt8 = some n := by
  have e := toNat_toUInt8 (n := 0x80 + n) (by omega)
  simp only [second?, ← UInt8.toNat_inj, UInt8.lt_iff_toNat_lt, e, UInt8.toNat_ofNat]
  rw [if_neg (by omega), if_neg (by omega), if_neg (by omega), if_neg (by omega)]
  exact tail?_toUInt8 h

theorem charAt_two {n : Nat} (t : Bytes) (h₁ : 0x80 ≤ n) (h₂ : n < 0x800) :
    charAt (0xC0 + n / 0x40).toUInt8 ((0x80 + n % 0x40).toUInt8 :: t) =
      (some (Char.ofNat n), t) := by
  have e := toNat_toUInt8 (n := 0xC0 + n / 0x40) (by omega)
  have hs := second?_toUInt8 (a := (0xC0 + n / 0x40).toUInt8) (n := n % 0x40) (by omega)
    (by omega) (by omega) (by omega) (by omega)
  simp only [charAt, hs, UInt8.lt_iff_toNat_lt, e, UInt8.toNat_ofNat]
  rw [if_neg (by omega), if_neg (by omega), if_pos (by omega),
    show (0xC0 + n / 0x40 - 0xC0) * 0x40 + n % 0x40 = n by omega]

theorem charAt_three {n : Nat} (t : Bytes) (h₁ : 0x800 ≤ n) (h₂ : n < 0x10000)
    (h₃ : n < 0xD800 ∨ 0xDFFF < n) :
    charAt (0xE0 + n / 0x1000).toUInt8
        ((0x80 + n / 0x40 % 0x40).toUInt8 :: (0x80 + n % 0x40).toUInt8 :: t) =
      (some (Char.ofNat n), t) := by
  have e := toNat_toUInt8 (n := 0xE0 + n / 0x1000) (by omega)
  have hs := second?_toUInt8 (a := (0xE0 + n / 0x1000).toUInt8) (n := n / 0x40 % 0x40) (by omega)
    (by omega) (by omega) (by omega) (by omega)
  have ht := tail?_toUInt8 (n := n % 0x40) (by omega)
  simp only [charAt, hs, ht, UInt8.lt_iff_toNat_lt, e, UInt8.toNat_ofNat]
  rw [if_neg (by omega), if_neg (by omega), if_neg (by omega), if_pos (by omega),
    show (0xE0 + n / 0x1000 - 0xE0) * 0x1000 + n / 0x40 % 0x40 * 0x40 + n % 0x40 = n by omega]

theorem charAt_four {n : Nat} (t : Bytes) (h₁ : 0x10000 ≤ n) (h₂ : n < 0x110000) :
    charAt (0xF0 + n / 0x40000).toUInt8
        ((0x80 + n / 0x1000 % 0x40).toUInt8 :: (0x80 + n / 0x40 % 0x40).toUInt8 ::
          (0x80 + n % 0x40).toUInt8 :: t) =
      (some (Char.ofNat n), t) := by
  have e := toNat_toUInt8 (n := 0xF0 + n / 0x40000) (by omega)
  have hs := second?_toUInt8 (a := (0xF0 + n / 0x40000).toUInt8) (n := n / 0x1000 % 0x40)
    (by omega) (by omega) (by omega) (by omega) (by omega)
  have ht := tail?_toUInt8 (n := n / 0x40 % 0x40) (by omega)
  have hu := tail?_toUInt8 (n := n % 0x40) (by omega)
  simp only [charAt, hs, ht, hu, UInt8.lt_iff_toNat_lt, e, UInt8.toNat_ofNat]
  rw [if_neg (by omega), if_neg (by omega), if_neg (by omega), if_neg (by omega),
    show (0xF0 + n / 0x40000 - 0xF0) * 0x40000 + n / 0x1000 % 0x40 * 0x1000 +
      n / 0x40 % 0x40 * 0x40 + n % 0x40 = n by omega]

/-- A written character is read back, whatever follows it. -/
theorem charAt_encodeChar (c : Char) :
    ∃ a s, encodeChar c = a :: s ∧ ∀ t, charAt a (s ++ t) = (some c, t) := by
  have hc := scalar_bounds c
  have hr : Char.ofNat c.toNat = c := Char.ofNat_toNat c
  unfold encodeChar
  by_cases h₁ : c.toNat < 0x80
  · refine ⟨_, _, if_pos h₁, fun t => ?_⟩
    have e := toNat_toUInt8 (n := c.toNat) (by omega)
    simp only [charAt, UInt8.lt_iff_toNat_lt, e, UInt8.toNat_ofNat]
    rw [if_pos (by omega), hr]
    rfl
  · by_cases h₂ : c.toNat < 0x800
    · refine ⟨_, _, by rw [if_neg h₁, if_pos h₂], fun t => ?_⟩
      have := charAt_two t (by omega) h₂
      rw [hr] at this
      exact this
    · by_cases h₃ : c.toNat < 0x10000
      · refine ⟨_, _, by rw [if_neg h₁, if_neg h₂, if_pos h₃], fun t => ?_⟩
        have := charAt_three t (by omega) h₃ (by omega)
        rw [hr] at this
        exact this
      · refine ⟨_, _, by rw [if_neg h₁, if_neg h₂, if_neg h₃], fun t => ?_⟩
        have := charAt_four t (by omega) (by omega : c.toNat < 0x110000)
        rw [hr] at this
        exact this

theorem decode?_cons_append {c : Char} (t : Bytes) :
    decode? (encodeChar c ++ t) = (decode? t).map (c :: ·) := by
  obtain ⟨a, s, he, hc⟩ := charAt_encodeChar c
  rw [he, List.cons_append, decode?]
  split
  · next h => rw [hc t] at h; simp at h
  · next c' r h =>
    rw [hc t] at h
    simp only [Prod.mk.injEq, Option.some.injEq] at h
    rw [h.1, h.2]

theorem decode?_encode (cs : List Char) : decode? (encode cs) = some cs := by
  induction cs with
  | nil => rw [encode, List.flatMap_nil, decode?]
  | cons c cs ih =>
    rw [encode] at ih ⊢
    rw [List.flatMap_cons, decode?_cons_append, ih]
    rfl

theorem toText?_ofText (s : String) : toText? (ofText s) = some s := by
  rw [toText?, ofText, decode?_encode]
  simp

theorem decodeLossy_encode (cs : List Char) : decodeLossy (encode cs) = cs := by
  induction cs with
  | nil => rw [encode, List.flatMap_nil, decodeLossy]
  | cons c cs ih =>
    obtain ⟨a, s, hbytes, hread⟩ := charAt_encodeChar c
    rw [encode, List.flatMap_cons, hbytes, List.cons_append, decodeLossy]
    split
    next c' r h =>
    rw [hread] at h
    obtain ⟨rfl, rfl⟩ := Prod.mk.inj h
    rw [← encode, ih]
    rfl

theorem encode_inj {s t : List Char} : encode s = encode t ↔ s = t := by
  refine ⟨fun h => ?_, congrArg encode⟩
  have hread : decode? (encode s) = decode? (encode t) := congrArg decode? h
  rw [decode?_encode, decode?_encode] at hread
  exact Option.some.inj hread

theorem encode_append (s t : List Char) : encode (s ++ t) = encode s ++ encode t :=
  List.flatMap_append

/-- A byte below 128 stands for the character of its number. -/
theorem ascii_mem_encode {b : UInt8} {s : List Char} (hb : b.toNat < 128) (h : b ∈ encode s) :
    Char.ofNat b.toNat ∈ s := by
  obtain ⟨c, hc, hbyte⟩ := List.mem_flatMap.1 h
  have hscalar := scalar_bounds c
  unfold encodeChar at hbyte
  dsimp only at hbyte
  split at hbyte
  · rw [List.mem_singleton.1 hbyte, toNat_toUInt8 (by omega), Char.ofNat_toNat]
    exact hc
  -- All bytes of a longer character are at least 128.
  · have hhigh : ∀ n, 128 ≤ n → n < 256 → b ≠ n.toUInt8 := by
      rintro n hlow hup rfl
      rw [toNat_toUInt8 hup] at hb
      omega
    split at hbyte
    · simp only [List.mem_cons, List.not_mem_nil, or_false] at hbyte
      rcases hbyte with h | h <;> exact absurd h (hhigh _ (by omega) (by omega))
    · split at hbyte <;> simp only [List.mem_cons, List.not_mem_nil, or_false] at hbyte
      · rcases hbyte with h | h | h <;> exact absurd h (hhigh _ (by omega) (by omega))
      · rcases hbyte with h | h | h | h <;> exact absurd h (hhigh _ (by omega) (by omega))

theorem encodeChar_ascii {b : UInt8} (h : b < 128) : encodeChar (Char.ofNat b.toNat) = [b] := by
  have hb : b.toNat < 128 := h
  have hn : (Char.ofNat b.toNat).toNat = b.toNat := by
    rw [Char.ofNat, dif_pos (.inl (by omega))]
    rfl
  rw [encodeChar, hn, if_pos hb]
  simp [Nat.toUInt8]

/-- Bytes below 128 are the text of the characters of these numbers. -/
theorem ofText_ascii (s : Bytes) (h : ∀ b ∈ s, b < 128) :
    ofText (String.ofList (s.map fun b => Char.ofNat b.toNat)) = s := by
  rw [ofText, String.toList_ofList]
  induction s with
  | nil => rfl
  | cons b s ih =>
    have hs := ih fun c hc => h c (List.mem_cons_of_mem _ hc)
    rw [List.map_cons, encode, List.flatMap_cons, encodeChar_ascii (h b List.mem_cons_self),
      ← encode, hs]
    rfl

end PubSub.Utf8
