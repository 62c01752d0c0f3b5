import PubSub.Url.Percent
import PubSub.Proofs.Text.Utf8

/-!
# Percent encoding and back

A text without a percent sign is read back from its encoding, whichever characters are encoded
(`decode_encode`), and the encoding is the text itself just when no character is (`encode_eq_iff`).
-/

namespace PubSub

theorem Hex.value?_upper : ∀ n < 16, Hex.value? (Hex.upper n) = some n := by
  decide

namespace Percent

variable {set : Char → Bool} {s : List Char}

/-! ## Reading back -/

theorem decode_encodeByte (b : UInt8) (r : List Char) :
    decode (encodeByte b ++ r) = b :: decode r := by
  have hb : b.toNat < 256 := b.toNat_lt
  have hhigh := Hex.value?_upper (b.toNat / 16) (by omega)
  have hlow := Hex.value?_upper (b.toNat % 16) (by omega)
  have hbyte : (b.toNat / 16 * 16 + b.toNat % 16).toUInt8 = b := by
    rw [Nat.div_add_mod']
    exact UInt8.ofNat_toNat
  show decode ('%' :: Hex.upper (b.toNat / 16) :: Hex.upper (b.toNat % 16) :: r) = _
  rw [decode, hhigh, hlow]
  exact congrArg (· :: decode r) hbyte

theorem decode_encodeBytes (bs : Bytes) (r : List Char) :
    decode (bs.flatMap encodeByte ++ r) = bs ++ decode r := by
  induction bs with
  | nil => rfl
  | cons b bs ih =>
    rw [List.flatMap_cons, List.append_assoc, decode_encodeByte, ih, List.cons_append]

theorem decode_cons {c : Char} (hc : c ≠ '%') (r : List Char) :
    decode (c :: r) = Utf8.encodeChar c ++ decode r := by
  rw [decode]
  exact fun _ _ _ h => absurd h hc

theorem encode_cons (set : Char → Bool) (c : Char) (s : List Char) :
    encode set (c :: s) = (if set c then encodeChar c else [c]) ++ encode set s :=
  List.flatMap_cons

theorem encode_append (set : Char → Bool) (s t : List Char) :
    encode set (s ++ t) = encode set s ++ encode set t :=
  List.flatMap_append

/-- What is encoded is the bytes of the text, and all else is read as it stands. -/
theorem decode_encode (set : Char → Bool) (hs : '%' ∉ s) :
    decode (encode set s) = Utf8.encode s := by
  induction s with
  | nil => rw [encode, List.flatMap_nil, decode, Utf8.encode, List.flatMap_nil]
  | cons c s ih =>
    have hrest : decode (encode set s) = Utf8.encode s := ih fun h => hs (List.mem_cons_of_mem _ h)
    have hc : c ≠ '%' := fun h => hs (h ▸ List.mem_cons_self)
    have hbytes : Utf8.encode (c :: s) = Utf8.encodeChar c ++ Utf8.encode s := List.flatMap_cons
    rw [encode_cons, hbytes, ← hrest]
    split
    · exact decode_encodeBytes _ _
    · exact decode_cons hc _

/-! ## What is left as it stands -/

theorem encode_eq_self (h : ∀ c ∈ s, set c = false) : encode set s = s := by
  induction s with
  | nil => rfl
  | cons c s ih =>
    rw [encode_cons, h c List.mem_cons_self, ih fun c hc => h c (List.mem_cons_of_mem _ hc)]
    rfl

theorem percent_mem_encodeChar (c : Char) : '%' ∈ encodeChar c := by
  obtain ⟨a, bs, hbytes, -⟩ := Utf8.charAt_encodeChar c
  rw [encodeChar, hbytes]
  exact List.mem_cons_self

theorem encode_eq_iff (hs : '%' ∉ s) : encode set s = s ↔ ∀ c ∈ s, set c = false := by
  refine ⟨fun h c hc => ?_, encode_eq_self⟩
  -- An encoded character would leave its percent sign in the text.
  cases hset : set c with
  | false => rfl
  | true =>
    have hsign : '%' ∈ encode set s := by
      refine List.mem_flatMap.2 ⟨c, hc, ?_⟩
      rw [if_pos hset]
      exact percent_mem_encodeChar c
    exact absurd (h ▸ hsign) hs

/-- The encoding brings no slash to the front. -/
theorem dropWhile_encode (h : s.head? ≠ some '/') :
    (encode set s).dropWhile (· = '/') = encode set s := by
  cases s with
  | nil => rfl
  | cons c s =>
    have hc : c ≠ '/' := fun hc => h (congrArg some hc)
    rw [encode_cons]
    split
    · obtain ⟨a, bs, hbytes, -⟩ := Utf8.charAt_encodeChar c
      rw [encodeChar, hbytes]
      rfl
    · rw [List.singleton_append, List.dropWhile_cons_of_neg (by simpa using hc)]

/-- A character of an encoding stood in the text, or is a percent sign or a digit. -/
theorem mem_encode {c : Char} (h : c ∈ encode set s) :
    c ∈ s ∨ c = '%' ∨ ∃ n < 16, c = Hex.upper n := by
  obtain ⟨x, hx, hc⟩ := List.mem_flatMap.1 h
  split at hc
  · obtain ⟨b, -, hb⟩ := List.mem_flatMap.1 hc
    have hbound : b.toNat < 256 := b.toNat_lt
    simp only [encodeByte, List.mem_cons, List.not_mem_nil, or_false] at hb
    rcases hb with rfl | rfl | rfl
    · exact .inr (.inl rfl)
    · exact .inr (.inr ⟨b.toNat / 16, by omega, rfl⟩)
    · exact .inr (.inr ⟨b.toNat % 16, by omega, rfl⟩)
  · exact .inl (List.mem_singleton.1 hc ▸ hx)

end Percent

end PubSub
