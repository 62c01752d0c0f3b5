import PubSub.Text.Base64

/-!
# Base64 is read back

`decode_encode` holds for every byte string: the last group decides by its padding how many bytes
it stands for, all others stand for three. Nothing but what is written so is read
(`decode_eq_ok_iff`).
-/

namespace PubSub.Base64

theorem value?_symbol {n : Nat} (h : n < 64) : value? (symbol n) = some n := by
  have : ∀ n : Fin 64, value? (symbol n) = some n.val := by decide
  exact this ⟨n, h⟩

theorem symbol_ne_padding {n : Nat} (h : n < 64) : symbol n ≠ padding := by
  have : ∀ n : Fin 64, symbol n ≠ padding := by decide
  exact this ⟨n, h⟩

theorem valueAt_symbol (offset : Nat) {n : Nat} (h : n < 64) :
    valueAt offset (symbol n) = .ok n := by
  rw [valueAt, value?_symbol h]

/-! ## The last group -/

theorem lastValues_symbol (start place : Nat) {n : Nat} (h : n < 64) (rest : Bytes) :
    lastValues start place none (symbol n :: rest) =
      (lastValues start (place + 1) none rest).map fun p => (n :: p.1, p.2) := by
  rw [lastValues, if_neg (symbol_ne_padding h), valueAt_symbol _ h]
  cases lastValues start (place + 1) none rest <;> rfl

theorem decodeLast_one (start : Nat) {x y : Nat} (hx : x < 64) (hy : y < 64) (h : y % 16 = 0) :
    decodeLast start [symbol x, symbol y, padding, padding] =
      .ok [(x * 4 + y / 16).toUInt8] := by
  have hv : lastValues start 0 none [symbol x, symbol y, padding, padding] = .ok ([x, y], 2) := by
    rw [lastValues_symbol _ _ hx, lastValues_symbol _ _ hy]
    rfl
  simp [decodeLast, hv, h, bind, Except.bind]

theorem decodeLast_two (start : Nat) {x y z : Nat} (hx : x < 64) (hy : y < 64) (hz : z < 64)
    (h : z % 4 = 0) :
    decodeLast start [symbol x, symbol y, symbol z, padding] =
      .ok [(x * 4 + y / 16).toUInt8, (y % 16 * 16 + z / 4).toUInt8] := by
  have hv : lastValues start 0 none [symbol x, symbol y, symbol z, padding] =
      .ok ([x, y, z], 1) := by
    rw [lastValues_symbol _ _ hx, lastValues_symbol _ _ hy, lastValues_symbol _ _ hz]
    rfl
  simp [decodeLast, hv, h, bind, Except.bind]

theorem decodeLast_three (start : Nat) {x y z w : Nat} (hx : x < 64) (hy : y < 64) (hz : z < 64)
    (hw : w < 64) :
    decodeLast start [symbol x, symbol y, symbol z, symbol w] =
      .ok [(x * 4 + y / 16).toUInt8, (y % 16 * 16 + z / 4).toUInt8, (z % 4 * 64 + w).toUInt8] := by
  have hv : lastValues start 0 none [symbol x, symbol y, symbol z, symbol w] =
      .ok ([x, y, z, w], 0) := by
    rw [lastValues_symbol _ _ hx, lastValues_symbol _ _ hy, lastValues_symbol _ _ hz,
      lastValues_symbol _ _ hw]
    rfl
  simp [decodeLast, hv, bind, Except.bind]

/-! ## Whole texts -/

private theorem toUInt8_eq {a : UInt8} {n : Nat} (h : n = a.toNat) : n.toUInt8 = a := by
  rw [h]
  simp [Nat.toUInt8]

/-- Four symbols with more behind them are a group of their own. -/
theorem decodeFrom_group (start : Nat) {x y z w : Nat} (hx : x < 64) (hy : y < 64) (hz : z < 64)
    (hw : w < 64) (e : UInt8) (rest : Bytes) :
    decodeFrom start (symbol x :: symbol y :: symbol z :: symbol w :: e :: rest) =
      (decodeFrom (start + 4) (e :: rest)).map ([(x * 4 + y / 16).toUInt8,
        (y % 16 * 16 + z / 4).toUInt8, (z % 4 * 64 + w).toUInt8] ++ ·) := by
  rw [decodeFrom, valueAt_symbol _ hx, valueAt_symbol _ hy, valueAt_symbol _ hz,
    valueAt_symbol _ hw]
  cases decodeFrom (start + 4) (e :: rest) <;> rfl

theorem encode_cons (a : UInt8) (s : Bytes) : ∃ e t, encode (a :: s) = e :: t := by
  match s with
  | [] | [_] | _ :: _ :: _ => exact ⟨_, _, rfl⟩

/-- Only at the front of a text may there be nothing to decode. -/
theorem decodeFrom_encode (start : Nat) (s : Bytes) (h : start = 0 ∨ s ≠ []) :
    decodeFrom start (encode s) = .ok s := by
  match s with
  | [] =>
    obtain rfl : start = 0 := h.resolve_right (by simp)
    rfl
  | [a] =>
    have := a.toNat_lt
    rw [encode, decodeFrom, decodeLast_one _ (by omega) (by omega) (by omega),
      toUInt8_eq (a := a) (by omega)]
    all_goals simp
  | [a, b] =>
    have := a.toNat_lt
    have := b.toNat_lt
    rw [encode, decodeFrom, decodeLast_two _ (by omega) (by omega) (by omega) (by omega),
      toUInt8_eq (a := a) (by omega), toUInt8_eq (a := b) (by omega)]
    all_goals simp
  | [a, b, c] =>
    have := a.toNat_lt
    have := b.toNat_lt
    have := c.toNat_lt
    rw [encode, encode, decodeFrom, decodeLast_three _ (by omega) (by omega) (by omega) (by omega),
      toUInt8_eq (a := a) (by omega), toUInt8_eq (a := b) (by omega),
      toUInt8_eq (a := c) (by omega)]
    all_goals simp
  | a :: b :: c :: d :: rest =>
    have := a.toNat_lt
    have := b.toNat_lt
    have := c.toNat_lt
    have ih := decodeFrom_encode (start + 4) (d :: rest) (.inr (by simp))
    obtain ⟨e, t, he⟩ := encode_cons d rest
    rw [encode, he, decodeFrom_group _ (by omega) (by omega) (by omega) (by omega), ← he, ih,
      toUInt8_eq (a := a) (by omega), toUInt8_eq (a := b) (by omega),
      toUInt8_eq (a := c) (by omega)]
    rfl

theorem encode_length (s : Bytes) : (encode s).length % 4 = 0 := by
  match s with
  | [] | [_] | [_, _] => simp [encode]
  | _ :: _ :: _ :: rest =>
    have := encode_length rest
    simp only [encode, List.length_cons]
    omega

theorem decode_encode (s : Bytes) : decode (encode s) = .ok s := by
  have h : strayLast? (encode s) = none := by
    rw [strayLast?, if_neg (by rw [encode_length]; omega)]
  rw [decode, h]
  exact decodeFrom_encode 0 s (.inl rfl)

theorem symbol_lt (n : Nat) : symbol n < 128 := by
  by_cases h : n < 64
  · have : ∀ n : Fin 64, symbol n < 128 := by decide
    exact this ⟨n, h⟩
  · rw [symbol, if_neg (by omega), if_neg (by omega), if_neg (by omega), if_neg (by omega)]
    decide

theorem encode_lt (s : Bytes) : ∀ b ∈ encode s, b < 128 := by
  match s with
  | [] => simp [encode]
  | [_] | [_, _] => simp [encode, symbol_lt, padding]
  | _ :: _ :: _ :: rest =>
    have ih := encode_lt rest
    simp only [encode, List.mem_cons]
    rintro b (rfl | rfl | rfl | rfl | hb)
    · exact symbol_lt _
    · exact symbol_lt _
    · exact symbol_lt _
    · exact symbol_lt _
    · exact ih b hb

/-! ## Nothing else is read -/

theorem symbol_of_value? {b : UInt8} {v : Nat} (h : value? b = some v) : v < 64 ∧ b = symbol v := by
  have hall : ∀ k : Fin 256, ∀ v ∈ value? k.val.toUInt8, v < 64 ∧ k.val.toUInt8 = symbol v := by
    decide +kernel
  have hb := hall ⟨b.toNat, b.toNat_lt⟩ v
  rw [show b.toNat.toUInt8 = b from toUInt8_eq rfl] at hb
  exact hb h

theorem valueAt_eq_ok {offset v : Nat} {b : UInt8} (h : valueAt offset b = .ok v) :
    v < 64 ∧ b = symbol v := by
  rw [valueAt] at h
  split at h
  · next hv =>
    cases h
    exact symbol_of_value? hv
  · cases h

/-- The last group is symbols with padding behind them. -/
theorem lastValues_eq_ok {start place : Nat} {first : Option Nat} {s : Bytes} {vs : List Nat}
    {pads : Nat} (h : lastValues start place first s = .ok (vs, pads)) :
    (∀ v ∈ vs, v < 64) ∧ s = vs.map symbol ++ List.replicate pads padding ∧
      (first ≠ none → vs = []) := by
  induction s generalizing place first vs pads with
  | nil =>
    cases h
    simp
  | cons b s ih =>
    rw [lastValues.eq_def] at h
    dsimp only at h
    split at h
    · next hb =>
      split at h
      · cases h
      · cases hrest : lastValues start (place + 1) (some (first.getD place)) s with
        | error e => simp [hrest, bind, Except.bind] at h
        | ok p =>
          obtain ⟨ws, n⟩ := p
          simp only [hrest, bind, Except.bind, pure, Except.pure, Except.ok.injEq,
            Prod.mk.injEq] at h
          obtain ⟨rfl, rfl⟩ := h
          obtain ⟨-, hs, hnone⟩ := ih hrest
          obtain rfl := hnone (by simp)
          simp [hs, hb, List.replicate_succ]
    · cases first with
      | some p => cases h
      | none =>
        cases hv : valueAt (start + place) b with
        | error e => simp [hv, bind, Except.bind] at h
        | ok v =>
          cases hrest : lastValues start (place + 1) none s with
          | error e => simp [hv, hrest, bind, Except.bind] at h
          | ok p =>
            obtain ⟨ws, n⟩ := p
            simp only [hv, hrest, bind, Except.bind, pure, Except.pure, Except.ok.injEq,
              Prod.mk.injEq] at h
            obtain ⟨rfl, rfl⟩ := h
            obtain ⟨hlt, hs, -⟩ := ih hrest
            obtain ⟨hv64, hb⟩ := valueAt_eq_ok hv
            refine ⟨List.forall_mem_cons.2 ⟨hv64, hlt⟩, ?_, fun hne => absurd rfl hne⟩
            rw [hs, hb, List.map_cons, List.cons_append]

private theorem toUInt8_toNat {n : Nat} (h : n < 256) : n.toUInt8.toNat = n := by
  simp [Nat.toUInt8, Nat.mod_eq_of_lt h]

/-! The symbols of a group are those of the bytes that it stands for. -/

theorem encode_one {x y : Nat} (hx : x < 64) (hy : y < 64) (h : y % 16 = 0) :
    encode [(x * 4 + y / 16).toUInt8] = [symbol x, symbol y, padding, padding] := by
  have hn := toUInt8_toNat (n := x * 4 + y / 16) (by omega)
  rw [encode, hn, show (x * 4 + y / 16) / 4 = x by omega,
    show (x * 4 + y / 16) % 4 * 16 = y by omega]

theorem encode_two {x y z : Nat} (hx : x < 64) (hy : y < 64) (hz : z < 64) (h : z % 4 = 0) :
    encode [(x * 4 + y / 16).toUInt8, (y % 16 * 16 + z / 4).toUInt8] =
      [symbol x, symbol y, symbol z, padding] := by
  have hn := toUInt8_toNat (n := x * 4 + y / 16) (by omega)
  have hm := toUInt8_toNat (n := y % 16 * 16 + z / 4) (by omega)
  rw [encode, hn, hm, show (x * 4 + y / 16) / 4 = x by omega,
    show (x * 4 + y / 16) % 4 * 16 + (y % 16 * 16 + z / 4) / 16 = y by omega,
    show (y % 16 * 16 + z / 4) % 16 * 4 = z by omega]

theorem encode_group {x y z w : Nat} (hx : x < 64) (hy : y < 64) (hz : z < 64) (hw : w < 64)
    (s : Bytes) :
    encode ((x * 4 + y / 16).toUInt8 :: (y % 16 * 16 + z / 4).toUInt8 ::
        (z % 4 * 64 + w).toUInt8 :: s) =
      symbol x :: symbol y :: symbol z :: symbol w :: encode s := by
  have hn := toUInt8_toNat (n := x * 4 + y / 16) (by omega)
  have hm := toUInt8_toNat (n := y % 16 * 16 + z / 4) (by omega)
  have hk := toUInt8_toNat (n := z % 4 * 64 + w) (by omega)
  rw [encode, hn, hm, hk, show (x * 4 + y / 16) / 4 = x by omega,
    show (x * 4 + y / 16) % 4 * 16 + (y % 16 * 16 + z / 4) / 16 = y by omega,
    show (y % 16 * 16 + z / 4) % 16 * 4 + (z % 4 * 64 + w) / 64 = z by omega,
    show (z % 4 * 64 + w) % 64 = w by omega]

theorem decodeLast_eq_ok {start : Nat} {group bs : Bytes} (hlen : group.length ≤ 4)
    (h : decodeLast start group = .ok bs) : group = encode bs := by
  rw [decodeLast] at h
  cases hl : lastValues start 0 none group with
  | error e => simp [hl, bind, Except.bind] at h
  | ok p =>
    obtain ⟨vs, pads⟩ := p
    obtain ⟨hlt, hgroup, -⟩ := lastValues_eq_ok hl
    have hcount : group.length = vs.length + pads := by simp [hgroup]
    simp only [hl, bind, Except.bind] at h
    split at h
    · cases h
    · next hshort =>
      split at h
      · cases h
      · next hfull =>
        -- how many symbols stand before the padding
        match vs with
        | [] =>
          obtain rfl : pads = 0 := by
            simp only [List.length_nil] at hshort hcount
            omega
          cases h
          exact hgroup
        | [x] =>
          simp only [List.length_cons, List.length_nil] at hshort hcount
          omega
        | [x, y] =>
          obtain rfl : pads = 2 := by
            simp only [List.length_cons, List.length_nil] at hcount hfull
            omega
          dsimp only at h
          split at h
          · next hlast =>
            cases h
            rw [hgroup, encode_one (hlt x (by simp)) (hlt y (by simp)) hlast]
            rfl
          · cases h
        | [x, y, z] =>
          obtain rfl : pads = 1 := by
            simp only [List.length_cons, List.length_nil] at hcount hfull
            omega
          dsimp only at h
          split at h
          · next hlast =>
            cases h
            rw [hgroup, encode_two (hlt x (by simp)) (hlt y (by simp)) (hlt z (by simp)) hlast]
            rfl
          · cases h
        | [x, y, z, w] =>
          obtain rfl : pads = 0 := by
            simp only [List.length_cons, List.length_nil] at hcount
            omega
          cases h
          rw [hgroup, encode_group (hlt x (by simp)) (hlt y (by simp)) (hlt z (by simp))
            (hlt w (by simp))]
          rfl
        | _ :: _ :: _ :: _ :: _ :: vs =>
          simp only [List.length_cons] at hcount
          omega

theorem decodeFrom_eq_ok {start : Nat} {s bs : Bytes} (h : decodeFrom start s = .ok bs) :
    s = encode bs := by
  fun_induction decodeFrom start s generalizing bs with
  | case1 start a b c d e rest ih =>
    simp only [bind, Except.bind, pure, Except.pure] at h
    split at h
    · cases h
    · next x hx =>
      split at h
      · cases h
      · next y hy =>
        split at h
        · cases h
        · next z hz =>
          split at h
          · cases h
          · next w hw =>
            split at h
            · cases h
            · next more hmore =>
              cases h
              obtain ⟨hx64, rfl⟩ := valueAt_eq_ok hx
              obtain ⟨hy64, rfl⟩ := valueAt_eq_ok hy
              obtain ⟨hz64, rfl⟩ := valueAt_eq_ok hz
              obtain ⟨hw64, rfl⟩ := valueAt_eq_ok hw
              rw [encode_group hx64 hy64 hz64 hw64, ih hmore]
  | case2 start group hshort =>
    refine decodeLast_eq_ok ?_ h
    match group, hshort with
    | [], _ | [_], _ | [_, _], _ | [_, _, _], _ | [_, _, _, _], _ => simp
    | a :: b :: c :: d :: e :: rest, hshort => exact absurd rfl (hshort a b c d e rest)

/-- A byte string has one written form, and nothing else is read as it. -/
theorem decode_eq_ok_iff {s bs : Bytes} : decode s = .ok bs ↔ s = encode bs := by
  constructor
  · intro h
    rw [decode] at h
    split at h
    · cases h
    · exact decodeFrom_eq_ok h
  · rintro rfl
    exact decode_encode bs

end PubSub.Base64
