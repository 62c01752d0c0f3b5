import PubSub.Json.Failure

/-!
# Scanning JSON

Each scanner takes the bytes that are left and returns what it read with the bytes after it. The
lemmas beside them say that a scanner that succeeds leaves the last of the bytes it was given, and
fewer than these if it must read at least one.
-/

namespace PubSub.Json

abbrev Scan (α : Type) := Except (Failure Flaw) (α × Bytes)

def fail {α κ : Type} (cause : κ) (rest : Bytes) (aim : Aim) : Except (Failure κ) α :=
  .error ⟨cause, rest, aim⟩

/-- Only the bytes after what was read. -/
def restOf {α : Type} (x : Scan α) : Except (Failure Flaw) Bytes :=
  match x with
  | .error e => .error e
  | .ok (_, r) => .ok r

theorem eq_ok_of_restOf {α : Type} {x : Scan α} {r : Bytes} (h : restOf x = .ok r) :
    ∃ a, x = .ok (a, r) := by
  unfold restOf at h
  split at h
  · simp at h
  · next a t => exact ⟨a, by simp_all⟩

/-! ## What is left -/

/-- After reading `s` its last bytes `r` are left, and not all of them. -/
structure Left (r s : Bytes) : Prop where
  suffix : r <:+ s
  shorter : r.length < s.length

namespace Left

variable {b : UInt8} {r s t : Bytes}

theorem of_cons (h : b :: r <:+ s) : Left r s :=
  ⟨(List.suffix_cons b r).trans h, h.length_le⟩

theorem cons (b : UInt8) (s : Bytes) : Left s (b :: s) := of_cons (List.suffix_refl _)

theorem before (h : Left t s) (hr : r <:+ t) : Left r s :=
  ⟨hr.trans h.suffix, Nat.lt_of_le_of_lt hr.length_le h.shorter⟩

theorem after (h : Left r t) (ht : t <:+ s) : Left r s :=
  ⟨h.suffix.trans ht, Nat.lt_of_lt_of_le h.shorter ht.length_le⟩

end Left

/-! ## White space and literals -/

def isSpace (b : UInt8) : Bool := b = 32 ∨ b = 10 ∨ b = 9 ∨ b = 13

def skipSpace (s : Bytes) : Bytes := s.dropWhile isSpace

theorem skipSpace_suffix (s : Bytes) : skipSpace s <:+ s := List.dropWhile_suffix isSpace

theorem skipSpace_left {b : UInt8} {r s : Bytes} (h : skipSpace s = b :: r) : Left r s :=
  .of_cons (h ▸ skipSpace_suffix s)

/-- The rest after the bytes `word`, which must come next. -/
def literal : (word s : Bytes) → Except (Failure Flaw) Bytes
  | [], s => .ok s
  | _ :: _, [] => fail .endInValue [] .read
  | a :: word, b :: s => if a = b then literal word s else fail .literalExpected s .read

theorem literal_suffix {word s r : Bytes} (h : literal word s = .ok r) : r <:+ s := by
  induction word generalizing s with
  | nil =>
    cases h
    exact List.suffix_refl _
  | cons a word ih =>
    cases s with
    | nil => simp [literal, fail] at h
    | cons b s =>
      simp only [literal] at h
      split at h
      · exact (ih h).trans (List.suffix_cons b s)
      · simp [fail] at h

/-! ## Strings -/

def hexValue? (b : UInt8) : Option Nat := Hex.value? (Char.ofNat b.toNat)

/-- The number that four hexadecimal digits write. -/
def hexUnit : Bytes → Scan Nat
  | a :: b :: c :: d :: s =>
    match hexValue? a, hexValue? b, hexValue? c, hexValue? d with
    | some w, some x, some y, some z => .ok (((w * 16 + x) * 16 + y) * 16 + z, s)
    | _, _, _, _ => fail .invalidEscape s .read
  | _ => fail .endInString [] .read

def isLeading (n : Nat) : Bool := 0xD800 ≤ n ∧ n ≤ 0xDBFF

def isTrailing (n : Nat) : Bool := 0xDC00 ≤ n ∧ n ≤ 0xDFFF

/-- The byte `b`, which must come next within a numbered escape. -/
def escapePart (b : UInt8) : Bytes → Except (Failure Flaw) Bytes
  | [] => fail .endInString [] .read
  | a :: s => if a = b then .ok s else fail .hexEscapeEnded s .read

/-- The second half of a pair whose first half is the leading surrogate `n`. -/
def pairWith (n : Nat) (s : Bytes) : Scan Bytes :=
  match escapePart 92 s with
  | .error e => .error e
  | .ok s =>
    match escapePart 117 s with
    | .error e => .error e
    | .ok s =>
      match hexUnit s with
      | .error e => .error e
      | .ok (m, s) =>
        if isTrailing m then
          .ok (Utf8.encodeChar (Char.ofNat (0x10000 + (n - 0xD800) * 0x400 + (m - 0xDC00))), s)
        else fail .loneSurrogate s .read

/-- A character by its number, after `\u`; above the first plane it takes two of them. -/
def numbered (s : Bytes) : Scan Bytes :=
  match hexUnit s with
  | .error e => .error e
  | .ok (n, s) =>
    if isTrailing n then fail .loneSurrogate s .read
    else if isLeading n then pairWith n s
    else .ok (Utf8.encodeChar (Char.ofNat n), s)

/-- What a backslash and the byte `b` stand for. -/
def shortEscape? (b : UInt8) : Option UInt8 :=
  if b = 34 ∨ b = 92 ∨ b = 47 then some b
  else if b = 98 then some 8
  else if b = 102 then some 12
  else if b = 110 then some 10
  else if b = 114 then some 13
  else if b = 116 then some 9
  else none

/-- The bytes that an escape stands for, after its backslash. -/
def escape : Bytes → Scan Bytes
  | [] => fail .endInString [] .read
  | b :: s =>
    if b = 117 then numbered s
    else
      match shortEscape? b with
      | some c => .ok ([c], s)
      | none => fail .invalidEscape s .read

theorem hexUnit_suffix {s r : Bytes} {n : Nat} (h : hexUnit s = .ok (n, r)) : r <:+ s := by
  unfold hexUnit at h
  split at h
  · next a b c d t =>
    split at h
    · cases h
      exact ⟨[a, b, c, d], rfl⟩
    · simp [fail] at h
  · simp [fail] at h

theorem escapePart_suffix {b : UInt8} {s r : Bytes} (h : escapePart b s = .ok r) : r <:+ s := by
  unfold escapePart at h
  split at h
  · cases h
  · next a t =>
    split at h
    · cases h
      exact List.suffix_cons a r
    · cases h

theorem pairWith_suffix {n : Nat} {s r c : Bytes} (h : pairWith n s = .ok (c, r)) : r <:+ s := by
  unfold pairWith at h
  split at h
  · cases h
  · next t backslash =>
    split at h
    · cases h
    · next u letter =>
      split at h
      · cases h
      · next m v unit =>
        split at h
        · simp only [Except.ok.injEq, Prod.mk.injEq] at h
          obtain ⟨-, rfl⟩ := h
          have escaped := (escapePart_suffix letter).trans (escapePart_suffix backslash)
          exact (hexUnit_suffix unit).trans escaped
        · cases h

theorem numbered_suffix {s r c : Bytes} (h : numbered s = .ok (c, r)) : r <:+ s := by
  unfold numbered at h
  split at h
  · cases h
  · next n t unit =>
    split at h
    · cases h
    · split at h
      · exact (pairWith_suffix h).trans (hexUnit_suffix unit)
      · cases h
        exact hexUnit_suffix unit

theorem escape_left {s r c : Bytes} (h : escape s = .ok (c, r)) : Left r s := by
  unfold escape at h
  split at h
  · cases h
  · next b t =>
    split at h
    · exact (Left.cons b t).before (numbered_suffix h)
    · split at h
      · cases h
        exact .cons b r
      · cases h

/-- The bytes of a string after its opening quote. `seen` holds those read so far, last first. -/
def textBytes (seen s : Bytes) : Scan Bytes :=
  match s with
  | [] => fail .endInString [] .read
  | b :: s =>
    if b = 34 then .ok (seen.reverse, s)
    else if b = 92 then
      match _h : escape s with
      | .error e => .error e
      | .ok (c, r) => textBytes (c.reverse ++ seen) r
    else if b < 32 then fail .controlCharacter s .read
    else textBytes (b :: seen) s
termination_by s.length
decreasing_by
  · have := (escape_left _h).shorter
    simp only [List.length_cons]
    omega
  · simp

/-- What follows the first byte that no character of a string goes on with. -/
def afterInvalid (s : Bytes) : Bytes :=
  match s with
  | [] => []
  | b :: s =>
    if b = 92 then
      match _h : escape s with
      | .error _ => s
      | .ok (_, r) => afterInvalid r
    else
      match _h : Utf8.charAt b s with
      | (none, _) => s
      | (some _, r) => afterInvalid r
termination_by s.length
decreasing_by
  · have := (escape_left _h).shorter
    simp only [List.length_cons]
    omega
  · have := Utf8.charAt_length_le b s
    simp only [_h] at this
    simp only [List.length_cons]
    omega

/-- A string after its opening quote; its bytes must be text. -/
def text (s : Bytes) : Scan String :=
  match textBytes [] s with
  | .error e => .error e
  | .ok (bs, r) =>
    match Utf8.toText? bs with
    | some t => .ok (t, r)
    | none => fail .invalidCodePoint (afterInvalid s) .read

theorem textBytes_left {seen s bs r : Bytes} (h : textBytes seen s = .ok (bs, r)) : Left r s := by
  fun_induction textBytes seen s with
  | case1 | case3 | case5 => cases h
  | case2 seen s =>
    cases h
    exact .cons _ _
  | case4 seen s c t escaped _ ih =>
    exact (ih h).after ((escape_left escaped).suffix.trans (List.suffix_cons _ _))
  | case6 seen b s _ _ _ ih => exact (ih h).after (List.suffix_cons _ _)

theorem text_left {s r : Bytes} {t : String} (h : text s = .ok (t, r)) : Left r s := by
  unfold text at h
  split at h
  · cases h
  · next bs u bytes =>
    split at h
    · cases h
      exact textBytes_left bytes
    · cases h

/-! ## Numbers -/

def isDigit (b : UInt8) : Bool := 48 ≤ b ∧ b ≤ 57

/-- A number as it is written: digits before the point, after it, and a signed exponent. -/
structure Numeral where
  negative : Bool
  whole : Bytes
  fraction : Option Bytes
  exponent : Option (Bool × Bytes)
  deriving DecidableEq, Repr

/-- The exponent of a numeral, if one follows: whether it is negative, and its digits. -/
def exponent (atEnd : Flaw) (s : Bytes) : Scan (Option (Bool × Bytes)) :=
  match s with
  | [] => .ok (none, [])
  | e :: r =>
    if e = 101 ∨ e = 69 then
      let (negative, r) :=
        match r with
        | [] => (false, [])
        | c :: t => if c = 43 then (false, t) else if c = 45 then (true, t) else (false, c :: t)
      match r with
      | [] => fail atEnd [] .read
      | d :: t =>
        if isDigit d then .ok (some (negative, d :: t.takeWhile isDigit), t.dropWhile isDigit)
        else fail .invalidNumber t .read
    else .ok (none, e :: r)

/-- The digits after a decimal point, if one follows. -/
def fraction (atEnd : Flaw) (s : Bytes) : Scan (Option Bytes) :=
  match s with
  | [] => .ok (none, [])
  | p :: r =>
    if p = 46 then
      match r with
      | [] => fail atEnd [] .next
      | d :: t =>
        if isDigit d then .ok (some (d :: t.takeWhile isDigit), t.dropWhile isDigit)
        else fail .invalidNumber (d :: t) .next
    else .ok (none, p :: r)

/-- The digits before the point: a zero stands alone. -/
def wholePart (atEnd : Flaw) (s : Bytes) : Scan Bytes :=
  match s with
  | [] => fail atEnd [] .read
  | d :: r =>
    if d = 48 then
      match r with
      | [] => .ok ([d], [])
      | c :: t => if isDigit c then fail .invalidNumber (c :: t) .next else .ok ([d], c :: t)
    else if isDigit d then .ok (d :: r.takeWhile isDigit, r.dropWhile isDigit)
    else fail .invalidNumber r .read

/-- A numeral after its sign. `atEnd` is the flaw of a text that ends where a digit must follow. -/
def numeral (atEnd : Flaw) (negative : Bool) (s : Bytes) : Scan Numeral :=
  match wholePart atEnd s with
  | .error e => .error e
  | .ok (w, s) =>
    match fraction atEnd s with
    | .error e => .error e
    | .ok (f, s) =>
      match exponent atEnd s with
      | .error e => .error e
      | .ok (x, s) => .ok (⟨negative, w, f, x⟩, s)

theorem exponent_suffix {atEnd : Flaw} {s r : Bytes} {x : Option (Bool × Bytes)}
    (h : exponent atEnd s = .ok (x, r)) : r <:+ s := by
  unfold exponent at h
  split at h
  · cases h
    exact List.suffix_refl _
  · next e t =>
    split at h
    · split at h
      next negative u signed =>
      have after : u <:+ t := by
        split at signed
        · cases signed
          exact List.suffix_refl _
        · next c t =>
          split at signed
          · cases signed
            exact List.suffix_cons c _
          · split at signed
            · cases signed
              exact List.suffix_cons c _
            · cases signed
              exact List.suffix_refl _
      split at h
      · cases h
      · next d v =>
        split at h
        · cases h
          have digits : v.dropWhile isDigit <:+ v := List.dropWhile_suffix _
          have read := digits.trans ((List.suffix_cons d v).trans after)
          exact read.trans (List.suffix_cons e t)
        · cases h
    · cases h
      exact List.suffix_refl _

theorem fraction_suffix {atEnd : Flaw} {s r : Bytes} {f : Option Bytes}
    (h : fraction atEnd s = .ok (f, r)) : r <:+ s := by
  unfold fraction at h
  split at h
  · cases h
    exact List.suffix_refl _
  · next p t =>
    split at h
    · split at h
      · cases h
      · next d u =>
        split at h
        · cases h
          have digits : u.dropWhile isDigit <:+ u := List.dropWhile_suffix _
          exact digits.trans ((List.suffix_cons d u).trans (List.suffix_cons p (d :: u)))
        · cases h
    · cases h
      exact List.suffix_refl _

theorem wholePart_left {atEnd : Flaw} {s r w : Bytes} (h : wholePart atEnd s = .ok (w, r)) :
    Left r s := by
  unfold wholePart at h
  split at h
  · cases h
  · next d t =>
    split at h
    · split at h
      · cases h
        exact .cons d []
      · split at h
        · cases h
        · cases h
          exact .cons d _
    · split at h
      · cases h
        exact (Left.cons d t).before (List.dropWhile_suffix _)
      · cases h

theorem numeral_left {atEnd : Flaw} {negative : Bool} {s r : Bytes} {n : Numeral}
    (h : numeral atEnd negative s = .ok (n, r)) : Left r s := by
  unfold numeral at h
  split at h
  · cases h
  · next w t whole =>
    split at h
    · cases h
    · next f u fraction =>
      split at h
      · cases h
      · next x v exponent =>
        cases h
        have rest := (exponent_suffix exponent).trans (fraction_suffix fraction)
        exact (wholePart_left whole).before rest

end PubSub.Json
