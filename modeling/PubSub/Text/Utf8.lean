/-!
# Bytes and UTF-8

Text is written as bytes one character at a time, and bytes are read back either strictly
(`decode?`, `toText?`) or with every stray run replaced by one mark (`decodeLossy`).
-/

namespace PubSub

abbrev Bytes := List UInt8

namespace Utf8

/-! ## Writing -/

def encodeChar (c : Char) : Bytes :=
  let n := c.toNat
  if n < 0x80 then [n.toUInt8]
  else if n < 0x800 then [(0xC0 + n / 0x40).toUInt8, (0x80 + n % 0x40).toUInt8]
  else if n < 0x10000 then
    [(0xE0 + n / 0x1000).toUInt8, (0x80 + n / 0x40 % 0x40).toUInt8, (0x80 + n % 0x40).toUInt8]
  else
    [(0xF0 + n / 0x40000).toUInt8, (0x80 + n / 0x1000 % 0x40).toUInt8,
      (0x80 + n / 0x40 % 0x40).toUInt8, (0x80 + n % 0x40).toUInt8]

def encode (cs : List Char) : Bytes := cs.flatMap encodeChar

def ofText (s : String) : Bytes := encode s.toList

/-! ## Reading -/

/-- The six bits that a continuation byte carries. -/
def tail? (b : UInt8) : Option Nat :=
  if 0x80 ≤ b ∧ b ≤ 0xBF then some (b.toNat - 0x80) else none

/-- The second byte of a longer character; after some first bytes its range is narrower. -/
def second? (a b : UInt8) : Option Nat :=
  if a = 0xE0 ∧ b < 0xA0 then none
  else if a = 0xED ∧ 0x9F < b then none
  else if a = 0xF0 ∧ b < 0x90 then none
  else if a = 0xF4 ∧ 0x8F < b then none
  else tail? b

/-- The character that begins with the byte `a` and goes on in `s`, with the bytes after it;
`none` skips the longest run that could still have begun a character. -/
def charAt (a : UInt8) (s : Bytes) : Option Char × Bytes :=
  if a < 0x80 then (some (Char.ofNat a.toNat), s)
  else if a < 0xC2 ∨ 0xF4 < a then (none, s)
  else
    match s with
    | [] => (none, [])
    | b :: s =>
      match second? a b with
      | none => (none, b :: s)
      | some x =>
        if a < 0xE0 then (some (Char.ofNat ((a.toNat - 0xC0) * 0x40 + x)), s)
        else
          match s with
          | [] => (none, [])
          | c :: s =>
            match tail? c with
            | none => (none, c :: s)
            | some y =>
              if a < 0xF0 then (some (Char.ofNat ((a.toNat - 0xE0) * 0x1000 + x * 0x40 + y)), s)
              else
                match s with
                | [] => (none, [])
                | d :: s =>
                  match tail? d with
                  | none => (none, d :: s)
                  | some z =>
                    (some (Char.ofNat ((a.toNat - 0xF0) * 0x40000 + x * 0x1000 + y * 0x40 + z)), s)

theorem charAt_length_le (a : UInt8) (s : Bytes) : (charAt a s).2.length ≤ s.length := by
  unfold charAt
  split
  · exact Nat.le_refl _
  · split
    · exact Nat.le_refl _
    · repeat' (first | omega | (simp only [List.length_cons, List.length_nil]; omega) | split)

/-- The characters of valid text, `none` for anything else. -/
def decode? (s : Bytes) : Option (List Char) :=
  match s with
  | [] => some []
  | a :: s =>
    match _h : charAt a s with
    | (none, _) => none
    | (some c, r) => (decode? r).map (c :: ·)
termination_by s.length
decreasing_by
  have := charAt_length_le a s
  simp only [_h] at this
  exact Nat.lt_succ_of_le this

def toText? (s : Bytes) : Option String := (decode? s).map String.ofList

/-- The characters of any bytes, with U+FFFD for each run that is not text. -/
def decodeLossy (s : Bytes) : List Char :=
  match s with
  | [] => []
  | a :: s =>
    match _h : charAt a s with
    | (c, r) => c.getD '\uFFFD' :: decodeLossy r
termination_by s.length
decreasing_by
  have := charAt_length_le a s
  simp only [_h] at this
  exact Nat.lt_succ_of_le this

end Utf8

/-! ## Hexadecimal -/

namespace Hex

/-- The digit for a value below 16, in lower case. -/
def lower (n : Nat) : Char := Char.ofNat (if n < 10 then 48 + n else 87 + n)

/-- The digit for a value below 16, in upper case. -/
def upper (n : Nat) : Char := Char.ofNat (if n < 10 then 48 + n else 55 + n)

def value? (c : Char) : Option Nat :=
  if '0' ≤ c ∧ c ≤ '9' then some (c.toNat - 48)
  else if 'a' ≤ c ∧ c ≤ 'f' then some (c.toNat - 87)
  else if 'A' ≤ c ∧ c ≤ 'F' then some (c.toNat - 55)
  else none

/-- Two lower case digits for each byte. -/
def encode (s : Bytes) : String :=
  String.ofList (s.flatMap fun b => [lower (b.toNat / 16), lower (b.toNat % 16)])

def decode? : List Char → Option Bytes
  | [] => some []
  | [_] => none
  | a :: b :: r => do
    let x ← value? a
    let y ← value? b
    let rest ← decode? r
    return (x * 16 + y).toUInt8 :: rest

end Hex

end PubSub
