import PubSub.Text.Utf8

/-!
# Base64

The standard alphabet with padding. Every byte string has one written form, and `decode` refuses
all others: a foreign symbol, a length that is no multiple of four, padding in the wrong place, and
a last symbol that carries bits beyond the last byte.
-/

namespace PubSub.Base64

/-! ## Alphabet -/

def padding : UInt8 := 61

def symbol (n : Nat) : UInt8 :=
  if n < 26 then (65 + n).toUInt8
  else if n < 52 then (71 + n).toUInt8
  else if n < 62 then (n - 4).toUInt8
  else if n = 62 then 43
  else 47

def value? (b : UInt8) : Option Nat :=
  if 65 ≤ b ∧ b ≤ 90 then some (b.toNat - 65)
  else if 97 ≤ b ∧ b ≤ 122 then some (b.toNat - 71)
  else if 48 ≤ b ∧ b ≤ 57 then some (b.toNat + 4)
  else if b = 43 then some 62
  else if b = 47 then some 63
  else none

/-! ## Writing -/

def encode : Bytes → Bytes
  | [] => []
  | [a] =>
    [symbol (a.toNat / 4), symbol (a.toNat % 4 * 16), padding, padding]
  | [a, b] =>
    [symbol (a.toNat / 4), symbol (a.toNat % 4 * 16 + b.toNat / 16), symbol (b.toNat % 16 * 4),
      padding]
  | a :: b :: c :: rest =>
    symbol (a.toNat / 4) :: symbol (a.toNat % 4 * 16 + b.toNat / 16) ::
      symbol (b.toNat % 16 * 4 + c.toNat / 64) :: symbol (c.toNat % 64) :: encode rest

/-! ## Reading -/

inductive Flaw where
  | foreignSymbol (offset : Nat) (byte : UInt8)
  | length (symbols : Nat)
  | lastSymbol (offset : Nat) (byte : UInt8)
  | padding
  deriving DecidableEq, Repr

def Flaw.message : Flaw → String
  | .foreignSymbol offset byte => s!"Invalid symbol {byte}, offset {offset}."
  | .length symbols => s!"Invalid input length: {symbols}"
  | .lastSymbol offset byte => s!"Invalid last symbol {byte}, offset {offset}."
  | .padding => "Invalid padding"

def valueAt (offset : Nat) (b : UInt8) : Except Flaw Nat :=
  match value? b with
  | some v => .ok v
  | none => .error (.foreignSymbol offset b)

/-- The values at the front of the last group, up to its padding, and how many padding bytes
follow them. `first` is the place of the first padding byte once one was seen. -/
def lastValues (start : Nat) (place : Nat) (first : Option Nat) :
    Bytes → Except Flaw (List Nat × Nat)
  | [] => .ok ([], 0)
  | b :: rest =>
    if b = padding then
      if place < 2 then .error (.foreignSymbol (start + place) b)
      else do
        let (vs, n) ← lastValues start (place + 1) (some (first.getD place)) rest
        return (vs, n + 1)
    else
      match first with
      | some p => .error (.foreignSymbol (start + p) padding)
      | none => do
        let v ← valueAt (start + place) b
        let (vs, n) ← lastValues start (place + 1) none rest
        return (v :: vs, n)

/-- The bytes of the last group, which has at most four symbols, at offset `start` of the text. -/
def decodeLast (start : Nat) (group : Bytes) : Except Flaw Bytes := do
  let (vs, pads) ← lastValues start 0 none group
  if start + group.length ≠ 0 ∧ vs.length < 2 then .error (.length (start + vs.length))
  else if (pads + vs.length) % 4 ≠ 0 then .error .padding
  else
    match vs with
    | [x, y] =>
      if y % 16 = 0 then .ok [(x * 4 + y / 16).toUInt8]
      else .error (.lastSymbol (start + 1) (symbol y))
    | [x, y, z] =>
      if z % 4 = 0 then .ok [(x * 4 + y / 16).toUInt8, (y % 16 * 16 + z / 4).toUInt8]
      else .error (.lastSymbol (start + 2) (symbol z))
    | [x, y, z, w] =>
      .ok [(x * 4 + y / 16).toUInt8, (y % 16 * 16 + z / 4).toUInt8, (z % 4 * 64 + w).toUInt8]
    | _ => .ok []

/-- Groups of four symbols, the last of which may be padded. -/
def decodeFrom (start : Nat) : Bytes → Except Flaw Bytes
  | a :: b :: c :: d :: e :: rest => do
    let x ← valueAt start a
    let y ← valueAt (start + 1) b
    let z ← valueAt (start + 2) c
    let w ← valueAt (start + 3) d
    let more ← decodeFrom (start + 4) (e :: rest)
    return (x * 4 + y / 16).toUInt8 :: (y % 16 * 16 + z / 4).toUInt8 :: (z % 4 * 64 + w).toUInt8 ::
      more
  | group => decodeLast start group

/-- A single byte after the last full group is reported first when it is no symbol at all. -/
def strayLast? (s : Bytes) : Option Flaw :=
  if s.length % 4 = 1 then
    match s.getLast? with
    | some b => if b ≠ padding ∧ value? b = none then some (.foreignSymbol (s.length - 1) b) else none
    | none => none
  else none

def decode (s : Bytes) : Except Flaw Bytes :=
  match strayLast? s with
  | some flaw => .error flaw
  | none => decodeFrom 0 s

end PubSub.Base64
