import PubSub.Json.Scan
import PubSub.Number.Shortest

/-!
# The value of a JSON number

A number is an integer when it is written without point and exponent and fits 64 bits, otherwise it
is a floating point number.
-/

namespace PubSub.Json

inductive Number where
  | natural (n : Nat)
  | minus (n : Nat)
  | floating (negative : Bool) (size : Binary64)
  deriving DecidableEq, Repr

def Number.toText : Number → String
  | .natural n => toString n
  | .minus n => "-" ++ toString n
  | .floating negative x => (if negative then "-" else "") ++ x.toText

/-! ## Digits -/

def digitValue (b : UInt8) : Nat := b.toNat - 48

/-- The digits read so far as one number below `2 ^ 64`, a power of ten for those passed over, and
whether no further digit fits. -/
structure Significand where
  value : Nat
  exponent : Int
  full : Bool
  deriving DecidableEq, Repr

/-- A digit before the point: one that does not fit counts as a power of ten. -/
def Significand.whole (x : Significand) (b : UInt8) : Significand :=
  let v := x.value * 10 + digitValue b
  if !x.full && v < 1 <<< 64 then ⟨v, x.exponent, false⟩ else ⟨x.value, x.exponent + 1, true⟩

/-- A digit after the point: one that does not fit is dropped. -/
def Significand.fraction (x : Significand) (b : UInt8) : Significand :=
  let v := x.value * 10 + digitValue b
  if !x.full && v < 1 <<< 64 then ⟨v, x.exponent - 1, false⟩ else ⟨x.value, x.exponent, true⟩

def Numeral.significand (n : Numeral) : Significand :=
  let w := n.whole.foldl Significand.whole ⟨0, 0, false⟩
  match n.fraction with
  | none => w
  | some ds => ds.foldl Significand.fraction ⟨w.value, w.exponent, false⟩

/-- The digits after the one at which the number passes `2 ^ 31 - 1`, or the number itself. -/
def exponentValue (value : Nat) : Bytes → Except Bytes Nat
  | [] => .ok value
  | d :: ds =>
    let v := value * 10 + digitValue d
    if v < 1 <<< 31 then exponentValue v ds else .error ds

/-! ## Reading -/

/-- The floating point number of a significand, with the bytes left after it. -/
def floating (negative : Bool) (significand : Nat) (exponent : Int) (r : Bytes) : Scan Number :=
  match Binary64.ofScientific? significand exponent with
  | some x => .ok (.floating negative x, r)
  | none => fail .numberOutOfRange r .looked

/-- The value of a numeral that was read up to `r`. -/
def Numeral.number (n : Numeral) (r : Bytes) : Scan Number :=
  let x := n.significand
  match n.exponent with
  | some (down, ds) =>
    match exponentValue 0 ds with
    | .ok e => floating n.negative x.value (x.exponent + if down then -(e : Int) else e) r
    | .error tail =>
      if x.value ≠ 0 ∧ !down then fail .numberOutOfRange (tail ++ r) .read
      else .ok (.floating n.negative Binary64.zero, r)
  | none =>
    if n.fraction.isSome ∨ x.full then floating n.negative x.value x.exponent r
    else if !n.negative then .ok (.natural x.value, r)
    else if 0 < x.value ∧ x.value ≤ 1 <<< 63 then .ok (.minus x.value, r)
    else floating true x.value 0 r

/-- A number after its sign. -/
def number (negative : Bool) (s : Bytes) : Scan Number :=
  match numeral .endInValue negative s with
  | .error e => .error e
  | .ok (n, r) => n.number r

end PubSub.Json
