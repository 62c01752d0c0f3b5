/-!
# Binary floating point, 53 bits

Non-negative finite numbers `mantissa * 2 ^ exponent` and rounding of exact quotients to them. All
arithmetic is on natural numbers, so a result is the nearest number by definition.
-/

namespace PubSub

/-- A number with at most 53 bits of mantissa and an exponent from -1074 to 971. -/
structure Binary64 where
  mantissa : Nat
  exponent : Int
  deriving DecidableEq, Repr

namespace Binary64

def zero : Binary64 := ⟨0, -1074⟩

def isZero (x : Binary64) : Bool := x.mantissa = 0

/-- The quotient to the nearest natural number, a half to the even one. -/
def roundDiv (n d : Nat) : Nat :=
  let q := n / d
  let r := n % d
  if 2 * r > d ∨ (2 * r = d ∧ q % 2 = 1) then q + 1 else q

/-- `n / (d * 2 ^ e)` as numerator and denominator. -/
def scaleDown (n d : Nat) (e : Int) : Nat × Nat :=
  if e ≥ 0 then (n, d <<< e.toNat) else (n <<< (-e).toNat, d)

/-- The number nearest to `n / d`, `none` past the largest one. -/
def ofRatio? (n d : Nat) : Option Binary64 :=
  if n = 0 then some zero
  else
    let e : Int := n.log2 - d.log2 - 53
    let (a, b) := scaleDown n d e
    let e := if a / b < 1 <<< 53 then e else e + 1
    let e := max e (-1074)
    let (a, b) := scaleDown n d e
    let m := roundDiv a b
    let x : Binary64 := if m = 1 <<< 53 then ⟨1 <<< 52, e + 1⟩ else ⟨m, e⟩
    if x.exponent > 971 then none else some x

/-- Numerator and denominator of the exact value. -/
def ratio (x : Binary64) : Nat × Nat :=
  if x.exponent ≥ 0 then (x.mantissa <<< x.exponent.toNat, 1)
  else (x.mantissa, 1 <<< (-x.exponent).toNat)

def ofNat? (n : Nat) : Option Binary64 := ofRatio? n 1

/-- The power of ten as it is rounded once. -/
def powTen (k : Nat) : Binary64 := (ofNat? (Nat.pow 10 k)).getD zero

def mul? (x y : Binary64) : Option Binary64 :=
  ofRatio? (x.ratio.1 * y.ratio.1) (x.ratio.2 * y.ratio.2)

/-- The quotient by a number that is not zero. -/
def div? (x y : Binary64) : Option Binary64 :=
  ofRatio? (x.ratio.1 * y.ratio.2) (x.ratio.2 * y.ratio.1)

/-- `n * 10 ^ k` for `n` below `2 ^ 64`, by one rounding of `n` and one for each power of ten, at
most `10 ^ 308` each; `none` when it is out of range. Two such divisions leave nothing. -/
def ofScientific? (n : Nat) (k : Int) : Option Binary64 := do
  let x ← ofNat? n
  if k > 308 then
    if x.isZero then some x else none
  else if k ≥ 0 then x.mul? (powTen k.toNat)
  else if k ≥ -308 then x.div? (powTen (-k).toNat)
  else if k ≥ -616 then
    let y ← x.div? (powTen 308)
    y.div? (powTen (-k - 308).toNat)
  else some zero

end Binary64

end PubSub
