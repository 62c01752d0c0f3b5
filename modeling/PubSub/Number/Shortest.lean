import PubSub.Number.Binary64

/-!
# Shortest decimal text

The fewest digits that are read back as the same number, and of those the nearest. Exponents of the
leading digit from -5 to 15 are written positionally, all others after an `e` with their sign.
-/

namespace PubSub.Binary64

/-- `digits * 10 ^ exponent`. -/
structure Decimal where
  digits : Nat
  exponent : Int
  deriving DecidableEq, Repr

/-! ## Digits -/

/-- Twice two bounds between which everything rounds to `x`, with `x` between them, over a common
denominator: lower bound, value, upper bound, denominator. -/
def bounds (x : Binary64) : Nat × Nat × Nat × Nat :=
  let m := 4 * x.mantissa
  let below := if x.mantissa = 1 <<< 52 ∧ x.exponent > -1074 then 1 else 2
  let e := x.exponent - 2
  if e ≥ 0 then
    let n := e.toNat
    ((m - below) <<< n, m <<< n, (m + 2) <<< n, 1)
  else (m - below, m, m + 2, 1 <<< (-e).toNat)

/-- The multiple of `10 ^ u` that is read back as `x` and lies next to it, if there is one. -/
def onGrid? (x : Binary64) (u : Int) : Option Decimal :=
  let (low, value, high, den) := x.bounds
  let (low, value, high) :=
    if u ≥ 0 then (low, value, high)
    else
      let t := Nat.pow 10 (-u).toNat
      (low * t, value * t, high * t)
  let cell := if u ≥ 0 then den * Nat.pow 10 u.toNat else den
  let closed := x.mantissa % 2 = 0
  let fits (c : Nat) : Bool :=
    let v := c * cell
    (low < v ∨ (closed ∧ low = v)) ∧ (v < high ∨ (closed ∧ v = high))
  let c := value / cell
  match (c ≠ 0 && fits c : Bool), fits (c + 1) with
  | true, true => some ⟨if 2 * (value - c * cell) ≤ cell then c else c + 1, u⟩
  | true, false => some ⟨c, u⟩
  | false, true => some ⟨c + 1, u⟩
  | false, false => none

/-- The number of digits of the whole part of `n / d`, or minus the number of zeros that follow
the point. -/
def magnitude (n d : Nat) : Int :=
  if n ≥ d then (Nat.toDigits 10 (n / d)).length
  else
    let zeros := (Nat.toDigits 10 (d / n)).length
    if n * Nat.pow 10 (zeros - 1) ≥ d then 2 - (zeros : Int) else 1 - (zeros : Int)

/-- Coarse grids first, down to 17 digits. -/
def firstGrid (x : Binary64) (u : Int) : (fuel : Nat) → Decimal
  | 0 => ⟨0, 0⟩
  | fuel + 1 =>
    match x.onGrid? u with
    | some d => d
    | none => x.firstGrid (u - 1) fuel

def shortest (x : Binary64) : Decimal :=
  if x.isZero then ⟨0, 0⟩
  else x.firstGrid (magnitude x.ratio.1 x.ratio.2) 19

/-! ## Layout -/

/-- The digits without trailing zeros. -/
def trimZeros (ds : List Char) : List Char := (ds.reverse.dropWhile (· = '0')).reverse

/-- The text of a number other than zero. -/
def layout (d : Decimal) : String :=
  let all := Nat.toDigits 10 d.digits
  let ds := trimZeros all
  let x : Int := all.length - 1 + d.exponent
  if -5 ≤ x ∧ x ≤ 15 then
    if x < 0 then String.ofList ('0' :: '.' :: (List.replicate (-x - 1).toNat '0' ++ ds))
    else
      let n := x.toNat + 1
      let whole := ds.take n ++ List.replicate (n - ds.length) '0'
      let part := if ds.drop n = [] then ['0'] else ds.drop n
      String.ofList (whole ++ '.' :: part)
  else
    let mantissa :=
      match ds with
      | [] => []
      | [c] => [c]
      | c :: cs => c :: '.' :: cs
    let sign := if x < 0 then '-' else '+'
    String.ofList (mantissa ++ 'e' :: sign :: Nat.toDigits 10 x.natAbs)

def toText (x : Binary64) : String :=
  if x.isZero then "0.0" else layout x.shortest

end PubSub.Binary64
