/-!
# Reading bounded integers

Decimal digits with an optional sign. The digits are taken from left to right, and the first one
that is foreign or passes a bound decides the flaw.
-/

namespace PubSub.Integer

inductive Flaw where
  | empty
  | foreignDigit
  | tooLarge
  | tooSmall
  deriving DecidableEq, Repr

def Flaw.message : Flaw → String
  | .empty => "cannot parse integer from empty string"
  | .foreignDigit => "invalid digit found in string"
  | .tooLarge => "number too large to fit in target type"
  | .tooSmall => "number too small to fit in target type"

def digit? (c : Char) : Option Int := if c.isDigit then some (c.toNat - 48 : Nat) else none

def readUp (high : Int) (n : Int) : List Char → Except Flaw Int
  | [] => .ok n
  | c :: cs =>
    match digit? c with
    | none => .error .foreignDigit
    | some d => if n * 10 + d > high then .error .tooLarge else readUp high (n * 10 + d) cs

def readDown (low : Int) (n : Int) : List Char → Except Flaw Int
  | [] => .ok n
  | c :: cs =>
    match digit? c with
    | none => .error .foreignDigit
    | some d => if n * 10 - d < low then .error .tooSmall else readDown low (n * 10 - d) cs

/-- An integer from `low` to `high`. A minus sign is foreign where nothing is below zero. -/
def read (low high : Int) (s : String) : Except Flaw Int :=
  match s.toList with
  | [] => .error .empty
  | ['+'] => .error .foreignDigit
  | ['-'] => .error .foreignDigit
  | '+' :: cs => readUp high 0 cs
  | '-' :: cs => if low < 0 then readDown low 0 cs else .error .foreignDigit
  | cs => readUp high 0 cs

end PubSub.Integer
