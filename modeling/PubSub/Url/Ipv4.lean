import PubSub.Text.Utf8

/-!
# Dotted addresses of 32 bits

An address has one to four numbers in decimal, octal or hexadecimal; the last one fills the bytes
that are left.
-/

namespace PubSub.Ipv4

def ofDigits (base : Nat) (cs : List Char) : Option Nat :=
  cs.foldlM (fun n c =>
    match Hex.value? c with
    | some d => if d < base then some (n * base + d) else none
    | none => none) 0

/-- A number with an optional base mark; the mark alone is zero. -/
def number? : List Char → Option Nat
  | [] => none
  | '0' :: 'x' :: r => ofDigits 16 r
  | '0' :: 'X' :: r => ofDigits 16 r
  | '0' :: c :: r => ofDigits 8 (c :: r)
  | r => ofDigits 10 r

/-- The parts between the dots; a dot at the end ends the last part. -/
def parts (cs : List Char) : List (List Char) :=
  let ps := cs.splitOn '.'
  if ps.getLast? = some [] then ps.dropLast else ps

/-- Whether the last part looks like a number, so that the host must be an address. -/
def endsInNumber (cs : List Char) : Bool :=
  match (parts cs).getLast? with
  | none => false
  | some [] => false
  | some p => p.all Char.isDigit || (number? p).isSome

/-- The address as one number. -/
def parse? (cs : List Char) : Option Nat := do
  let ns ← (parts cs).mapM number?
  let last ← ns.getLast?
  let first := ns.dropLast
  let room := 1 <<< (8 * (4 - first.length))
  if ns.length > 4 ∨ first.any (· > 255) ∨ last ≥ room then none
  else
    let high := first.foldl (fun n x => n * 256 + x) 0
    return high * room + last

def text (n : Nat) : String :=
  s!"{n / 16777216 % 256}.{n / 65536 % 256}.{n / 256 % 256}.{n % 256}"

end PubSub.Ipv4
