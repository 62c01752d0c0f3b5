import PubSub.Url.Ipv4

/-!
# Colon separated addresses of 128 bits

Eight pieces of 16 bits; one run of zero pieces may be left out, and the last two pieces may be
written as a dotted address.
-/

namespace PubSub.Ipv6

/-! ## Reading -/

/-- The pieces read so far, and how many of them stand before the rest of a run that was left out;
that run is at least one piece, which is among them. -/
structure Pieces where
  list : List Nat
  gap : Option Nat
  deriving DecidableEq, Repr

def Pieces.push (p : Pieces) (n : Nat) : Pieces := ⟨p.list ++ [n], p.gap⟩

def Pieces.open (p : Pieces) : Pieces := ⟨p.list ++ [0], some (p.list.length + 1)⟩

/-- All eight pieces, with the run that was left out filled in. -/
def Pieces.complete? (p : Pieces) : Option (List Nat) :=
  match p.gap with
  | none => if p.list.length = 8 then some p.list else none
  | some n =>
    if p.list.length ≤ 8 then
      some (p.list.take n ++ List.replicate (8 - p.list.length) 0 ++ p.list.drop n)
    else none

/-- A part of the dotted address: no leading zero, below 256. -/
def byte? (cs : List Char) : Option Nat :=
  match cs with
  | [] => none
  | '0' :: _ :: _ => none
  | cs => (Ipv4.ofDigits 10 cs).filter (· < 256)

/-- The two pieces of a dotted address at the end. -/
def dotted? (cs : List Char) : Option (Nat × Nat) :=
  match (cs.splitOn '.').mapM byte? with
  | some [a, b, c, d] => some (a * 256 + b, c * 256 + d)
  | _ => none

/-- At most four digits and what follows them. -/
def piece (cs : List Char) : List Char × List Char :=
  let ds := (cs.take 4).takeWhile fun c => (Hex.value? c).isSome
  (ds, cs.drop ds.length)

theorem piece_length_le (cs : List Char) : (piece cs).2.length ≤ cs.length := by
  simp [piece]

def readPieces? (p : Pieces) (s : List Char) : Option Pieces :=
  match s with
  | [] => some p
  | c :: cs =>
    if p.list.length = 8 then none
    else if c = ':' then
      if p.gap.isSome then none else readPieces? p.open cs
    else
      match _h : piece (c :: cs) with
      | (ds, r) =>
        match Ipv4.ofDigits 16 ds with
        | none => none
        | some n =>
          match r with
          | [] => some (p.push n)
          | d :: t =>
            if d = '.' then
              if ds = [] ∨ p.list.length > 6 then none
              else (dotted? (c :: cs)).map fun (a, b) => (p.push a).push b
            else if d = ':' then
              if t = [] then none else readPieces? (p.push n) t
            else none
termination_by s.length
decreasing_by
  · simp
  · have := piece_length_le (c :: cs)
    simp only [_h, List.length_cons] at *
    omega

def parse? (s : List Char) : Option (List Nat) :=
  let start : Option (Pieces × List Char) :=
    match s with
    | ':' :: ':' :: r => some (Pieces.open ⟨[], none⟩, r)
    | ':' :: _ => none
    | [] => none
    | [_] => none
    | s => some (⟨[], none⟩, s)
  start.bind fun (p, r) => (readPieces? p r).bind Pieces.complete?

/-! ## Writing -/

/-- Start and length of the first longest run of zeros, at place `i`. -/
def longestRun (i : Nat) : List Nat → Nat × Nat
  | [] => (i, 0)
  | n :: ns =>
    let here := ((n :: ns).takeWhile (· = 0)).length
    let later := longestRun (i + 1) ns
    if here ≥ later.2 then (i, here) else later

def hexPieces (ns : List Nat) : List Char :=
  ((ns.map (Nat.toDigits 16)).intersperse [':']).flatten

/-- The pieces without leading zeros; the first longest run of two or more zeros is left out. -/
def text (pieces : List Nat) : String :=
  let (start, length) := longestRun 0 pieces
  if length < 2 then String.ofList (hexPieces pieces)
  else
    String.ofList
      (hexPieces (pieces.take start) ++ [':', ':'] ++ hexPieces (pieces.drop (start + length)))

end PubSub.Ipv6
