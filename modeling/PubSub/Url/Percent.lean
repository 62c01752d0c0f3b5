import PubSub.Text.Utf8

/-!
# Percent encoding and query pairs

A byte is written as a percent sign and two upper case digits. Which characters are written so
depends on the part of the URL they stand in; those outside ASCII always are.

A query is a list of keys with values: pairs are parted by `&`, a key ends at the first `=`, and a
plus sign stands for a space.
-/

namespace PubSub.Percent

/-! ## Sets of characters -/

def isControl (c : Char) : Bool := c.toNat < 0x20 || 0x7F ≤ c.toNat

def inFragment (c : Char) : Bool :=
  isControl c || c = ' ' || c = '"' || c = '<' || c = '>' || c = '\x60'

def inQuery (c : Char) : Bool :=
  isControl c || c = ' ' || c = '"' || c = '#' || c = '<' || c = '>'

def inSpecialQuery (c : Char) : Bool := inQuery c || c = '\x27'

def inPath (c : Char) : Bool :=
  inFragment c || c = '#' || c = '?' || c = '\x7b' || c = '\x7d'

def inCredentials (c : Char) : Bool :=
  inPath c || c = '/' || c = ':' || c = ';' || c = '=' || c = '@' || c = '[' || c = '\\' ||
    c = ']' || c = '^' || c = '|'

/-! ## Writing and reading -/

def encodeByte (b : UInt8) : List Char :=
  ['%', Hex.upper (b.toNat / 16), Hex.upper (b.toNat % 16)]

def encodeChar (c : Char) : List Char := (Utf8.encodeChar c).flatMap encodeByte

/-- Writes the characters of a set by their bytes and leaves all others. -/
def encode (set : Char → Bool) (cs : List Char) : List Char :=
  cs.flatMap fun c => if set c then encodeChar c else [c]

/-- The bytes of a text in which a percent sign and two digits stand for one byte; any other percent
sign stands for itself. -/
def decode : List Char → Bytes
  | [] => []
  | '%' :: a :: b :: r =>
    match Hex.value? a, Hex.value? b with
    | some x, some y => (x * 16 + y).toUInt8 :: decode r
    | _, _ => Utf8.encodeChar '%' ++ decode (a :: b :: r)
  | c :: r => Utf8.encodeChar c ++ decode r
termination_by s => s.length

end PubSub.Percent

namespace PubSub.Query

/-- The text that a key or value stands for. -/
def decode (s : List Char) : String :=
  String.ofList (Utf8.decodeLossy (Percent.decode (s.map fun c => if c = '+' then ' ' else c)))

def pair (s : List Char) : String × String :=
  (decode (s.takeWhile (· ≠ '=')), decode ((s.dropWhile (· ≠ '=')).drop 1))

/-- The pairs of a query in order, without empty ones. -/
def pairs (query : String) : List (String × String) :=
  ((query.toList.splitOn '&').filter (· ≠ [])).map pair

end PubSub.Query
