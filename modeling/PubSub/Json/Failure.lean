import PubSub.Text.Utf8

/-!
# Failures of reading a JSON text

A failure keeps what was left of the text when it arose and which byte it points at. Lines and
columns follow from the bytes that were read before it.
-/

namespace PubSub.Json

/-! ## What can be wrong -/

inductive Flaw where
  | endInValue
  | endInString
  | endInList
  | endInObject
  | colonExpected
  | listCommaOrEndExpected
  | objectCommaOrEndExpected
  | literalExpected
  | valueExpected
  | invalidEscape
  | invalidNumber
  | numberOutOfRange
  | invalidCodePoint
  | controlCharacter
  | keyNotString
  | loneSurrogate
  | trailingComma
  | trailingCharacters
  | hexEscapeEnded
  deriving DecidableEq, Repr

def Flaw.message : Flaw → String
  | .endInValue => "EOF while parsing a value"
  | .endInString => "EOF while parsing a string"
  | .endInList => "EOF while parsing a list"
  | .endInObject => "EOF while parsing an object"
  | .colonExpected => "expected `:`"
  | .listCommaOrEndExpected => "expected `,` or `]`"
  | .objectCommaOrEndExpected => "expected `,` or `\x7d`"
  | .literalExpected => "expected ident"
  | .valueExpected => "expected value"
  | .invalidEscape => "invalid escape"
  | .invalidNumber => "invalid number"
  | .numberOutOfRange => "number out of range"
  | .invalidCodePoint => "invalid unicode code point"
  | .controlCharacter => "control character (\\u0000-\\u001F) found while parsing a string"
  | .keyNotString => "key must be a string"
  | .loneSurrogate => "lone leading surrogate in hex escape"
  | .trailingComma => "trailing comma"
  | .trailingCharacters => "trailing characters"
  | .hexEscapeEnded => "unexpected end of hex escape"

/-- Whether the text ended too early. -/
def Flaw.isEnd : Flaw → Bool
  | .endInValue | .endInString | .endInList | .endInObject => true
  | _ => false

/-! ## Where it is -/

/-- Which byte a failure points at: the last one read, the next one where a stream has already
looked at it, the next one in any case, or whatever is last once the enclosing value was closed. -/
inductive Aim where
  | read
  | looked
  | next
  | closing
  deriving DecidableEq, Repr

structure Failure (κ : Type) where
  cause : κ
  rest : Bytes
  aim : Aim
  deriving DecidableEq, Repr

def Failure.map {κ ι : Type} (f : κ → ι) (e : Failure κ) : Failure ι :=
  ⟨f e.cause, e.rest, e.aim⟩

/-- Lines are numbered from one, columns count the bytes of the line read so far. -/
structure Position where
  line : Nat
  column : Nat
  deriving DecidableEq, Repr

def Position.start : Position := ⟨1, 0⟩

def Position.advance (p : Position) (b : UInt8) : Position :=
  if b = 10 then ⟨p.line + 1, 0⟩ else ⟨p.line, p.column + 1⟩

def Position.after (p : Position) (s : Bytes) : Position := s.foldl Position.advance p

/-- Whether a text is held whole or arrives byte by byte. -/
inductive Source where
  | whole
  | stream
  deriving DecidableEq, Repr

/-- How many bytes of `s` lie before the place that the failure points at. -/
def Failure.reach {κ : Type} (e : Failure κ) (source : Source) (s : Bytes) : Nat :=
  let ahead :=
    match e.aim, source with
    | .next, _ => 1
    | .looked, .stream => 1
    | _, _ => 0
  s.length - e.rest.length + min ahead e.rest.length

/-- The place of a failure of reading `s`, which began at `p`. -/
def Failure.position {κ : Type} (e : Failure κ) (source : Source) (p : Position) (s : Bytes) :
    Position :=
  p.after (s.take (e.reach source s))

end PubSub.Json
