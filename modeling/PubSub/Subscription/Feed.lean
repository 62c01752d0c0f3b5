import PubSub.Files.Basic
import PubSub.Record.Stream

/-!
# Reading ahead

A feed reads the records of an open file ahead of the loop that handles them. It decodes one record
at a time, holds it until there is room, and waits while sixteen are queued. Bytes come from the
file in pieces and only when those at hand are used up.
-/

namespace PubSub

structure Feed where
  node : Nat
  /-- How many bytes were fetched. -/
  offset : Nat
  /-- Bytes that were fetched and not decoded. -/
  buffer : Bytes
  place : Json.Position
  queued : List (Except DecodeError Message)
  /-- A record for which there was no room yet. -/
  held : Option (Except DecodeError Message)
  ended : Bool

namespace Feed

def start (node : Nat) : Feed := ⟨node, 0, [], .start, [], none, false⟩

/-- How many records are queued at most. -/
def room : Nat := 16

/-- How many bytes are fetched at a time. -/
def pieceSize : Nat := 8192

/-- Goes past `count` bytes, and fetches as many pieces as that takes. -/
def pass (f : Feed) (content : Bytes) (count : Nat) : Feed :=
  if count ≤ f.buffer.length then { f with buffer := f.buffer.drop count }
  else
    let beyond := count - f.buffer.length
    let pieces := (beyond + pieceSize - 1) / pieceSize
    let fetched := (content.drop f.offset).take (pieces * pieceSize)
    { f with offset := f.offset + fetched.length, buffer := fetched.drop beyond }

/-- Decodes the next record. -/
def decode (f : Feed) (content : Except SystemError Bytes) : Feed :=
  match content with
  | .error e => { f with held := some (.error ⟨.unreadable e, none⟩) }
  | .ok content =>
    let s := f.buffer ++ content.drop f.offset
    match Record.next f.place s with
    | .finished => { f with ended := true }
    | .broken e => { f with held := some (.error e) }
    | .message m place rest =>
      { f.pass content (s.length - rest.length) with place := place, held := some (.ok m) }

/-- The next step of the reader, unless it has ended or has to wait. -/
def read? (f : Feed) (content : Except SystemError Bytes) : Option Feed :=
  match f.held with
  | some r =>
    if f.queued.length < room then
      some { f with queued := f.queued ++ [r], held := none, ended := !r.isOk }
    else none
  | none => if f.ended then none else some (f.decode content)

/-- Whether everything that will ever come was taken. -/
def isDry (f : Feed) : Bool := f.queued.isEmpty && f.held.isNone && f.ended

end Feed

end PubSub
