import PubSub.Message
import PubSub.Text.Base64

/-!
# Writing records

A record is one JSON object on one line: identifier, payload and labels in this order, each left
out when there is none. No byte of a record is below the space, so a line feed ends it.
-/

namespace PubSub.Record

def ascii (s : String) : Bytes := Utf8.ofText s

/-- How a byte of a text is written between quotes. -/
def escapeByte (b : UInt8) : Bytes :=
  if b = 34 then [92, 34]
  else if b = 92 then [92, 92]
  else if b = 8 then [92, 98]
  else if b = 12 then [92, 102]
  else if b = 10 then [92, 110]
  else if b = 13 then [92, 114]
  else if b = 9 then [92, 116]
  else if b < 32 then
    [92, 117, 48, 48, (Hex.lower (b.toNat / 16)).toNat.toUInt8, (Hex.lower (b.toNat % 16)).toNat.toUInt8]
  else [b]

def quoteBytes (s : Bytes) : Bytes := 34 :: (s.flatMap escapeByte ++ [34])

def quoteText (s : String) : Bytes := quoteBytes (Utf8.ofText s)

/-- A member of an object, with its value already written. -/
def writeMember (name : String) (value : Bytes) : Bytes := quoteText name ++ 58 :: value

def writeObject (members : List Bytes) : Bytes :=
  123 :: ((members.intersperse [44]).flatten ++ [125])

/-- The record of a message whose labels are written in the order of `labels`. -/
def encodeWith (labels : List (String × String)) (m : Message) : Bytes :=
  let id :=
    match m.id with
    | none => []
    | some t => [writeMember "id" (quoteText t)]
  let data := if m.data = [] then [] else [writeMember "data" (quoteBytes (Base64.encode m.data))]
  let attributes :=
    if labels = [] then []
    else [writeMember "attributes" (writeObject (labels.map fun e => writeMember e.1 (quoteText e.2)))]
  writeObject (id ++ data ++ attributes)

def encode (m : Message) : Bytes := encodeWith m.attributes.entries m

/-- A record and the line feed after it. -/
def line (m : Message) : Bytes := encode m ++ [10]

end PubSub.Record
