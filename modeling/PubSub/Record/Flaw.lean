import PubSub.Json.Number
import PubSub.SystemError
import PubSub.Text.Base64
import PubSub.Text.Quoted

/-!
# What can be wrong with a record

A record is a JSON text, so it can be malformed; a well formed one can hold the wrong kind of value,
name a field twice or carry a payload that is no base64; and its bytes can be unreadable.
-/

namespace PubSub.Record

inductive Field where
  | id
  | data
  | attributes
  deriving DecidableEq, Repr

def Field.name : Field → String
  | .id => "id"
  | .data => "data"
  | .attributes => "attributes"

def Field.ofName? (name : String) : Option Field :=
  if name = "id" then some .id
  else if name = "data" then some .data
  else if name = "attributes" then some .attributes
  else none

/-- A value as it stands where another kind was wanted. -/
inductive Found where
  | null
  | boolean (b : Bool)
  | number (n : Json.Number)
  | text (s : String)
  | list
  | object
  deriving DecidableEq, Repr

def Found.shown : Found → String
  | .null => "null"
  | .boolean b => s!"boolean `{b}`"
  | .number (.floating negative x) => s!"floating point `{(Json.Number.floating negative x).toText}`"
  | .number n => s!"integer `{n.toText}`"
  | .text s => "string " ++ Quoted.quote s
  | .list => "sequence"
  | .object => "map"

inductive Wanted where
  | record
  | text
  | labels
  deriving DecidableEq, Repr

def Wanted.shown : Wanted → String
  | .record => "struct Message"
  | .text => "a string"
  | .labels => "a map"

inductive Flaw where
  | malformed (flaw : Json.Flaw)
  | unexpected (found : Found) (wanted : Wanted)
  | repeated (field : Field)
  | payload (flaw : Base64.Flaw)
  | unreadable (error : SystemError)
  deriving DecidableEq, Repr

def Flaw.message : Flaw → String
  | .malformed flaw => flaw.message
  | .unexpected found wanted => s!"invalid type: {found.shown}, expected {wanted.shown}"
  | .repeated field => s!"duplicate field `{field.name}`"
  | .payload flaw => flaw.message
  | .unreadable error => error.message

/-- The kinds of decoding errors: one that came from a text that ends too early may go away when
more bytes follow. -/
inductive Category where
  | unreadable
  | malformed
  | unfit
  | ended
  deriving DecidableEq, Repr

def Flaw.category : Flaw → Category
  | .malformed flaw => if flaw.isEnd then .ended else .malformed
  | .unexpected _ _ | .repeated _ | .payload _ => .unfit
  | .unreadable _ => .unreadable

end PubSub.Record

namespace PubSub

/-- A flaw and its place; unreadable bytes have none. -/
structure DecodeError where
  flaw : Record.Flaw
  place : Option Json.Position
  deriving DecidableEq, Repr

namespace DecodeError

def message (e : DecodeError) : String :=
  match e.place with
  | none => e.flaw.message
  | some p => s!"{e.flaw.message} at line {p.line} column {p.column}"

def line (e : DecodeError) : Nat := (e.place.map (·.line)).getD 0

def column (e : DecodeError) : Nat := (e.place.map (·.column)).getD 0

/-- Whether the bytes ended within a record. -/
def isEnd (e : DecodeError) : Bool := e.flaw.category = .ended

end DecodeError

end PubSub
