import PubSub.Number.Integer
import PubSub.StartPosition
import PubSub.Error

/-!
# Options of the command line

Every option takes one value, which is read as soon as it is certain that it belongs to the option.
A usage error says in one line what is wrong.
-/

namespace PubSub.CommandLine

/-- An option, by its long name. -/
inductive Flag where
  | log
  | url
  | topic
  | id
  | attribute
  | limit
  | startAt
  deriving DecidableEq, Repr

namespace Flag

def name : Flag → String
  | .log => "log"
  | .url => "url"
  | .topic => "topic"
  | .id => "id"
  | .attribute => "attr"
  | .limit => "limit"
  | .startAt => "start-at"

/-- The option with the name of its value. -/
def shown : Flag → String
  | .log => "--log <LOG>"
  | .url => "--url <URL>"
  | .topic => "--topic <TOPIC>"
  | .id => "--id <ID>"
  | .attribute => "--attr <ATTRS>"
  | .limit => "--limit <LIMIT>"
  | .startAt => "--start-at <START_AT>"

end Flag

/-- The commands. -/
inductive Verb where
  | publish
  | tail
  deriving DecidableEq, Repr

namespace Verb

def ofName? (name : String) : Option Verb :=
  if name = "publish" then some .publish else if name = "tail" then some .tail else none

def flags : Verb → List Flag
  | .publish => [.log, .url, .topic, .id, .attribute]
  | .tail => [.log, .url, .topic, .limit, .startAt]

/-- Whether the command takes arguments that are no options. -/
def takesData : Verb → Bool
  | .publish => true
  | .tail => false

end Verb

/-! ## Usage errors -/

inductive UsageError where
  /-- Nothing was asked for. -/
  | nothing
  | noCommand
  | unknownCommand (name : String)
  | unexpected (argument : String)
  | unneeded (value : String)
  | noValue (f : Flag)
  | repeated (f : Flag)
  | invalid (f : Flag) (value why : String)
  | missing
  deriving DecidableEq, Repr

namespace UsageError

def message : UsageError → String
  | .nothing => "Publish to and tail topics on any bps backend"
  | .noCommand => "error: 'bps' requires a subcommand but one was not provided"
  | .unknownCommand name => "error: unrecognized subcommand '" ++ name ++ "'"
  | .unexpected argument => "error: unexpected argument '" ++ argument ++ "' found"
  | .unneeded value =>
    "error: unexpected value '" ++ value ++ "' for '--help' found; no more were expected"
  | .noValue f => "error: a value is required for '" ++ f.shown ++ "' but none was supplied"
  | .repeated f => "error: the argument '" ++ f.shown ++ "' cannot be used multiple times"
  | .invalid f value why =>
    "error: invalid value '" ++ value ++ "' for '" ++ f.shown ++ "': " ++ why
  | .missing => "error: the following required arguments were not provided:"

/-- The first line of the message. -/
def line (e : UsageError) : String := String.ofList (e.message.toList.takeWhile (· ≠ '\n'))

end UsageError

/-! ## Values -/

/-- What the options and arguments came to so far. -/
structure Values where
  log : Option String
  url : Option String
  topic : Option String
  id : Option String
  attributes : List (String × String)
  limit : Option Nat
  start : Option StartPosition
  data : List String
  deriving DecidableEq, Repr

namespace Values

def none : Values := ⟨.none, .none, .none, .none, [], .none, .none, []⟩

/-- A key and a value at the first `=`. -/
def readAttribute (s : String) : Except String (String × String) :=
  let key := s.toList.takeWhile (· ≠ '=')
  let rest := s.toList.drop key.length
  if key = [] ∨ rest = [] then .error ("expected key=value, got " ++ Quoted.quote s)
  else .ok (String.ofList key, String.ofList rest.tail)

def readLimit (s : String) : Except String Nat :=
  match Integer.read 0 18446744073709551615 s with
  | .error e => .error e.message
  | .ok n => if n < 1 then .error (toString n ++ " is not in 1..18446744073709551615") else .ok n.toNat

def readStart (s : String) : Except String StartPosition :=
  (StartPosition.parse s).mapError Error.message

/-- Sets the value of an option that may be given once. -/
def once {α : Type} (f : Flag) (old : Option α) (value : String) (read : String → Except String α)
    (set : α → Values) : Except UsageError Values :=
  if old.isSome then .error (.repeated f)
  else
    match read value with
    | .error why => .error (.invalid f value why)
    | .ok a => .ok (set a)

def accept (v : Values) (f : Flag) (value : String) : Except UsageError Values :=
  match f with
  | .log => once f v.log value .ok fun a => { v with log := some a }
  | .url => once f v.url value .ok fun a => { v with url := some a }
  | .topic => once f v.topic value .ok fun a => { v with topic := some a }
  | .id => once f v.id value .ok fun a => { v with id := some a }
  | .limit => once f v.limit value readLimit fun a => { v with limit := some a }
  | .startAt => once f v.start value readStart fun a => { v with start := some a }
  | .attribute =>
    match readAttribute value with
    | .error why => .error (.invalid f value why)
    | .ok a => .ok { v with attributes := v.attributes ++ [a] }

end Values

end PubSub.CommandLine
