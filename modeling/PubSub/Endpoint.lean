import PubSub.Error
import PubSub.Number.Integer
import PubSub.Text.Printable
import PubSub.Url.Parse

/-!
# Endpoints

A connection URL names a backend by its scheme and configures it by all else. An authority may list
several hosts; the URL then stands for the first one, and the list is kept beside it.
-/

namespace PubSub

structure Endpoint where
  url : Url
  hosts : List String
  deriving DecidableEq, Repr

namespace Endpoint

/-! ## Reading -/

/-- Splits a text at the first `://`. -/
def splitScheme? : List Char → Option (List Char × List Char)
  | ':' :: '/' :: '/' :: r => some ([], r)
  | c :: r => (splitScheme? r).map fun (a, b) => (c :: a, b)
  | [] => none

def endsHosts (c : Char) : Bool := c = '/' || c = '?' || c = '#'

/-- The non-empty entries of a host list. -/
def hostEntries (list : List Char) : List (List Char) :=
  ((list.splitOn ',').map trimBlanks).filter (· ≠ [])

/-- The host of a URL with its port, as a list of at most one. -/
def hostOf (url : Url) : List String :=
  match url.host, url.port with
  | none, _ => []
  | some h, none => [h]
  | some h, some p => [s!"{h}:{p}"]

def parseUrl (s : String) : Except Error Url := (Url.parse s).mapError .invalidUrl

def parse (input : String) : Except Error Endpoint :=
  match splitScheme? input.toList with
  | none => (parseUrl input).map fun url => ⟨url, []⟩
  | some (scheme, rest) =>
    let authority := rest.takeWhile (!endsHosts ·)
    let tail := rest.drop authority.length
    let list := (authority.reverse.takeWhile (· ≠ '@')).reverse
    let user := authority.take (authority.length - list.length)
    if list.contains ',' then
      let entries := hostEntries list
      let first := entries.head?.getD []
      let rebuilt := scheme ++ "://".toList ++ user ++ first ++ tail
      (parseUrl (String.ofList rebuilt)).map fun url => ⟨url, entries.map String.ofList⟩
    else (parseUrl input).map fun url => ⟨url, hostOf url⟩

/-! ## Parts -/

def scheme (e : Endpoint) : String := e.url.scheme

def host (e : Endpoint) : Option String := e.url.host

def path (e : Endpoint) : String := e.url.path

def text (e : Endpoint) : String := e.url.text

/-- The bytes of an absolute path; a drive letter at its end is followed by a slash. -/
def absolutePath (path : List Char) : Bytes :=
  let bytes := Percent.decode path
  match bytes.reverse with
  | b :: a :: _ :: _ =>
    let isLetter := (65 ≤ a && a ≤ 90) || (97 ≤ a && a ≤ 122)
    if isLetter && (b = 58 || b = 124) then bytes ++ [47] else bytes
  | _ => bytes

/-- Host and path joined into a path of the file system: absolute without a host, relative with
one. -/
def localPath (e : Endpoint) : Bytes :=
  let path := e.path.toList
  match e.host with
  | none => if path.head? = some '/' then absolutePath path else Utf8.encode path
  | some h => Utf8.ofText h ++ 47 :: Utf8.encode (path.dropWhile (· = '/'))

/-! ## Configuration -/

/-- The value of the first pair with a key. -/
def query (e : Endpoint) (key : String) : Option String :=
  e.url.query.bind fun q => (Query.pairs q).lookup key

/-- An empty value and one that begins like `0`, `false` or `no` are false. -/
def isTrue (value : String) : Bool :=
  match value.toList with
  | [] => false
  | c :: _ => !(['0', 'f', 'F', 'n', 'N'].contains c)

def queryFlag (e : Endpoint) (key : String) : Option Bool := (e.query key).map isTrue

/-- The value of a key as `read` takes it; a refusal names the key and the value. -/
def queryParse {α : Type} (e : Endpoint) (key : String) (read : String → Except String α) :
    Except Error (Option α) :=
  match e.query key with
  | none => .ok none
  | some v =>
    match read v with
    | .ok a => .ok (some a)
    | .error why =>
      .error (.config ("query parameter " ++ key ++ "=" ++ Quoted.quote v ++ ": " ++ why))

/-- The client identifier that the configuration supplies, if it is not empty. -/
def clientId? (e : Endpoint) : Option String := (e.query "client_id").filter (· ≠ "")

end Endpoint

/-! ## Typed values -/

/-- The types that a value of the configuration can be read as. -/
inductive ValueType where
  | unsigned (bits : Nat)
  | signed (bits : Nat)
  | boolean
  | character
  | text
  | start
  deriving DecidableEq, Repr

/-- The text of a value once it was read as a type. -/
def ValueType.read (t : ValueType) (v : String) : Except String String :=
  match t with
  | .unsigned bits =>
    match Integer.read 0 (((1 <<< bits : Nat) : Int) - 1) v with
    | .ok n => .ok (toString n)
    | .error e => .error e.message
  | .signed bits =>
    let half : Int := ((1 <<< (bits - 1) : Nat) : Int)
    match Integer.read (-half) (half - 1) v with
    | .ok n => .ok (toString n)
    | .error e => .error e.message
  | .boolean =>
    if v = "true" ∨ v = "false" then .ok v
    else .error "provided string was not `true` or `false`"
  | .character =>
    match v.toList with
    | [_] => .ok v
    | [] => .error "cannot parse char from empty string"
    | _ => .error "too many characters in string"
  | .text => .ok v
  | .start =>
    match StartPosition.parse v with
    | .ok s => .ok s.name
    | .error e => .error e.message

end PubSub
