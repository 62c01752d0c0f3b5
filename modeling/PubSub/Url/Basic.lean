/-!
# URLs

The parts of a parsed URL and the text they are written as. Every part is kept as it is written.
-/

namespace PubSub

/-- What stands between the two slashes and the path: the credentials with their `@`, the host and
a port that is not the scheme's own. -/
structure Authority where
  credentials : String
  host : Option String
  port : Option Nat
  deriving DecidableEq, Repr

structure Url where
  scheme : String
  authority : Option Authority
  path : String
  query : Option String
  fragment : Option String
  deriving DecidableEq, Repr

namespace Url

inductive Flaw where
  | relative
  | emptyHost
  | port
  | ipv4
  | ipv6
  | domain
  | hostCharacter
  deriving DecidableEq, Repr

def Flaw.message : Flaw → String
  | .relative => "relative URL without a base"
  | .emptyHost => "empty host"
  | .port => "invalid port number"
  | .ipv4 => "invalid IPv4 address"
  | .ipv6 => "invalid IPv6 address"
  | .domain => "invalid international domain name"
  | .hostCharacter => "invalid domain character"

/-! ## Schemes -/

/-- Schemes with rules of their own for hosts and paths. -/
inductive SchemeKind where
  | file
  | special
  | other
  deriving DecidableEq, Repr

def SchemeKind.of (scheme : String) : SchemeKind :=
  if scheme = "file" then .file
  else if ["http", "https", "ws", "wss", "ftp"].contains scheme then .special
  else .other

def SchemeKind.isSpecial (k : SchemeKind) : Bool := k ≠ .other

def defaultPort? (scheme : String) : Option Nat :=
  [("http", 80), ("https", 443), ("ws", 80), ("wss", 443), ("ftp", 21)].lookup scheme

/-! ## Text -/

def Authority.text (a : Authority) : String :=
  let port :=
    match a.port with
    | none => ""
    | some n => s!":{n}"
  a.credentials ++ a.host.getD "" ++ port

/-- The URL as text. Without authority, a path that begins with two slashes is set apart from the
scheme by a dot segment. -/
def text (u : Url) : String :=
  let authority :=
    match u.authority with
    | some a => "//" ++ Authority.text a
    | none => if u.path.startsWith "//" then "/." else ""
  let query :=
    match u.query with
    | none => ""
    | some q => "?" ++ q
  let fragment :=
    match u.fragment with
    | none => ""
    | some f => "#" ++ f
  u.scheme ++ ":" ++ authority ++ u.path ++ query ++ fragment

def host (u : Url) : Option String := u.authority.bind (·.host)

def port (u : Url) : Option Nat := u.authority.bind (·.port)

end Url

end PubSub
