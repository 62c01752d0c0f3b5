import PubSub.Url.Basic
import PubSub.Url.Ipv6
import PubSub.Url.Percent

/-!
# Hosts

Under special schemes a host is a domain name in lower case or an address; elsewhere it is kept as
it stands, with control and foreign characters percent encoded.
-/

namespace PubSub.Host

open Url (Flaw)

def isForbidden (c : Char) : Bool :=
  ['\x00', '\t', '\n', '\r', ' ', '#', '/', ':', '<', '>', '?', '@', '[', '\\', ']', '^', '|'].contains c

/-- An address in brackets, which stand before it and after it. -/
def bracketed (s : List Char) : Except Flaw String :=
  if s.getLast? ≠ some ']' then .error .ipv6
  else
    match Ipv6.parse? (s.drop 1).dropLast with
    | some ps => .ok ("[" ++ Ipv6.text ps ++ "]")
    | none => .error .ipv6

/-- A host outside the special schemes. -/
def opaqueHost (s : List Char) : Except Flaw String :=
  if s.head? = some '[' then bracketed s
  else if s.any isForbidden then .error .hostCharacter
  else .ok (String.ofList (Percent.encode Percent.isControl s))

/-- A domain name in lower case; it is written in ASCII and holds no reserved character. -/
def domain (bytes : Bytes) : Except Flaw (List Char) :=
  match Utf8.decode? bytes with
  | none => .error .domain
  | some cs =>
    if cs.any fun c => Percent.isControl c || c = '%' || isForbidden c then .error .domain
    else .ok (cs.map Char.toLower)

/-- A host under a special scheme. -/
def specialHost (s : List Char) : Except Flaw String :=
  if s.head? = some '[' then bracketed s
  else
    match domain (Percent.decode s) with
    | .error e => .error e
    | .ok [] => .error .emptyHost
    | .ok d =>
      if Ipv4.endsInNumber d then
        match Ipv4.parse? d with
        | some n => .ok (Ipv4.text n)
        | none => .error .ipv4
      else .ok (String.ofList d)

end PubSub.Host
