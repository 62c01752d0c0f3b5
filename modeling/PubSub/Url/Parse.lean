import PubSub.Url.Host
import PubSub.Url.Path

/-!
# Reading URLs

A text is cleaned of surrounding blanks and of all tabs and line ends, then read from left to right:
scheme, authority, path, query, fragment.
-/

namespace PubSub.Url

/-! ## Scheme -/

def isBlank (c : Char) : Bool := c.toNat ≤ 0x20

def isLineSpace (c : Char) : Bool := c = '\t' || c = '\n' || c = '\r'

/-- The text without what is never part of a URL. -/
def clean (s : List Char) : List Char :=
  (((s.dropWhile isBlank).reverse.dropWhile isBlank).reverse).filter (!isLineSpace ·)

def isSchemeChar (c : Char) : Bool := c.isAlphanum || c = '+' || c = '-' || c = '.'

/-- The scheme in lower case and what follows its colon. -/
def scheme? (s : List Char) : Option (String × List Char) :=
  match s with
  | c :: _ =>
    if c.isAlpha then
      match s.dropWhile isSchemeChar with
      | ':' :: r => some (String.ofList ((s.takeWhile isSchemeChar).map Char.toLower), r)
      | _ => none
    else none
  | [] => none

/-! ## Authority -/

def endsAuthority (kind : SchemeKind) (c : Char) : Bool := isSeparator kind c || endsPath c

/-- Name and password before the last `@`, encoded; nothing at all when both are empty. -/
def credentials (user : List Char) : String :=
  let name := user.takeWhile (· ≠ ':')
  let password := (user.dropWhile (· ≠ ':')).drop 1
  let written := Percent.encode Percent.inCredentials
  if name = [] ∧ password = [] then ""
  else
    let colon := if password = [] then [] else [':']
    String.ofList (written name ++ colon ++ written password ++ ['@'])

/-- The credentials of an authority and what follows their `@`. -/
def readCredentials (kind : SchemeKind) (s : List Char) : Except Flaw (String × List Char) :=
  let authority := s.takeWhile (!endsAuthority kind ·)
  if authority.contains '@' then
    let user := ((authority.reverse.dropWhile (· ≠ '@')).drop 1).reverse
    let r := s.drop (user.length + 1)
    if user = [] ∧ r.head?.any (endsAuthority kind) then .error .emptyHost
    else .ok (credentials user, r)
  else .ok ("", s)

/-- How many characters belong to the host: up to a colon outside brackets, or the path. -/
def hostLength (kind : SchemeKind) (inside : Bool) : List Char → Nat
  | [] => 0
  | c :: r =>
    if (c = ':' ∧ !inside) ∨ endsAuthority kind c then 0
    else hostLength kind (c = '[' || (inside && c ≠ ']')) r + 1

/-- The port and what follows it; `none` if it is missing or the scheme's own. -/
def readPort (scheme : String) (s : List Char) : Except Flaw (Option Nat × List Char) :=
  let digits := s.takeWhile Char.isDigit
  let r := s.drop digits.length
  let n := digits.foldl (fun n c => n * 10 + (c.toNat - 48)) 0
  if n > 65535 then .error .port
  else
    let ends :=
      match r with
      | [] => true
      | c :: _ => c = '/' || c = '\\' || endsPath c
    if !ends then .error .port
    else if digits = [] ∨ some n = defaultPort? scheme then .ok (none, r)
    else .ok (some n, r)

/-- The authority after its two slashes, and what follows it. -/
def readAuthority (scheme : String) (kind : SchemeKind) (s : List Char) :
    Except Flaw (Authority × List Char) := do
  let (user, s) ← readCredentials kind s
  let n := hostLength kind false s
  let text := s.take n
  let r := s.drop n
  if kind = .special ∧ text = [] then .error .emptyHost
  let host ← if kind.isSpecial then Host.specialHost text else Host.opaqueHost text
  if host = "" ∧ r.head? = some ':' then .error .emptyHost
  let (port, r) ← if r.head? = some ':' then readPort scheme (r.drop 1) else .ok (none, r)
  if host = "" ∧ user ≠ "" then .error .emptyHost
  return (⟨user, if host = "" then none else some host, port⟩, r)

/-! ## Query and fragment -/

/-- The query and fragment that follow a path. -/
def readTail (kind : SchemeKind) (s : List Char) : Option String × Option String :=
  let fragment (s : List Char) : Option String :=
    match s with
    | '#' :: f => some (String.ofList (Percent.encode Percent.inFragment f))
    | _ => none
  match s with
  | '?' :: r =>
    let q := r.takeWhile (· ≠ '#')
    let set := if kind.isSpecial then Percent.inSpecialQuery else Percent.inQuery
    (some (String.ofList (Percent.encode set q)), fragment (r.drop q.length))
  | s => (none, fragment s)

def finish (scheme : String) (kind : SchemeKind) (authority : Option Authority) (path : String)
    (s : List Char) : Url :=
  let (query, fragment) := readTail kind s
  ⟨scheme, authority, path, query, fragment⟩

/-! ## Kinds of URLs -/

/-- What follows the slashes of a special scheme that is not `file`. -/
def readSpecial (scheme : String) (s : List Char) : Except Flaw Url := do
  let (authority, r) ← readAuthority scheme .special (s.dropWhile (isSeparator .special))
  let r := if r.head?.any (isSeparator .special) then r.drop 1 else r
  let (path, _, r) := readPath .special ['/'] r
  return finish scheme .special (some authority) path r

/-- What follows the colon of a scheme without rules of its own. -/
def readOther (scheme : String) (s : List Char) : Except Flaw Url :=
  match s with
  | '/' :: '/' :: s => do
    let (authority, r) ← readAuthority scheme .other s
    let start := if r.head?.any fun c => c ≠ '/' && !endsPath c then ['/'] else []
    let (path, _, r) := readPath .other start r
    return finish scheme .other (some authority) path r
  | '/' :: s =>
    let (path, _, r) := readPath .other ['/'] s
    .ok (finish scheme .other none path r)
  | s =>
    let path := s.takeWhile (!endsPath ·)
    .ok (finish scheme .other none (String.ofList (Percent.encode Percent.isControl path))
      (s.drop path.length))

/-- The host of a file, `none` for this machine or when a drive letter stands in its place, and what
follows it. -/
def fileHost (s : List Char) : Except Flaw (Option String × List Char) :=
  let text := s.takeWhile (!endsAuthority .file ·)
  if isDriveLetter text then .ok (none, s)
  else if text = [] then .ok (none, s)
  else
    match Host.specialHost text with
    | .error e => .error e
    | .ok h => .ok (if h = "localhost" then none else some h, s.drop text.length)

/-- What follows the colon of `file`. -/
def readFile (s : List Char) : Except Flaw Url :=
  let finishFile (host : Option String) (path : String) (r : List Char) : Url :=
    finish "file" .file (some ⟨"", host, none⟩) path r
  let isSlash := isSeparator .file
  match s with
  | a :: b :: t =>
    if isSlash a then
      if isSlash b then do
        let (host, r) ← fileHost t
        match host with
        | none =>
          let (path, _, r) := readPath .file ['/'] r
          return finishFile none path r
        | some h =>
          let r := if r.head?.any isSlash then r.drop 1 else r
          let (path, dropsHost, r) := readPath .file ['/'] r
          return finishFile (if dropsHost then none else some h) path r
      else
        let (path, _, r) := readPath .file [] s
        .ok (finishFile none path r)
    else
      let (path, _, r) := readPath .file ['/'] s
      .ok (finishFile none path r)
  | _ =>
    let start := if s.head?.any isSlash then [] else ['/']
    let (path, _, r) := readPath .file start s
    .ok (finishFile none path r)

def parse (input : String) : Except Flaw Url :=
  match scheme? (clean input.toList) with
  | none => .error .relative
  | some (scheme, r) =>
    match SchemeKind.of scheme with
    | .file => readFile r
    | .special => readSpecial scheme r
    | .other => readOther scheme r

end PubSub.Url
