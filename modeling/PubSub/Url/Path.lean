import PubSub.Url.Basic
import PubSub.Url.Percent

/-!
# Paths

A path is built segment by segment: a dot segment adds nothing, a double dot segment takes the
segment before it away, and all others are percent encoded. The path built so far is kept last
character first.
-/

namespace PubSub.Url

/-! ## Drive letters -/

/-- A letter and a colon or bar, which name a drive. -/
def isDriveLetter (s : List Char) : Bool :=
  match s with
  | [a, b] => a.isAlpha && (b = ':' || b = '|')
  | _ => false

def isNormalDriveLetter (s : List Char) : Bool := isDriveLetter s && s.getLast? = some ':'

/-- Whether `s` is a separator, a drive letter, and then its end or another separator. -/
def beginsWithDrive : List Char → Bool
  | a :: b :: c :: rest =>
    ['/', '\\', '?', '#'].contains a && isDriveLetter [b, c] &&
      match rest with
      | [] => true
      | d :: _ => ['/', '\\', '?', '#'].contains d
  | _ => false

/-! ## Segments -/

/-- The path built so far, last character first, and whether a drive took the host's place. -/
structure PathDraft where
  reversed : List Char
  dropsHost : Bool
  deriving DecidableEq, Repr

def isSeparator (kind : SchemeKind) (c : Char) : Bool := c = '/' || (kind.isSpecial && c = '\\')

def endsPath (c : Char) : Bool := c = '?' || c = '#'

/-- Dots may be written by their number. -/
def plainDots : List Char → List Char
  | '%' :: '2' :: 'e' :: r => '.' :: plainDots r
  | '%' :: '2' :: 'E' :: r => '.' :: plainDots r
  | c :: r => c :: plainDots r
  | [] => []

/-- The path without the slash at its end, unless that is the first one or ends a drive. -/
def withoutLastSlash (reversed : List Char) : List Char :=
  match reversed with
  | '/' :: r =>
    let last := r.takeWhile (· ≠ '/')
    if last.length < r.length then
      if beginsWithDrive ('/' :: last.reverse ++ ['/']) then reversed else r
    else reversed
  | r => r

/-- The path up to its last slash; a drive letter stays. -/
def withoutLastSegment (kind : SchemeKind) (reversed : List Char) : List Char :=
  let last := reversed.takeWhile (· ≠ '/')
  if kind = .file ∧ isNormalDriveLetter last.reverse then reversed
  else reversed.drop last.length

def closed (slash : Bool) (reversed : List Char) : List Char :=
  if slash && reversed.head? ≠ some '/' then '/' :: reversed else reversed

/-- Adds the segment `s`, which a separator ends if `slash` is set. -/
def addSegment (kind : SchemeKind) (p : PathDraft) (s : List Char) (slash : Bool) : PathDraft :=
  let plain := plainDots s
  if plain = ['.', '.'] then
    ⟨closed slash (withoutLastSegment kind (withoutLastSlash p.reversed)), p.dropsHost⟩
  else if plain = ['.'] then ⟨closed true p.reversed, p.dropsHost⟩
  else
    let written := Percent.encode Percent.inPath s
    if kind = .file ∧ p.reversed.length = 1 ∧ isDriveLetter written then
      ⟨closed slash (':' :: written.take 1 ++ p.reversed), true⟩
    else
      let r := written.reverse ++ p.reversed
      ⟨if slash then '/' :: r else r, p.dropsHost⟩

/-- Adds all segments of a text up to its query or fragment, and returns what follows them. -/
def addSegments (kind : SchemeKind) (p : PathDraft) (s : List Char) : PathDraft × List Char :=
  let stops (c : Char) : Bool := isSeparator kind c || endsPath c
  match _h : s.dropWhile fun c => !stops c with
  | [] => (addSegment kind p (s.takeWhile fun c => !stops c) false, [])
  | c :: r =>
    let segment := s.takeWhile fun c => !stops c
    if isSeparator kind c then addSegments kind (addSegment kind p segment true) r
    else (addSegment kind p segment false, c :: r)
termination_by s.length
decreasing_by
  have : (s.dropWhile fun c => !stops c).length ≤ s.length :=
    (List.dropWhile_sublist _).length_le
  simp only [stops, _h, List.length_cons] at this
  omega

/-- The path that `s` begins with after `start`. The path of a file begins with one slash. -/
def readPath (kind : SchemeKind) (start s : List Char) : String × Bool × List Char :=
  let (p, r) := addSegments kind ⟨start.reverse, false⟩ s
  let path := p.reversed.reverse
  let path := if kind = .file then '/' :: path.dropWhile (· = '/') else path
  (String.ofList path, p.dropsHost, r)

end PubSub.Url
