import PubSub.Json.Scan

/-!
# Skipping a JSON value

A value nobody asked for is passed over without being built. Open lists and objects are kept on a
stack, so that depth costs nothing but space.
-/

namespace PubSub.Json

/-! ## Scalars -/

/-- Passes over an escape after its backslash; a numbered one is not paired. -/
def skipEscape : Bytes → Except (Failure Flaw) Bytes
  | [] => fail .endInString [] .read
  | b :: s =>
    if b = 117 then restOf (hexUnit s)
    else if (shortEscape? b).isSome then .ok s
    else fail .invalidEscape s .read

theorem skipEscape_left {s r : Bytes} (h : skipEscape s = .ok r) : Left r s := by
  unfold skipEscape at h
  split at h
  · cases h
  · next b t =>
    split at h
    · obtain ⟨n, unit⟩ := eq_ok_of_restOf h
      exact (Left.cons b t).before (hexUnit_suffix unit)
    · split at h
      · cases h
        exact .cons b r
      · cases h

/-- Passes over a string after its opening quote; its bytes need not be text. -/
def skipText (s : Bytes) : Except (Failure Flaw) Bytes :=
  match s with
  | [] => fail .endInString [] .read
  | b :: s =>
    if b = 34 then .ok s
    else if b = 92 then
      match _h : skipEscape s with
      | .error e => .error e
      | .ok r => skipText r
    else if b < 32 then fail .controlCharacter (b :: s) .looked
    else skipText s
termination_by s.length
decreasing_by
  · have := (skipEscape_left _h).shorter
    simp only [List.length_cons]
    omega
  · simp

theorem skipText_left {s r : Bytes} (h : skipText s = .ok r) : Left r s := by
  fun_induction skipText s with
  | case1 | case3 | case5 => cases h
  | case2 s =>
    cases h
    exact .cons _ _
  | case4 s t escaped _ ih =>
    exact (ih h).after ((skipEscape_left escaped).suffix.trans (List.suffix_cons _ _))
  | case6 b s _ _ _ ih => exact (ih h).after (List.suffix_cons _ _)

/-- The letters of a literal after its first one. -/
def literalTail? (b : UInt8) : Option Bytes :=
  if b = 110 then some [117, 108, 108]
  else if b = 116 then some [114, 117, 101]
  else if b = 102 then some [97, 108, 115, 101]
  else none

/-- Passes over a value that holds no other and begins with `b`. -/
def skipScalar (b : UInt8) (s : Bytes) : Except (Failure Flaw) Bytes :=
  match literalTail? b with
  | some word => literal word s
  | none =>
    if b = 34 then skipText s
    else if b = 45 then restOf (numeral .invalidNumber true s)
    else if isDigit b then restOf (numeral .invalidNumber false (b :: s))
    else fail .valueExpected (b :: s) .next

theorem skipScalar_left {b : UInt8} {s r : Bytes} (h : skipScalar b s = .ok r) :
    Left r (b :: s) := by
  unfold skipScalar at h
  split at h
  · exact (Left.cons b s).before (literal_suffix h)
  · split at h
    · exact (Left.cons b s).before (skipText_left h).suffix
    · split at h
      · obtain ⟨n, read⟩ := eq_ok_of_restOf h
        exact (Left.cons b s).before (numeral_left read).suffix
      · split at h
        · obtain ⟨n, read⟩ := eq_ok_of_restOf h
          exact numeral_left read
        · cases h

/-! ## Lists and objects -/

inductive Frame where
  | list
  | object
  deriving DecidableEq, Repr

def Frame.close : Frame → UInt8
  | .list => 93
  | .object => 125

def Frame.endFlaw : Frame → Flaw
  | .list => .endInList
  | .object => .endInObject

def Frame.commaFlaw : Frame → Flaw
  | .list => .listCommaOrEndExpected
  | .object => .objectCommaOrEndExpected

/-- Passes over the colon after a key. -/
def colon (s : Bytes) : Except (Failure Flaw) Bytes :=
  match skipSpace s with
  | [] => fail .endInObject [] .next
  | b :: r => if b = 58 then .ok r else fail .colonExpected (b :: r) .next

theorem colon_left {s r : Bytes} (h : colon s = .ok r) : Left r s := by
  unfold colon at h
  split at h
  · cases h
  · next b t begins =>
    split at h
    · cases h
      exact skipSpace_left begins
    · cases h

/-- Passes over what stands before a member's value: nothing in a list, a key in an object. -/
def skipKey (frame : Frame) (s : Bytes) : Except (Failure Flaw) Bytes :=
  match frame with
  | .list => .ok s
  | .object =>
    match skipSpace s with
    | [] => fail .endInObject [] .next
    | b :: r =>
      if b = 34 then
        match skipText r with
        | .error e => .error e
        | .ok r => colon r
      else fail .keyNotString (b :: r) .next

theorem skipKey_suffix {frame : Frame} {s r : Bytes} (h : skipKey frame s = .ok r) : r <:+ s := by
  unfold skipKey at h
  split at h
  · cases h
    exact List.suffix_refl _
  · split at h
    · cases h
    · next b t begins =>
      split at h
      · split at h
        · cases h
        · next u key =>
          have before := (skipText_left key).suffix.trans (skipSpace_left begins).suffix
          exact (colon_left h).suffix.trans before
      · cases h

/-- What may come next while the lists and objects of a stack are open. -/
inductive Await where
  | value
  | member
  | firstMember
  deriving DecidableEq, Repr

def Await.rank : Await → Nat
  | .firstMember => 1
  | _ => 0

/-- Passes over what is left of a value whose open parts are `stack`, innermost first. -/
def skipRest (await : Await) (stack : List Frame) (s : Bytes) : Except (Failure Flaw) Bytes :=
  match await, stack with
  | .value, stack =>
    match _h : skipSpace s with
    | [] => fail .endInValue [] .next
    | b :: r =>
      if b = 91 then skipRest .firstMember (.list :: stack) r
      else if b = 123 then skipRest .firstMember (.object :: stack) r
      else
        match _h' : skipScalar b r with
        | .error e => .error e
        | .ok r => skipRest .member stack r
  | _, [] => .ok s
  | .member, frame :: stack =>
    match _h : skipSpace s with
    | [] => fail frame.endFlaw [] .next
    | b :: r =>
      if b = 44 then
        match _h' : skipKey frame r with
        | .error e => .error e
        | .ok r => skipRest .value (frame :: stack) r
      else if b = frame.close then skipRest .member stack r
      else fail frame.commaFlaw (b :: r) .next
  | .firstMember, frame :: stack =>
    match _h : skipSpace s with
    | [] => fail frame.endFlaw [] .next
    | b :: r =>
      if b = frame.close then skipRest .member stack r
      else
        match _h' : skipKey frame (b :: r) with
        | .error e => .error e
        | .ok r => skipRest .value (frame :: stack) r
termination_by 2 * s.length + await.rank
decreasing_by
  all_goals simp only [Await.rank]
  · have := (skipSpace_left _h).shorter
    omega
  · have := (skipSpace_left _h).shorter
    omega
  · have := ((skipScalar_left _h').after (_h ▸ skipSpace_suffix s)).shorter
    omega
  · have := ((skipSpace_left _h).before (skipKey_suffix _h')).shorter
    omega
  · have := (skipSpace_left _h).shorter
    omega
  · have := (skipSpace_left _h).shorter
    omega
  · have := ((skipKey_suffix _h').trans (_h ▸ skipSpace_suffix s)).length_le
    omega

/-- Passes over one value. -/
def skipValue (s : Bytes) : Except (Failure Flaw) Bytes := skipRest .value [] s

theorem skipRest_suffix {await : Await} {stack : List Frame} {s r : Bytes}
    (h : skipRest await stack s = .ok r) : r <:+ s := by
  fun_induction skipRest await stack s with
  | case1 | case4 | case7 | case8 | case11 | case12 | case14 => cases h
  | case2 s stack t begins ih | case3 s stack t begins _ ih | case10 s frame stack t begins _ ih
  | case13 s frame stack t begins ih => exact (ih h).trans (skipSpace_left begins).suffix
  | case5 s stack b t begins _ _ u scalar ih =>
    exact (ih h).trans ((skipScalar_left scalar).suffix.trans (begins ▸ skipSpace_suffix s))
  | case6 =>
    cases h
    exact List.suffix_refl _
  | case9 s frame stack t u key begins ih =>
    exact (ih h).trans ((skipKey_suffix key).trans (skipSpace_left begins).suffix)
  | case15 s frame stack b t begins _ u key ih =>
    exact (ih h).trans ((skipKey_suffix key).trans (begins ▸ skipSpace_suffix s))

end PubSub.Json
