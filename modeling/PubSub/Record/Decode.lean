import PubSub.Json.Skip
import PubSub.Message
import PubSub.Record.Flaw

/-!
# Reading records

A record is an object with at most one member each for the identifier, the payload and the labels,
or a list of at most these three in this order. All other members of an object are passed over.
-/

namespace PubSub.Record

open Json (Aim Failure Left fail skipSpace skipSpace_left skipSpace_suffix)

abbrev Scan (α : Type) := Except (Failure Flaw) (α × Bytes)

/-- A failure of scanning as one of reading a record. -/
def malformed {α : Type} : Except (Failure Json.Flaw) α → Except (Failure Flaw) α
  | .error e => .error (e.map .malformed)
  | .ok a => .ok a

theorem eq_ok_of_malformed {α : Type} {x : Except (Failure Json.Flaw) α} {a : α}
    (h : malformed x = .ok a) : x = .ok a := by
  cases x <;> simp_all [malformed]

/-! ## Values -/

/-- The failure of a value that begins with `b` where another kind is wanted. -/
def mismatch {α : Type} (wanted : Wanted) (b : UInt8) (s : Bytes) : Except (Failure Flaw) α :=
  let instead (found : Found) (x : Except (Failure Json.Flaw) Bytes) :=
    match malformed x with
    | .error e => .error e
    | .ok r => fail (.unexpected found wanted) r .read
  let insteadNumber (x : Json.Scan Json.Number) :=
    match malformed x with
    | .error e => .error e
    | .ok (n, r) => fail (.unexpected (.number n) wanted) r .looked
  if b = 110 then instead .null (Json.literal [117, 108, 108] s)
  else if b = 116 then instead (.boolean true) (Json.literal [114, 117, 101] s)
  else if b = 102 then instead (.boolean false) (Json.literal [97, 108, 115, 101] s)
  else if b = 45 then insteadNumber (Json.number true s)
  else if Json.isDigit b then insteadNumber (Json.number false (b :: s))
  else if b = 34 then
    match malformed (Json.text s) with
    | .error e => .error e
    | .ok (t, r) => fail (.unexpected (.text t) wanted) r .read
  else if b = 91 then fail (.unexpected .list wanted) (b :: s) .looked
  else if b = 123 then fail (.unexpected .object wanted) (b :: s) .looked
  else fail (.malformed .valueExpected) (b :: s) .next

theorem mismatch_ne_ok {α : Type} {wanted : Wanted} {b : UInt8} {s : Bytes} {a : α} :
    mismatch wanted b s ≠ .ok a := by
  unfold mismatch
  grind [fail]

def text (s : Bytes) : Scan String :=
  match skipSpace s with
  | [] => fail (.malformed .endInValue) [] .next
  | b :: r => if b = 34 then malformed (Json.text r) else mismatch .text b r

/-- A text or `null`. -/
def optionalText (s : Bytes) : Scan (Option String) :=
  let required :=
    match text s with
    | .error e => .error e
    | .ok (t, r) => .ok (some t, r)
  match skipSpace s with
  | [] => required
  | b :: r =>
    if b = 110 then
      match malformed (Json.literal [117, 108, 108] r) with
      | .error e => .error e
      | .ok r => .ok (none, r)
    else required

theorem text_left {s r : Bytes} {t : String} (h : text s = .ok (t, r)) : Left r s := by
  unfold text at h
  split at h
  · cases h
  · next b u begins =>
    split at h
    · exact (Json.text_left (eq_ok_of_malformed h)).after (skipSpace_left begins).suffix
    · exact absurd h mismatch_ne_ok

theorem optionalText_left {s r : Bytes} {t : Option String} (h : optionalText s = .ok (t, r)) :
    Left r s := by
  unfold optionalText at h
  cases begins : skipSpace s with
  | nil =>
    simp only [begins] at h
    split at h
    · cases h
    · next v w read =>
      cases h
      exact text_left read
  | cons b u =>
    simp only [begins] at h
    split at h
    · split at h
      · cases h
      · next v null =>
        cases h
        exact (skipSpace_left begins).before (Json.literal_suffix (eq_ok_of_malformed null))
    · split at h
      · cases h
      · next v w read =>
        cases h
        exact text_left read

/-! ## Keys -/

/-- What stands before a member: nothing at first, a comma later. The rest is after the opening
quote of the key, `none` at the end of the object. -/
def keyStart (first : Bool) (s : Bytes) : Scan Bool :=
  match skipSpace s with
  | [] => fail (.malformed .endInObject) [] .next
  | b :: r =>
    if b = 125 then .ok (false, b :: r)
    else if first then
      if b = 34 then .ok (true, r) else fail (.malformed .keyNotString) (b :: r) .next
    else if b = 44 then
      match skipSpace r with
      | [] => fail (.malformed .endInValue) [] .next
      | c :: t =>
        if c = 34 then .ok (true, t)
        else if c = 125 then fail (.malformed .trailingComma) (c :: t) .next
        else fail (.malformed .keyNotString) (c :: t) .next
    else fail (.malformed .objectCommaOrEndExpected) (b :: r) .next

/-- The next key of an object, `none` at its end. -/
def key (first : Bool) (s : Bytes) : Scan (Option String) :=
  match keyStart first s with
  | .error e => .error e
  | .ok (false, r) => .ok (none, r)
  | .ok (true, r) =>
    match malformed (Json.text r) with
    | .error e => .error e
    | .ok (k, r) => .ok (some k, r)

theorem keyStart_suffix {first b : Bool} {s r : Bytes} (h : keyStart first s = .ok (b, r)) :
    r <:+ s := by
  unfold keyStart at h
  split at h
  · cases h
  · next a t begins =>
    have rest := (skipSpace_left begins).suffix
    split at h
    · cases h
      exact begins ▸ skipSpace_suffix s
    · split at h
      · split at h
        · cases h
          exact rest
        · cases h
      · split at h
        · split at h
          · cases h
          · next c u after =>
            split at h
            · cases h
              exact (skipSpace_left after).suffix.trans rest
            · split at h
              · cases h
              · cases h
        · cases h

theorem key_suffix {first : Bool} {s r : Bytes} {k : Option String}
    (h : key first s = .ok (k, r)) : r <:+ s := by
  unfold key at h
  split at h
  · cases h
  · next t start =>
    cases h
    exact keyStart_suffix start
  · next t start =>
    split at h
    · cases h
    · next k u read =>
      cases h
      exact (Json.text_left (eq_ok_of_malformed read)).suffix.trans (keyStart_suffix start)

/-! ## Labels -/

/-- The members of an object of texts, up to its closing brace. -/
def labelMembers (first : Bool) (labels : Attributes) (s : Bytes) : Scan Attributes :=
  match _hk : key first s with
  | .error e => .error e
  | .ok (none, r) => .ok (labels, r)
  | .ok (some k, r) =>
    match _hc : Json.colon r with
    | .error e => .error (e.map .malformed)
    | .ok r =>
      match _ht : text r with
      | .error e => .error e
      | .ok (v, r) => labelMembers false (labels.insert k v) r
termination_by s.length
decreasing_by
  have before := (Json.colon_left _hc).suffix.trans (key_suffix _hk)
  exact ((text_left _ht).after before).shorter

def labels (s : Bytes) : Scan Attributes :=
  match skipSpace s with
  | [] => fail (.malformed .endInValue) [] .next
  | b :: r =>
    if b = 123 then
      match labelMembers true NameMap.empty r with
      | .error e => .error e
      | .ok (a, r) => .ok (a, r.drop 1)
    else mismatch .labels b r

theorem labelMembers_suffix {first : Bool} {labels a : Attributes} {s r : Bytes}
    (h : labelMembers first labels s = .ok (a, r)) : r <:+ s := by
  fun_induction labelMembers first labels s with
  | case1 | case3 | case4 => cases h
  | case2 first labels s t ends =>
    cases h
    exact key_suffix ends
  | case5 first labels s k t name u colon v w value ih =>
    have before := (Json.colon_left colon).suffix.trans (key_suffix name)
    exact (ih h).trans ((text_left value).suffix.trans before)

theorem labels_left {s r : Bytes} {a : Attributes} (h : labels s = .ok (a, r)) : Left r s := by
  unfold labels at h
  split at h
  · cases h
  · next b t begins =>
    split at h
    · split at h
      · cases h
      · next c u read =>
        cases h
        have inner := (List.drop_suffix 1 u).trans (labelMembers_suffix read)
        exact (skipSpace_left begins).before inner
    · exact absurd h mismatch_ne_ok

/-! ## Fields -/

/-- The fields met so far. -/
structure Draft where
  id : Option (Option String)
  data : Option Bytes
  attributes : Option Attributes
  deriving DecidableEq, Repr

namespace Draft

def empty : Draft := ⟨none, none, none⟩

def has (d : Draft) : Field → Bool
  | .id => d.id.isSome
  | .data => d.data.isSome
  | .attributes => d.attributes.isSome

/-- The message with defaults for the fields that were not met. -/
def message (d : Draft) : Message :=
  ⟨d.id.getD none, d.data.getD [], d.attributes.getD NameMap.empty⟩

end Draft

/-- The bytes of a payload text. -/
def payload (s : Bytes) : Scan Bytes :=
  match optionalText s with
  | .error e => .error e
  | .ok (none, r) => .ok ([], r)
  | .ok (some t, r) =>
    match Base64.decode (Utf8.ofText t) with
    | .ok bs => .ok (bs, r)
    | .error flaw => fail (.payload flaw) r .closing

def field (f : Field) (d : Draft) (s : Bytes) : Scan Draft :=
  match f with
  | .id =>
    match optionalText s with
    | .error e => .error e
    | .ok (t, r) => .ok (⟨some t, d.data, d.attributes⟩, r)
  | .data =>
    match payload s with
    | .error e => .error e
    | .ok (bs, r) => .ok (⟨d.id, some bs, d.attributes⟩, r)
  | .attributes =>
    match labels s with
    | .error e => .error e
    | .ok (a, r) => .ok (⟨d.id, d.data, some a⟩, r)

/-- A member after its key: a field is met at most once, anything else is passed over. -/
def member (k : String) (d : Draft) (s : Bytes) : Scan Draft :=
  match Field.ofName? k with
  | none =>
    match Json.colon s with
    | .error e => .error (e.map .malformed)
    | .ok r =>
      match malformed (Json.skipValue r) with
      | .error e => .error e
      | .ok r => .ok (d, r)
  | some f =>
    if d.has f then fail (.repeated f) s .closing
    else
      match Json.colon s with
      | .error e => .error (e.map .malformed)
      | .ok r => field f d r

theorem payload_left {s r bs : Bytes} (h : payload s = .ok (bs, r)) : Left r s := by
  unfold payload at h
  split at h
  · cases h
  · next t read =>
    cases h
    exact optionalText_left read
  · next t u read =>
    split at h
    · cases h
      exact optionalText_left read
    · cases h

theorem field_left {f : Field} {d d' : Draft} {s r : Bytes} (h : field f d s = .ok (d', r)) :
    Left r s := by
  unfold field at h
  split at h
  · split at h
    · cases h
    · next read =>
      cases h
      exact optionalText_left read
  · split at h
    · cases h
    · next read =>
      cases h
      exact payload_left read
  · split at h
    · cases h
    · next read =>
      cases h
      exact labels_left read

theorem member_left {k : String} {d d' : Draft} {s r : Bytes}
    (h : member k d s = .ok (d', r)) : Left r s := by
  unfold member at h
  split at h
  · split at h
    · cases h
    · next t colon =>
      split at h
      · cases h
      · next u skipped =>
        cases h
        exact (Json.colon_left colon).before (Json.skipRest_suffix (eq_ok_of_malformed skipped))
  · split at h
    · cases h
    · split at h
      · cases h
      · next t colon => exact (field_left h).after (Json.colon_left colon).suffix

/-- The members of a record, up to its closing brace. -/
def members (first : Bool) (d : Draft) (s : Bytes) : Scan Draft :=
  match _hk : key first s with
  | .error e => .error e
  | .ok (none, r) => .ok (d, r)
  | .ok (some k, r) =>
    match _hm : member k d r with
    | .error e => .error e
    | .ok (d, r) => members false d r
termination_by s.length
decreasing_by
  exact ((member_left _hm).after (key_suffix _hk)).shorter

/-! ## Lists -/

/-- Whether another element of a list follows, with the bytes from it on. -/
def elementStart (first : Bool) (s : Bytes) : Scan Bool :=
  match skipSpace s with
  | [] => fail (.malformed .endInList) [] .next
  | b :: r =>
    if b = 93 then .ok (false, b :: r)
    else if first then .ok (true, b :: r)
    else if b = 44 then
      match skipSpace r with
      | [] => fail (.malformed .endInValue) [] .next
      | c :: t =>
        if c = 93 then fail (.malformed .trailingComma) (c :: t) .next else .ok (true, c :: t)
    else fail (.malformed .listCommaOrEndExpected) (b :: r) .next

/-- The elements of a list for the fields `fs`, as far as they go. -/
def elements (first : Bool) (fs : List Field) (d : Draft) (s : Bytes) : Scan Draft :=
  match fs with
  | [] => .ok (d, s)
  | f :: fs =>
    match elementStart first s with
    | .error e => .error e
    | .ok (false, r) => .ok (d, r)
    | .ok (true, r) =>
      match field f d r with
      | .error e => .error e
      | .ok (d, r) => elements false fs d r

/-- The end of a list that may hold no more elements. -/
def endList (s : Bytes) : Except (Failure Flaw) Bytes :=
  match skipSpace s with
  | [] => fail (.malformed .endInList) [] .next
  | b :: r =>
    if b = 93 then .ok r
    else if b = 44 then
      match skipSpace r with
      | [] => fail (.malformed .trailingCharacters) [] .next
      | c :: t =>
        if c = 93 then fail (.malformed .trailingComma) (c :: t) .next
        else fail (.malformed .trailingCharacters) (c :: t) .next
    else fail (.malformed .trailingCharacters) (b :: r) .next

/-! ## Records -/

/-- Where a failure that waits for the end of its object lands: after the closing brace if that is
what comes next. -/
def settleInObject (e : Failure Flaw) : Failure Flaw :=
  if e.aim = .closing then
    match skipSpace e.rest with
    | b :: r => if b = 125 then ⟨e.cause, r, .read⟩ else ⟨e.cause, b :: r, .looked⟩
    | [] => ⟨e.cause, [], .read⟩
  else e

/-- Where a failure that waits for the end of its list lands: a comma is passed over too. -/
def settleInList (e : Failure Flaw) : Failure Flaw :=
  if e.aim = .closing then
    match skipSpace e.rest with
    | b :: r =>
      if b = 93 then ⟨e.cause, r, .read⟩
      else if b = 44 then ⟨e.cause, skipSpace r, .looked⟩
      else ⟨e.cause, b :: r, .looked⟩
    | [] => ⟨e.cause, [], .read⟩
  else e

/-- One record at the front of `s`. -/
def read (s : Bytes) : Scan Message :=
  match skipSpace s with
  | [] => fail (.malformed .endInValue) [] .next
  | b :: r =>
    if b = 123 then
      match members true Draft.empty r with
      | .error e => .error (settleInObject e)
      | .ok (d, r) => .ok (d.message, r.drop 1)
    else if b = 91 then
      match elements true [.id, .data, .attributes] Draft.empty r with
      | .error e => .error (settleInList e)
      | .ok (d, r) =>
        match endList r with
        | .error e => .error e
        | .ok r => .ok (d.message, r)
    else mismatch .record b r

/-- One record that fills `s`, white space apart. -/
def readWhole (s : Bytes) : Except (Failure Flaw) Message :=
  match read s with
  | .error e => .error e
  | .ok (m, r) =>
    match skipSpace r with
    | [] => .ok m
    | b :: t => fail (.malformed .trailingCharacters) (b :: t) .next

/-- The message of one whole record. -/
def decode (s : Bytes) : Except DecodeError Message :=
  match readWhole s with
  | .ok m => .ok m
  | .error e => .error ⟨e.cause, some (e.position .whole .start s)⟩

end PubSub.Record
