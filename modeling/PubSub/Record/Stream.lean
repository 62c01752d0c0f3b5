import PubSub.Record.Decode

/-!
# Streams of records

Records follow one another, with or without white space between them. A stream yields messages up
to its clean end or its first error, after which nothing more is read.
-/

namespace PubSub.Record

open Json (Left Position skipSpace skipSpace_left skipSpace_suffix)

theorem members_suffix {first : Bool} {d d' : Draft} {s r : Bytes}
    (h : members first d s = .ok (d', r)) : r <:+ s := by
  fun_induction members first d s with
  | case1 | case3 => cases h
  | case2 first d s t ends =>
    cases h
    exact key_suffix ends
  | case4 first d s k t name d u read ih =>
    exact (ih h).trans ((member_left read).suffix.trans (key_suffix name))

theorem elementStart_suffix {first b : Bool} {s r : Bytes}
    (h : elementStart first s = .ok (b, r)) : r <:+ s := by
  unfold elementStart at h
  split at h
  · cases h
  · next a t begins =>
    have here : a :: t <:+ s := begins ▸ skipSpace_suffix s
    split at h
    · cases h
      exact here
    · split at h
      · cases h
        exact here
      · split at h
        · split at h
          · cases h
          · next c u after =>
            split at h
            · cases h
            · cases h
              exact (after ▸ skipSpace_suffix t).trans (skipSpace_left begins).suffix
        · cases h

theorem elements_suffix {first : Bool} {fs : List Field} {d d' : Draft} {s r : Bytes}
    (h : elements first fs d s = .ok (d', r)) : r <:+ s := by
  fun_induction elements first fs d s with
  | case1 =>
    cases h
    exact List.suffix_refl _
  | case2 | case4 => cases h
  | case3 first d s f fs t ends =>
    cases h
    exact elementStart_suffix ends
  | case5 first d s f fs t start d u read ih =>
    exact (ih h).trans ((field_left read).suffix.trans (elementStart_suffix start))

theorem endList_suffix {s r : Bytes} (h : endList s = .ok r) : r <:+ s := by
  unfold endList at h
  split at h
  · cases h
  · next b t begins =>
    split at h
    · cases h
      exact (skipSpace_left begins).suffix
    · split at h
      · split at h
        · cases h
        · split at h
          · cases h
          · cases h
      · cases h

theorem read_left {s r : Bytes} {m : Message} (h : read s = .ok (m, r)) : Left r s := by
  unfold read at h
  split at h
  · cases h
  · next b t begins =>
    have rest := skipSpace_left begins
    split at h
    · split at h
      · cases h
      · next d u object =>
        cases h
        exact rest.before ((List.drop_suffix 1 u).trans (members_suffix object))
    · split at h
      · split at h
        · cases h
        · next d u list =>
          split at h
          · cases h
          · next v ends =>
            cases h
            exact rest.before ((endList_suffix ends).trans (elements_suffix list))
      · exact absurd h mismatch_ne_ok

/-- What comes next on a stream. -/
inductive Next where
  | finished
  | message (m : Message) (place : Position) (rest : Bytes)
  | broken (e : DecodeError)
  deriving DecidableEq, Repr

/-- The next record of a stream that goes on with `s` at `place`. -/
def next (place : Position) (s : Bytes) : Next :=
  match skipSpace s with
  | [] => .finished
  | b :: t =>
    match read (b :: t) with
    | .error e => .broken ⟨e.cause, some (e.position .stream place s)⟩
    | .ok (m, r) => .message m (place.after (s.take (s.length - r.length))) r

/-- A stream goes on with its last bytes. -/
theorem next_left {place p : Position} {s r : Bytes} {m : Message}
    (h : next place s = .message m p r) : Left r s := by
  unfold next at h
  split at h
  · cases h
  · next b t begins =>
    split at h
    · cases h
    · next n u read =>
      cases h
      exact (read_left read).after (begins ▸ skipSpace_suffix s)

/-- All messages of a stream, and the error that ended it if one did. -/
def readAll (place : Position) (s : Bytes) : List Message × Option DecodeError :=
  match _h : next place s with
  | .finished => ([], none)
  | .broken e => ([], some e)
  | .message m p r =>
    let (ms, e) := readAll p r
    (m :: ms, e)
termination_by s.length
decreasing_by exact (next_left _h).shorter

theorem readAll_of_finished {place : Position} {s : Bytes} (h : next place s = .finished) :
    readAll place s = ([], none) := by
  rw [readAll]
  split
  · rfl
  · next e he => simp [h] at he
  · next m p r hm => simp [h] at hm

theorem readAll_of_broken {place : Position} {s : Bytes} {e : DecodeError}
    (h : next place s = .broken e) : readAll place s = ([], some e) := by
  rw [readAll]
  split
  · next hf => simp [h] at hf
  · next d hd =>
    rw [h] at hd
    cases hd
    rfl
  · next m p r hm => simp [h] at hm

theorem readAll_of_message {place p : Position} {s r : Bytes} {m : Message}
    (h : next place s = .message m p r) :
    readAll place s = (m :: (readAll p r).1, (readAll p r).2) := by
  rw [readAll]
  split
  · next hf => simp [h] at hf
  · next e he => simp [h] at he
  · next m' p' r' hm =>
    rw [h] at hm
    cases hm
    rfl

/-- The messages of a file's content, and the error that ended it if one did. -/
def decodeAll (content : Bytes) : List Message × Option DecodeError := readAll .start content

end PubSub.Record
