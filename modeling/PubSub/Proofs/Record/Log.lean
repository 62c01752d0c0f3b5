import PubSub.Proofs.Record.Written
import PubSub.Record.Stream

/-!
# Logs that were cut

A log is a run of records, each with a line feed after it. Cut anywhere, it is read up to its last
complete record (`readAll_cut`). Lines behind the cut are read too, unless the cut lies strictly
inside an object: then nothing behind it is read.
-/

namespace PubSub.Record

open Json (Position skipSpace)

/-! ## Places of records -/

/-- Where the object of a record lies in a log. -/
structure Span where
  start : Nat
  stop : Nat
  message : Message
  deriving DecidableEq

/-- The bytes of a log. -/
def logText (xs : List Written) : Bytes := xs.flatMap Written.line

/-- The objects of a log whose first byte has the number `start`. -/
def spans (start : Nat) : List Written → List Span
  | [] => []
  | x :: xs => ⟨start, start + x.bytes.length, x.message⟩ :: spans (start + x.line.length) xs

/-- The messages whose objects lie completely within the first `n` bytes. -/
def complete (n : Nat) (ss : List Span) : List Message :=
  (ss.filter fun s => s.stop ≤ n).map (·.message)

/-- The first `n` bytes end strictly inside an object. -/
def EndsInside (n : Nat) (ss : List Span) : Prop := ∃ s ∈ ss, s.start < n ∧ n < s.stop

instance (n : Nat) (ss : List Span) : Decidable (EndsInside n ss) :=
  inferInstanceAs (Decidable (∃ s ∈ ss, s.start < n ∧ n < s.stop))

theorem Written.bytes_ne_nil (x : Written) : x.bytes ≠ [] := by
  rw [x.bytes_eq]
  exact List.cons_ne_nil _ _

theorem Written.line_length (x : Written) : x.line.length = x.bytes.length + 1 := by
  simp [Written.line]

theorem spans_bounds {start : Nat} {xs : List Written} {s : Span} (h : s ∈ spans start xs) :
    start ≤ s.start ∧ s.start < s.stop := by
  induction xs generalizing start with
  | nil => simp [spans] at h
  | cons x xs ih =>
    have hpos := List.length_pos_iff.2 x.bytes_ne_nil
    rcases List.mem_cons.1 h with rfl | h
    · exact ⟨Nat.le_refl _, Nat.lt_add_of_pos_right hpos⟩
    · obtain ⟨hs, hlt⟩ := ih h
      exact ⟨Nat.le_trans (Nat.le_add_right _ _) hs, hlt⟩

/-- Objects that begin later are not complete yet. -/
theorem complete_later {n start : Nat} (xs : List Written) (h : n ≤ start) :
    complete n (spans start xs) = [] := by
  rw [complete, List.filter_eq_nil_iff.2 ?_, List.map_nil]
  intro s hs
  have := spans_bounds hs
  simp only [decide_eq_true_eq]
  omega

theorem not_endsInside_later {n start : Nat} (xs : List Written) (h : n ≤ start) :
    ¬ EndsInside n (spans start xs) := by
  rintro ⟨s, hs, hlt, -⟩
  have := spans_bounds hs
  omega

/-- No object is complete before the first one is. -/
theorem complete_unfinished {n start : Nat} {x : Written} (xs : List Written)
    (h : n < start + x.bytes.length) : complete n (spans start (x :: xs)) = [] := by
  have hlater : n ≤ start + x.line.length := by
    rw [x.line_length]
    omega
  have hx : ¬ start + x.bytes.length ≤ n := Nat.not_le.2 h
  have := complete_later xs hlater
  simpa [complete, spans, hx] using this

/-- The first object is complete, the others count from its line on. -/
theorem complete_first {n start : Nat} (x : Written) (xs : List Written)
    (h : start + x.bytes.length ≤ n) :
    complete n (spans start (x :: xs)) =
      x.message :: complete n (spans (start + x.line.length) xs) := by
  simp [complete, spans, h]

theorem endsInside_first {n start : Nat} (x : Written) (xs : List Written)
    (h : start + x.bytes.length ≤ n) :
    EndsInside n (spans start (x :: xs)) ↔ EndsInside n (spans (start + x.line.length) xs) := by
  constructor
  · rintro ⟨s, hs, hlt⟩
    rcases List.mem_cons.1 hs with rfl | hs
    · exact absurd hlt.2 (Nat.not_lt.2 h)
    · exact ⟨s, hs, hlt⟩
  · rintro ⟨s, hs, hlt⟩
    exact ⟨s, List.mem_cons_of_mem _ hs, hlt⟩

/-! ## Streams of lines -/

theorem skipSpace_written (x : Written) (r : Bytes) :
    skipSpace (x.bytes ++ r) = x.bytes ++ r := by
  rw [x.bytes_eq, List.cons_append, skipSpace_cons (by decide)]

theorem skipSpace_lineFeed (r : Bytes) : skipSpace (10 :: r) = skipSpace r := by
  rw [skipSpace, List.dropWhile_cons_of_pos (by decide), skipSpace]

theorem readAll_finished (place : Position) {s : Bytes} (h : skipSpace s = []) :
    readAll place s = ([], none) :=
  readAll_of_finished (by rw [next, h])

theorem readAll_read (place : Position) {s u r : Bytes} {b : UInt8} {m : Message}
    (hs : skipSpace s = b :: u) (h : read (b :: u) = .ok (m, r)) :
    ∃ p, readAll place s = (m :: (readAll p r).1, (readAll p r).2) := by
  have hn : next place s = .message m (place.after (s.take (s.length - r.length))) r := by
    rw [next, hs]
    simp only [h]
  exact ⟨_, readAll_of_message hn⟩

theorem readAll_message (place : Position) {s r : Bytes} {x : Written}
    (h : skipSpace s = x.bytes ++ r) :
    ∃ p, readAll place s = (x.message :: (readAll p r).1, (readAll p r).2) := by
  have hx : x.bytes ++ r = 123 :: (membersText true (fieldTexts x.labels x.message) ++ r) := by
    rw [x.bytes_eq, List.cons_append]
  exact readAll_read place (h.trans hx) (hx ▸ read_written x r)

theorem readAll_broken (place : Position) {s u : Bytes} {e : Json.Failure Flaw} {b : UInt8}
    (hs : skipSpace s = b :: u) (h : read (b :: u) = .error e) :
    ∃ d, readAll place s = ([], some d) ∧ d.flaw = e.cause := by
  have hn : next place s = .broken ⟨e.cause, some (e.position .stream place s)⟩ := by
    rw [next, hs]
    simp only [h]
  exact ⟨_, readAll_of_broken hn, rfl⟩

/-- Complete lines are read, and then what stands behind them. -/
theorem readAll_behind (ys : List Written) (place : Position) {s t : Bytes}
    (hs : skipSpace s = skipSpace (logText ys ++ t)) :
    ∃ p u, skipSpace u = skipSpace t ∧
      readAll place s = (ys.map (·.message) ++ (readAll p u).1, (readAll p u).2) := by
  induction ys generalizing place s with
  | nil => exact ⟨place, s, hs, rfl⟩
  | cons y ys ih =>
    have hy : logText (y :: ys) ++ t = y.bytes ++ 10 :: (logText ys ++ t) := by
      simp [logText, Written.line]
    rw [hy, skipSpace_written] at hs
    obtain ⟨p, hp⟩ := readAll_message place hs
    obtain ⟨q, u, hu, hq⟩ := ih p (skipSpace_lineFeed _)
    exact ⟨q, u, hu, by rw [hp, hq]; rfl⟩

/-- Complete lines are read without an error. -/
theorem readAll_lines (ys : List Written) (place : Position) {s : Bytes}
    (hs : skipSpace s = skipSpace (logText ys)) :
    readAll place s = (ys.map (·.message), none) := by
  obtain ⟨p, u, hu, hread⟩ := readAll_behind ys place (t := []) (by rw [hs, List.append_nil])
  rw [hread, readAll_finished p hu, List.append_nil]

theorem lines_log (ys : List Written) : Lines (logText ys) := by
  cases ys with
  | nil => exact .inl rfl
  | cons y ys =>
    refine .inr ⟨membersText true (fieldTexts y.labels y.message) ++ 10 :: logText ys, ?_⟩
    simp [logText, Written.line, y.bytes_eq]

theorem behind_log (ys : List Written) : Behind (logText ys) := by
  cases ys with
  | nil => exact .nothing
  | cons y ys => exact behind_line y (logText ys)

theorem labels_log (ys : List Written) :
    Astray Flaw.isEnd (logText ys) (labels (logText ys)) := by
  cases ys with
  | nil => exact .inl ⟨_, rfl, fun _ => rfl⟩
  | cons y ys => exact labels_line y (lines_log ys)

/-! ## Cut logs -/

/-- What is read of a cut log with the lines `ys` behind it, when `got` are the complete messages
before the cut. -/
def ReadOver (ys : List Written) (got : List Message) (inside : Prop)
    (r : List Message × Option DecodeError) : Prop :=
  (inside ∧ r.1 = got ∧ ∃ e, r.2 = some e ∧ (ys = [] → e.isEnd = true)) ∨
    (¬ inside ∧ r = (got ++ ys.map (·.message), none))

/-- Bytes of a log end before its first object, in it, or behind it. -/
private theorem prefix_cases {x : Written} {xs : List Written} {P : Bytes}
    (h : P <+: logText (x :: xs)) :
    P = [] ∨ (P ≠ [] ∧ Cut P x.bytes) ∨ P = x.bytes ∨
      ∃ q, P = x.line ++ q ∧ q <+: logText xs := by
  obtain ⟨t, ht⟩ := h
  have hl : logText (x :: xs) = x.bytes ++ ([10] ++ logText xs) := by simp [logText, Written.line]
  rw [hl] at ht
  rcases List.append_eq_append_iff.1 ht with ⟨r, hx, -⟩ | ⟨r, rfl, hr⟩
  · by_cases hP : P = []
    · exact .inl hP
    · cases r with
      | nil => exact .inr (.inr (.inl (by simpa using hx.symm)))
      | cons c r => exact .inr (.inl ⟨hP, c, r, hx⟩)
  · cases r with
    | nil => exact .inr (.inr (.inl (by simp)))
    | cons c r =>
      simp only [List.cons_append, List.cons.injEq] at hr
      obtain ⟨rfl, hr⟩ := hr
      exact .inr (.inr (.inr ⟨r, by simp [Written.line], t, hr.symm⟩))

/-- Over a cut strictly inside an object nothing is read. -/
theorem readAll_inside {x : Written} (ys : List Written) {P : Bytes} (h : Cut P x.bytes)
    (hne : P ≠ []) (place : Position) {s : Bytes}
    (hs : skipSpace s = skipSpace (P ++ logText ys)) :
    ∃ d, readAll place s = ([], some d) ∧ (ys = [] → d.isEnd = true) := by
  obtain ⟨e, he, hend⟩ := read_cut (behind_log ys) (labels_log ys) h hne
  obtain ⟨c, q, hq⟩ := h
  cases P with
  | nil => exact absurd rfl hne
  | cons a P =>
    rw [x.bytes_eq, List.cons_append] at hq
    obtain ⟨rfl, -⟩ := List.cons.inj hq
    rw [List.cons_append, skipSpace_cons (by decide)] at hs
    obtain ⟨d, hd, hflaw⟩ := readAll_broken place hs he
    refine ⟨d, hd, fun hy => ?_⟩
    subst hy
    rw [DecodeError.isEnd, hflaw]
    exact hend rfl

/-- A cut log is read up to its last complete record, and the lines behind it only if the cut
does not lie strictly inside an object. -/
theorem readAll_cut {xs : List Written} (ys : List Written) {P : Bytes} (h : P <+: logText xs)
    (start : Nat) (place : Position) {s : Bytes}
    (hs : skipSpace s = skipSpace (P ++ logText ys)) :
    ReadOver ys (complete (start + P.length) (spans start xs))
      (EndsInside (start + P.length) (spans start xs)) (readAll place s) := by
  induction xs generalizing P start place s with
  | nil =>
    obtain rfl : P = [] := List.prefix_nil.1 h
    exact .inr ⟨not_endsInside_later [] (Nat.le_refl _), readAll_lines ys place hs⟩
  | cons x xs ih =>
    rcases prefix_cases h with rfl | ⟨hne, hcut⟩ | rfl | ⟨q, rfl, hq⟩
    · -- nothing of the first record is there
      refine .inr ⟨not_endsInside_later _ (Nat.le_refl _), ?_⟩
      rw [complete_later _ (by simp)]
      exact readAll_lines ys place hs
    · -- the cut lies strictly inside the first object
      obtain ⟨d, hd, hend⟩ := readAll_inside ys hcut hne place hs
      obtain ⟨c, q, hq⟩ := hcut
      have hlt : P.length < x.bytes.length := by simp [hq]
      refine .inl ⟨⟨_, List.mem_cons_self, ?_, ?_⟩, ?_, d, by rw [hd], hend⟩
      · exact Nat.lt_add_of_pos_right (List.length_pos_iff.2 hne)
      · exact Nat.add_lt_add_left hlt start
      · rw [hd, complete_unfinished xs (Nat.add_lt_add_left hlt start)]
    · -- only the line feed after the first object is missing
      have hle : start + x.bytes.length ≤ start + x.line.length := by
        rw [x.line_length]
        omega
      rw [skipSpace_written] at hs
      obtain ⟨p, hp⟩ := readAll_message place hs
      refine .inr ⟨?_, ?_⟩
      · rw [endsInside_first x xs (Nat.le_refl _)]
        exact not_endsInside_later xs hle
      · rw [hp, complete_first x xs (Nat.le_refl _), complete_later xs hle, readAll_lines ys p rfl]
        rfl
    · -- the first line is complete
      have hx : x.line ++ q ++ logText ys = x.bytes ++ 10 :: (q ++ logText ys) := by
        simp [Written.line]
      rw [hx, skipSpace_written] at hs
      obtain ⟨p, hp⟩ := readAll_message place hs
      have hlen : start + (x.line ++ q).length = start + x.line.length + q.length := by
        rw [List.length_append, Nat.add_assoc]
      have hle : start + x.bytes.length ≤ start + x.line.length + q.length := by
        rw [x.line_length]
        omega
      rw [hlen, hp, complete_first x xs hle, ReadOver, endsInside_first x xs hle]
      rcases ih hq (start + x.line.length) p (skipSpace_lineFeed _) with
        ⟨hin, hgot, he⟩ | ⟨hout, hall⟩
      · exact .inl ⟨hin, by rw [hgot], he⟩
      · exact .inr ⟨hout, by rw [hall]; rfl⟩

end PubSub.Record
