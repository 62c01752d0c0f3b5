import PubSub.Record.Stream
import PubSub.Subscription.Feed

/-!
# What a reader feeds

However a reader and its loop take turns, the records queued, held and not yet decoded are together
what the stream of the file yields. Every step of the reader moves one of them on.
-/

namespace PubSub.Record

open Json (Position)

/-- All that a stream yields: its messages, and the error that ends it if one does. -/
def stream (place : Position) (s : Bytes) : List (Except DecodeError Message) :=
  (readAll place s).1.map .ok ++ (readAll place s).2.toList.map .error

theorem stream_finished {place : Position} {s : Bytes} (h : next place s = .finished) :
    stream place s = [] := by
  rw [stream, readAll_of_finished h]
  rfl

theorem stream_broken {place : Position} {s : Bytes} {e : DecodeError}
    (h : next place s = .broken e) : stream place s = [.error e] := by
  rw [stream, readAll_of_broken h]
  rfl

theorem stream_message {place p : Position} {s r : Bytes} {m : Message}
    (h : next place s = .message m p r) : stream place s = .ok m :: stream p r := by
  rw [stream, readAll_of_message h]
  rfl

end PubSub.Record

namespace PubSub.Feed

/-! ## Bytes -/

/-- The bytes that are still to be decoded. -/
def ahead (f : Feed) (content : Bytes) : Bytes := f.buffer ++ content.drop f.offset

/-- Fetching in pieces leaves no gap. -/
theorem ahead_pass (f : Feed) (content : Bytes) (count : Nat) :
    (f.pass content count).ahead content = (f.ahead content).drop count := by
  rw [pass]
  split
  · next h => rw [ahead, ahead, List.drop_append_of_le_length h]
  · next h =>
    have hpieces : count - f.buffer.length ≤
        (count - f.buffer.length + pieceSize - 1) / pieceSize * pieceSize := by
      rw [pieceSize]
      omega
    generalize hk : (count - f.buffer.length + pieceSize - 1) / pieceSize * pieceSize = k
      at hpieces
    generalize hx : content.drop f.offset = x
    have hdrop : content.drop (f.offset + (x.take k).length) = x.drop (x.take k).length := by
      rw [← hx, List.drop_drop]
    simp only [ahead]
    rw [hk, hx, hdrop, List.drop_append, List.drop_of_length_le (Nat.le_of_not_le h),
      List.nil_append]
    by_cases hlong : count - f.buffer.length ≤ (x.take k).length
    · have hback : x.take k ++ x.drop (x.take k).length = x := by
        rw [List.length_take, Nat.min_def]
        split
        · exact List.take_append_drop k x
        · next hk' => simp [List.take_of_length_le (Nat.le_of_not_le hk')]
      rw [← List.drop_append_of_le_length hlong, hback]
    · -- the file ends before the last piece does
      have hshort : x.length < count - f.buffer.length := by
        rw [List.length_take] at hlong
        omega
      have hall : x.take k = x := List.take_of_length_le (by omega)
      rw [hall, List.drop_length, List.append_nil]

@[simp] theorem pass_node (f : Feed) (content : Bytes) (count : Nat) :
    (f.pass content count).node = f.node := by
  rw [pass]
  split <;> rfl

@[simp] theorem pass_queued (f : Feed) (content : Bytes) (count : Nat) :
    (f.pass content count).queued = f.queued := by
  rw [pass]
  split <;> rfl

@[simp] theorem decode_queued (f : Feed) (content : Except SystemError Bytes) :
    (f.decode content).queued = f.queued := by
  cases content with
  | error e => rfl
  | ok content =>
    rw [decode]
    split
    · rfl
    · rfl
    · exact f.pass_queued content _

/-! ## Records -/

/-- The records that the reader has still to decode. -/
def undecoded (f : Feed) (content : Bytes) : List (Except DecodeError Message) :=
  match f.held with
  | some (.error _) => []
  | some (.ok _) => Record.stream f.place (f.ahead content)
  | none => if f.ended then [] else Record.stream f.place (f.ahead content)

/-- The records that the loop has still to take. -/
def coming (f : Feed) (content : Bytes) : List (Except DecodeError Message) :=
  f.queued ++ f.held.toList ++ f.undecoded content

/-- How many steps the reader has still to make. -/
def work (f : Feed) (content : Bytes) : Nat :=
  match f.held with
  | some (.error _) => 1
  | some (.ok _) => 2 * (f.undecoded content).length + 2
  | none => if f.ended then 0 else 2 * (f.undecoded content).length + 1

theorem coming_start (node : Nat) (content : Bytes) :
    (start node).coming content = Record.stream .start content := by
  simp [coming, undecoded, start, ahead]

theorem coming_taken {f : Feed} {r : Except DecodeError Message}
    {rest : List (Except DecodeError Message)} (h : f.queued = r :: rest) (content : Bytes) :
    f.coming content = r :: { f with queued := rest }.coming content := by
  simp [coming, undecoded, ahead, h]

theorem coming_of_isDry {f : Feed} (h : f.isDry = true) (content : Bytes) :
    f.coming content = [] := by
  simp only [isDry, Bool.and_eq_true, List.isEmpty_iff, Option.isNone_iff_eq_none] at h
  obtain ⟨⟨hq, hh⟩, he⟩ := h
  simp [coming, undecoded, hq, hh, he]

/-- A loop that has taken all that is queued waits for the reader only while the reader goes on. -/
theorem read?_isSome {f : Feed} (hq : f.queued = []) (hd : f.isDry = false) (content : Bytes) :
    ∃ f', f.read? (.ok content) = some f' := by
  cases hh : f.held with
  | some r => simp [read?, hh, hq, room]
  | none =>
    have he : f.ended = false := by simpa [isDry, hq, hh] using hd
    simp [read?, hh, he]

/-- What one step of the reader keeps, and that it gets on. -/
structure Reads (content : Bytes) (f f' : Feed) : Prop where
  node : f'.node = f.node
  coming : f'.coming content = f.coming content
  work : f'.work content < f.work content

theorem decode_reads {f : Feed} (content : Bytes) (hh : f.held = none) (he : f.ended = false) :
    Reads content f (f.decode (.ok content)) := by
  rw [decode]
  simp only
  cases hn : Record.next f.place (f.buffer ++ content.drop f.offset) with
  | finished =>
    have hs : Record.stream f.place (f.ahead content) = [] := Record.stream_finished hn
    exact ⟨rfl, by simp [coming, undecoded, hh, he, hs], by simp [work, hh, he]⟩
  | broken e =>
    have hs : Record.stream f.place (f.ahead content) = [.error e] := Record.stream_broken hn
    exact ⟨rfl, by simp [coming, undecoded, hh, he, hs],
      by simp [work, undecoded, hh, he, hs]⟩
  | message m p r =>
    have hs : Record.stream f.place (f.ahead content) = .ok m :: Record.stream p r :=
      Record.stream_message hn
    have hr : (f.pass content ((f.ahead content).length - r.length)).ahead content = r := by
      obtain ⟨t, ht⟩ := (Record.next_left hn).suffix
      rw [ahead_pass, ahead, ← ht, List.length_append, Nat.add_sub_cancel, List.drop_left]
    have hu : undecoded { f.pass content ((f.ahead content).length - r.length) with
        place := p, held := some (.ok m) } content = Record.stream p r :=
      congrArg (Record.stream p) hr
    refine ⟨pass_node f content _, ?_, ?_⟩
    · rw [coming, coming, ← ahead, hu]
      simp [undecoded, hh, he, hs]
    · rw [work, ← ahead, hu]
      simp only [work, undecoded, hh, he, hs, Bool.false_eq_true, if_false, List.length_cons]
      omega

theorem read?_reads {f f' : Feed} {content : Bytes} (h : f.read? (.ok content) = some f') :
    Reads content f f' := by
  rw [read?] at h
  cases hh : f.held with
  | none =>
    simp only [hh] at h
    split at h
    · simp at h
    · next he =>
      obtain rfl := Option.some.inj h
      exact decode_reads content hh (by simpa using he)
  | some r =>
    simp only [hh] at h
    split at h
    · obtain rfl := Option.some.inj h
      cases r with
      | ok m =>
        exact ⟨rfl, by simp [coming, undecoded, hh, ahead, Except.isOk, Except.toBool],
          by simp [work, undecoded, hh, ahead, Except.isOk, Except.toBool]⟩
      | error e =>
        exact ⟨rfl, by simp [coming, undecoded, hh, Except.isOk, Except.toBool],
          by simp [work, hh, Except.isOk, Except.toBool]⟩
    · simp at h

end PubSub.Feed
