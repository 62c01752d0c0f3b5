import PubSub.Proofs.Files.Tree
import PubSub.Publisher.FileLog

/-!
# Appending

What a write to a regular file comes to, whatever writes fail on the way: the records before the
first one that is refused are in the file, and nothing else of the batch is (`appendTo_eq`).
-/

namespace PubSub

namespace Files

variable {f : Files} {n : Nat} {c : Bytes}

theorem setNode_setNode (f : Files) (n : Nat) (x y : Node) :
    (f.setNode n x).setNode n y = f.setNode n y := by
  rw [setNode, setNode, setNode, List.set_set]

theorem setNode_self {x : Node} (h : f.node? n = some x) : f.setNode n x = f := by
  obtain ⟨hlt, hx⟩ := List.getElem?_eq_some_iff.1 h
  rw [setNode, ← hx, List.set_getElem_self]

theorem node?_setNode_self (h : f.node? n = some (.file c)) (x : Node) :
    (f.setNode n x).node? n = some x := by
  rw [node?_setNode (node?_lt h), if_pos rfl]

end Files

namespace FileLog

/-- The first message of a batch whose record is not taken as a whole, if it is written to a file
of this size, and why. -/
def refusal? (brake : (size count : Nat) → Option (Nat × SystemError)) (size : Nat) :
    List Message → Option (Nat × SystemError)
  | [] => none
  | m :: rest =>
    match brake size (Record.line m).length with
    | some (_, e) => some (0, e)
    | none =>
      (refusal? brake (size + (Record.line m).length) rest).map fun r => (r.1 + 1, r.2)

variable {brake : (size count : Nat) → Option (Nat × SystemError)} {size i : Nat} {e : SystemError}
  {f : Files} {log : FileLog} {n : Nat} {c : Bytes} {batch : List Message}

theorem refusal?_lt (h : refusal? brake size batch = some (i, e)) : i < batch.length := by
  induction batch generalizing size i with
  | nil => cases h
  | cons m rest ih =>
    rw [refusal?] at h
    split at h
    · cases h
      exact Nat.zero_lt_succ _
    · obtain ⟨⟨j, e'⟩, hr, hj⟩ := Option.map_eq_some_iff.1 h
      cases hj
      exact Nat.succ_lt_succ (ih hr)

theorem records_cons (m : Message) (rest : List Message) :
    records (m :: rest) = Record.line m ++ records rest := List.flatMap_cons

/-- All records are appended, or those before the first one that is refused, of which some bytes may
be left behind them. -/
theorem appendRecords_eq (hn : f.node? n = some (.file c)) (batch : List Message) :
    match refusal? f.brake c.length batch with
    | none =>
      appendRecords f n batch = (batch.length, none, f.setNode n (.file (c ++ records batch)))
    | some (i, e) =>
      ∃ left, appendRecords f n batch =
        (i, some e, f.setNode n (.file (c ++ records (batch.take i) ++ left))) := by
  induction batch generalizing f c with
  | nil => simp [refusal?, appendRecords, records, Files.setNode_self hn]
  | cons m rest ih =>
    rw [refusal?]
    cases hb : f.brake c.length (Record.line m).length with
    | some r =>
      obtain ⟨k, e⟩ := r
      refine ⟨(Record.line m).take k, ?_⟩
      simp [appendRecords, Files.append, hn, hb, records]
    | none =>
      have happend : f.append n (Record.line m) =
          (.ok (), f.setNode n (.file (c ++ Record.line m))) := by
        simp [Files.append, hn, hb]
      have hrest := ih (Files.node?_setNode_self hn (.file (c ++ Record.line m)))
      have hbrake : (f.setNode n (.file (c ++ Record.line m))).brake = f.brake := rfl
      rw [hbrake, List.length_append] at hrest
      cases hr : refusal? f.brake (c.length + (Record.line m).length) rest with
      | none =>
        rw [hr] at hrest
        simp [appendRecords, happend, hrest, Files.setNode_setNode, records_cons]
      | some r =>
        obtain ⟨i, e⟩ := r
        rw [hr] at hrest
        obtain ⟨left, hleft⟩ := hrest
        exact ⟨left, by simp [appendRecords, happend, hleft, Files.setNode_setNode, records_cons]⟩

/-- What a failed write left behind a length is cut off. -/
theorem cutBack_eq {left : Bytes} (hn : f.node? n = some (.file (c ++ left))) (topic : String) :
    cutBack f n c.length topic = (f.setNode n (.file c), []) := by
  simp [cutBack, Files.cut, hn]

/-- A write to a regular file: which records are in it afterwards, and what is told. -/
theorem appendTo_eq (hn : f.node? n = some (.file c)) (topic : String) (batch : List Message)
    (asBatch : Bool) :
    log.appendTo f n topic batch asBatch =
      match refusal? f.brake c.length batch with
      | none => ⟨.ok (), log, f.setNode n (.file (c ++ records batch)), []⟩
      | some (i, e) =>
        ⟨.error (if asBatch then .batch i batch.length (.system e) else .system e), log,
          f.setNode n (.file (c ++ records (batch.take i))), []⟩ := by
  have hsize : f.size n = c.length := by rw [Files.size, hn]
  have happend := appendRecords_eq hn batch
  rw [appendTo, hsize]
  cases hr : refusal? f.brake c.length batch with
  | none =>
    rw [hr] at happend
    have hsync : (f.setNode n (.file (c ++ records batch))).sync n = .ok () := by
      rw [Files.sync, Files.node?_setNode_self hn]
    simp only [happend, hsync]
    rfl
  | some r =>
    obtain ⟨i, e⟩ := r
    rw [hr] at happend
    obtain ⟨left, hleft⟩ := happend
    have hnode := Files.node?_setNode_self hn (.file (c ++ records (batch.take i) ++ left))
    have hcut := cutBack_eq hnode topic
    rw [List.length_append] at hcut
    simp only [hleft, hcut, Files.setNode_setNode]

/-- A call with a live token on an open log writes to the file that it opens. -/
theorem write_opened (hclosed : log.closed = false) {f' : Files} {topic : String}
    (hfile : log.file f topic = (.ok n, f')) (batch : List Message) (asBatch : Bool) :
    log.write f false topic batch asBatch =
      { log with openFiles := log.openFiles.insert topic n }.appendTo f' n topic batch asBatch := by
  rw [write, if_neg Bool.false_ne_true, if_neg (by rw [hclosed]; exact Bool.false_ne_true), hfile]

/-- What is no regular file keeps nothing: either a write to it fails, or it cannot be secured. -/
theorem appendTo_device (hn : ∀ c, f.node? n ≠ some (.file c)) (log : FileLog) (topic : String) :
    (f.node? n = some .null ∧ ∀ m rest asBatch, log.appendTo f n topic (m :: rest) asBatch =
        ⟨.error (.system .invalidArgument), log, f, []⟩) ∨
      f.node? n ≠ some .null ∧ ∃ e, ∀ m rest asBatch, log.appendTo f n topic (m :: rest) asBatch =
        ⟨.error (if asBatch then .batch 0 (m :: rest).length (.system e) else .system e), log, f,
          [.partialRecordKept topic .invalidArgument]⟩ := by
  have hsync : f.sync n = .error .invalidArgument := by
    rw [Files.sync]
    split
    · next c hc => exact absurd hc (hn c)
    · rfl
  by_cases hnull : f.node? n = some .null
  · have hall : ∀ ms, appendRecords f n ms = (ms.length, none, f) := by
      intro ms
      induction ms with
      | nil => rfl
      | cons m ms ih => simp [appendRecords, Files.append, hnull, ih]
    refine .inl ⟨hnull, fun m rest asBatch => ?_⟩
    simp only [appendTo, hall, hsync]
    rfl
  · obtain ⟨e, he⟩ : ∃ e, ∀ bytes, f.append n bytes = (.error e, f) := by
      cases hnode : f.node? n with
      | none => exact ⟨.isDirectory, fun bytes => by rw [Files.append, hnode]⟩
      | some node =>
        cases node with
        | folder es => exact ⟨.isDirectory, fun bytes => by rw [Files.append, hnode]⟩
        | file c => exact absurd hnode (hn c)
        | null => exact absurd hnode hnull
        | full => exact ⟨.noSpace, fun bytes => by rw [Files.append, hnode]⟩
    have hcut : ∀ length, cutBack f n length topic =
        (f, [.partialRecordKept topic .invalidArgument]) := by
      intro length
      have hrefused : f.cut n length = (.error .invalidArgument, f) := by
        rw [Files.cut]
        split
        · next c hc => exact absurd hc (hn c)
        · rfl
      rw [cutBack, hrefused]
    refine .inr ⟨hnull, e, fun m rest asBatch => ?_⟩
    simp only [appendTo, appendRecords, he, hcut]

end FileLog

end PubSub
