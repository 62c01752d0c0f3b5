import PubSub.Proofs.Publisher.Appending
import PubSub.Proofs.Publisher.Topics

/-!
# Batches, as a whole and one by one

A log publishes a batch in one go. To publish its messages one by one leaves the same files, and
comes to the same but for one thing: what goes wrong before the first record is written, or when all
are to be secured, is told of a message only if they are published one by one (`publishEach_eq`).
So the two agree just if nothing of the kind goes wrong (`batch_agrees_iff`).
-/

namespace PubSub.FileLog

/-- Publishes a batch message by message. -/
def publishEach (log : FileLog) (files : Files) (cancelled : Bool) (topic : String)
    (batch : List Message) : Except Error Unit × FileLog × Files :=
  publishAll (fun s m =>
    let step := FileLog.publish s.1 s.2 cancelled topic m
    (step.result, step.log, step.files)) (log, files) batch

variable {f f' : Files} {log : FileLog} {cancelled : Bool} {topic : String} {n : Nat} {c : Bytes}
  {m : Message} {rest batch : List Message} {e : Error}

/-! ## The first message -/

theorem publishEach_failed
    (h : (log.publish f cancelled topic m).result = .error e) :
    log.publishEach f cancelled topic (m :: rest) =
      (.error (.batch 0 (m :: rest).length e), (log.publish f cancelled topic m).log,
        (log.publish f cancelled topic m).files) := by
  simp only [publishEach, publishAll, publishFrom, h]

/-- A log that has opened the file of a topic finds it open. -/
theorem file_opened (log : FileLog) (f : Files) (topic : String) (n : Nat) :
    { log with openFiles := log.openFiles.insert topic n }.file f topic = (.ok n, f) := by
  simp [file]

theorem insert_opened (log : FileLog) (topic : String) (n : Nat) :
    (log.openFiles.insert topic n).insert topic n = log.openFiles.insert topic n := by
  apply NameMap.ext_get?
  intro name
  simp only [NameMap.get?_insert]
  split <;> rfl

/-! ## A regular file -/

/-- One by one, messages are written to a regular file up to the first that is refused. -/
theorem publishFrom_file (hclosed : log.closed = false) (hfile : log.file f topic = (.ok n, f'))
    (hn : f'.node? n = some (.file c)) (m : Message) (rest : List Message) (index total : Nat) :
    let opened : FileLog := { log with openFiles := log.openFiles.insert topic n }
    publishFrom (fun s m =>
        let step := FileLog.publish s.1 s.2 false topic m
        (step.result, step.log, step.files)) index total (log, f) (m :: rest) =
      match refusal? f'.brake c.length (m :: rest) with
      | none => (.ok (), opened, f'.setNode n (.file (c ++ records (m :: rest))))
      | some (i, e) =>
        (.error (.batch (index + i) total (.system e)), opened,
          f'.setNode n (.file (c ++ records ((m :: rest).take i)))) := by
  intro opened
  induction rest generalizing log f f' c m index with
  | nil =>
    have hone := (write_opened hclosed hfile [m] false).trans (appendTo_eq hn topic [m] false)
    simp only [publishFrom, publish, hone]
    cases hr : refusal? f'.brake c.length [m] with
    | none => rfl
    | some r =>
      obtain ⟨i, e⟩ := r
      obtain rfl : i = 0 := Nat.lt_one_iff.1 (refusal?_lt hr)
      rfl
  | cons m' rest ih =>
    have hone := (write_opened hclosed hfile [m] false).trans (appendTo_eq hn topic [m] false)
    rw [publishFrom]
    simp only [publish, hone]
    cases hb : f'.brake c.length (Record.line m).length with
    | some r =>
      obtain ⟨k, e⟩ := r
      simp [refusal?, hb, records, opened]
    | none =>
      have hline : records [m] = Record.line m := by simp [records]
      have hnext := ih (show opened.closed = false from hclosed)
        (file_opened log (f'.setNode n (.file (c ++ Record.line m))) topic n)
        (Files.node?_setNode_self hn (.file (c ++ Record.line m))) m' (index + 1)
      have hbrake : (f'.setNode n (.file (c ++ Record.line m))).brake = f'.brake := rfl
      rw [hbrake, List.length_append] at hnext
      have hfirst : refusal? f'.brake c.length [m] = none := by simp [refusal?, hb]
      have hall : refusal? f'.brake c.length (m :: m' :: rest) =
          (refusal? f'.brake (c.length + (Record.line m).length) (m' :: rest)).map
            fun r => (r.1 + 1, r.2) := by
        rw [refusal?, hb]
      simp only [hfirst, hline, hall]
      refine Eq.trans hnext ?_
      cases hr : refusal? f'.brake (c.length + (Record.line m).length) (m' :: rest) with
      | none =>
        simp [opened, insert_opened, Files.setNode_setNode, records_cons]
      | some r =>
        obtain ⟨i, e⟩ := r
        simp [opened, insert_opened, Files.setNode_setNode, records_cons, Nat.add_assoc,
          Nat.add_comm 1 i]

/-! ## Any file -/

/-- What is told of no message in particular is told of the first. -/
def ofFirst (total : Nat) : Except Error Unit → Except Error Unit
  | .ok () => .ok ()
  | .error (.batch i t e) => .error (.batch i t e)
  | .error e => .error (.batch 0 total e)

/-- One by one, messages come to what their batch comes to, told of one of them. -/
theorem publishEach_eq (log : FileLog) (f : Files) (cancelled : Bool) (topic : String)
    (hbatch : batch ≠ []) :
    let whole := log.publishBatch f cancelled topic batch
    log.publishEach f cancelled topic batch =
      (ofFirst batch.length whole.result, whole.log, whole.files) := by
  intro whole
  obtain ⟨m, rest, rfl⟩ := List.exists_cons_of_ne_nil hbatch
  -- a call that fails before it appends comes to the same for one message and for all
  have hbefore : ∀ e f', (∀ ms b, log.write f cancelled topic ms b = ⟨.error e, log, f', []⟩) →
      (∀ i t e', e ≠ .batch i t e') → log.publishEach f cancelled topic (m :: rest) =
        (ofFirst (m :: rest).length whole.result, whole.log, whole.files) := by
    intro e f' hwrite he
    have hwhole : whole = ⟨.error e, log, f', []⟩ := hwrite (m :: rest) true
    have hone : log.publish f cancelled topic m = ⟨.error e, log, f', []⟩ := hwrite [m] false
    rw [publishEach_failed (by rw [hone]), hone, hwhole]
    cases e with
    | batch i t e' => exact absurd rfl (he i t e')
    | _ => rfl
  cases hcancelled : cancelled with
  | true =>
    subst hcancelled
    exact hbefore .cancelled f (fun ms b => by rw [write, if_pos rfl]) (by simp)
  | false =>
    subst hcancelled
    cases hclosed : log.closed with
    | true =>
      refine hbefore (.closed ("file topic " ++ Quoted.quote topic)) f (fun ms b => ?_) (by simp)
      rw [write, if_neg Bool.false_ne_true, if_pos hclosed]
    | false =>
      cases hfile : log.file f topic with
      | mk opening f' =>
        cases opening with
        | error e =>
          refine hbefore (.system e) f' (fun ms b => ?_) (by simp)
          rw [write, if_neg Bool.false_ne_true, if_neg (by rw [hclosed]; exact Bool.false_ne_true),
            hfile]
        | ok n =>
          have hwrite := write_opened hclosed hfile
          by_cases hregular : ∃ c, f'.node? n = some (.file c)
          · obtain ⟨c, hn⟩ := hregular
            have hwhole := (hwrite (m :: rest) true).trans (appendTo_eq hn topic (m :: rest) true)
            have heach := publishFrom_file hclosed hfile hn m rest 0 (m :: rest).length
            rw [publishEach, publishAll]
            refine heach.trans ?_
            rw [show whole = _ from hwhole]
            cases hr : refusal? f'.brake c.length (m :: rest) with
            | none => rfl
            | some r => simp [ofFirst]
          · have hdevice : ∀ c, f'.node? n ≠ some (.file c) := fun c hc => hregular ⟨c, hc⟩
            have hone := hwrite [m] false
            have hwhole := hwrite (m :: rest) true
            rcases appendTo_device hdevice { log with openFiles := log.openFiles.insert topic n }
              topic with ⟨-, hdev⟩ | ⟨-, e, hdev⟩
            · rw [hdev] at hone hwhole
              rw [publishEach_failed (by rw [publish, hone]), publish, hone,
                show whole = _ from hwhole]
              rfl
            · rw [hdev] at hone hwhole
              rw [publishEach_failed (by rw [publish, hone]), publish, hone,
                show whole = _ from hwhole]
              rfl

/-! ## Where the two agree -/

theorem ofFirst_eq_self_iff {total : Nat} {r : Except Error Unit} :
    ofFirst total r = r ↔ r = .ok () ∨ ∃ i t e, r = .error (.batch i t e) := by
  cases r with
  | ok u => simp [ofFirst]
  | error e => cases e <;> simp [ofFirst]

/-- A batch with messages is told of one of them, or succeeds, just if the log gets to append the
records and the file can be secured. -/
theorem ofFirst_publishBatch_iff (log : FileLog) (f : Files) (cancelled : Bool) (topic : String)
    (m : Message) (rest : List Message) (total : Nat) :
    ofFirst total (log.publishBatch f cancelled topic (m :: rest)).result =
        (log.publishBatch f cancelled topic (m :: rest)).result ↔
      cancelled = false ∧ log.closed = false ∧
        ∃ n f', log.file f topic = (.ok n, f') ∧ f'.node? n ≠ some .null := by
  rw [ofFirst_eq_self_iff]
  cases cancelled with
  | true => simp [publishBatch, write]
  | false =>
    cases hclosed : log.closed with
    | true => simp [publishBatch, write, hclosed]
    | false =>
      cases hfile : log.file f topic with
      | mk opening f' =>
        cases opening with
        | error e => simp [publishBatch, write, hclosed, hfile]
        | ok n =>
          have hthis : (∃ n₁ f₁, (Except.ok n, f') = ((.ok n₁ : Except SystemError Nat), f₁) ∧
              f₁.node? n₁ ≠ some .null) ↔ f'.node? n ≠ some .null :=
            ⟨by rintro ⟨n₁, f₁, h, hnull⟩; cases h; exact hnull, fun h => ⟨n, f', rfl, h⟩⟩
          rw [hthis, publishBatch, write_opened hclosed hfile]
          by_cases hregular : ∃ c, f'.node? n = some (.file c)
          · obtain ⟨c, hn⟩ := hregular
            rw [appendTo_eq hn, hn]
            cases hr : refusal? f'.brake c.length (m :: rest) <;> simp
          · rcases appendTo_device (fun c hc => hregular ⟨c, hc⟩)
              { log with openFiles := log.openFiles.insert topic n } topic with
              ⟨hnull, hdev⟩ | ⟨hnull, e, hdev⟩
            · simp [hdev, hnull]
            · simp [hdev, hnull]

/-- An empty batch comes to nothing just if the file is there already and can be secured. -/
theorem publishBatch_nil_iff (log : FileLog) (f : Files) (cancelled : Bool) (topic : String) :
    (.ok () = (log.publishBatch f cancelled topic []).result ∧
        f = (log.publishBatch f cancelled topic []).files) ↔
      cancelled = false ∧ log.closed = false ∧
        ∃ n, log.file f topic = (.ok n, f) ∧ ∃ c, f.node? n = some (.file c) := by
  cases cancelled with
  | true => simp [publishBatch, write]
  | false =>
    cases hclosed : log.closed with
    | true => simp [publishBatch, write, hclosed]
    | false =>
      cases hfile : log.file f topic with
      | mk opening f' =>
        cases opening with
        | error e => simp [publishBatch, write, hclosed, hfile]
        | ok n =>
          rw [publishBatch, write_opened hclosed hfile]
          have hnil : ∀ log : FileLog, log.appendTo f' n topic [] true =
              ⟨(f'.sync n).mapError .system, log, f', []⟩ := fun _ => rfl
          rw [hnil, Files.sync]
          constructor
          · rintro ⟨hok, rfl⟩
            refine ⟨rfl, rfl, n, rfl, ?_⟩
            split at hok
            · next c hc => exact ⟨c, hc⟩
            · cases hok
          · rintro ⟨-, -, n₁, h, c, hc⟩
            cases h
            rw [hc]
            exact ⟨rfl, rfl⟩

/-- To publish a batch as a whole comes to the same result and the same files as to publish its
messages one by one, just if the token is live, the log is open, the file of the topic can be
opened and, for a batch with messages, it is not the null device, which takes records but cannot be
secured; for an empty batch it has to be a file that was there before. -/
theorem batch_agrees_iff (log : FileLog) (f : Files) (cancelled : Bool) (topic : String)
    (batch : List Message) :
    let each := log.publishEach f cancelled topic batch
    let whole := log.publishBatch f cancelled topic batch
    (each.1 = whole.result ∧ each.2.2 = whole.files) ↔
      cancelled = false ∧ log.closed = false ∧
        if batch = [] then ∃ n, log.file f topic = (.ok n, f) ∧ ∃ c, f.node? n = some (.file c)
        else ∃ n f', log.file f topic = (.ok n, f') ∧ f'.node? n ≠ some .null := by
  intro each whole
  cases batch with
  | nil => exact publishBatch_nil_iff log f cancelled topic
  | cons m rest =>
    have heach := publishEach_eq log f cancelled topic (List.cons_ne_nil m rest)
    rw [if_neg (List.cons_ne_nil m rest),
      ← ofFirst_publishBatch_iff log f cancelled topic m rest (m :: rest).length,
      show each = _ from heach]
    exact and_iff_left rfl

/-- A cancelled token is told as it is of a batch as a whole, and of the first message one by
one. -/
theorem batch_cancelled_apart :
    let batch : List Message := [.ofText "a", .ofText "b"]
    (onH.publishBatch (.start [47, 104]) true "t" batch).result = .error .cancelled ∧
      (onH.publishEach (.start [47, 104]) true "t" batch).1 = .error (.batch 0 2 .cancelled) :=
  ⟨rfl, rfl⟩

end PubSub.FileLog
