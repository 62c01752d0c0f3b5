import PubSub.Proofs.Files.Opened
import PubSub.Proofs.Publisher.SharedReturns

/-!
# Records in a shared log

Writes that came back as stored have their records in the file of their topic, each behind those of
the writes before it. They stay there: a file only grows, but for a write that is stopped and cut
back, and that never takes away what was in the file when it began. Only a write through another
handle to the same file may have begun earlier.
-/

namespace PubSub

open Files (EntryAt Grows Makes Touches)

/-! ## Contents -/

/-- The records of the messages are in a content, one behind another. -/
def FileLog.Carries : Bytes → List Message → Prop
  | _, [] => True
  | c, m :: ms => ∃ before after, c = before ++ Record.line m ++ after ∧ Carries after ms

open FileLog (Carries)

variable {c : Bytes} {ms : List Message}

theorem FileLog.Carries.append (h : Carries c ms) (more : Bytes) : Carries (c ++ more) ms := by
  induction ms generalizing c with
  | nil => trivial
  | cons m ms ih =>
    obtain ⟨before, after, rfl, rest⟩ := h
    exact ⟨before, after ++ more, by rw [List.append_assoc], ih rest⟩

theorem FileLog.Carries.snoc (h : Carries c ms) (m : Message) :
    Carries (c ++ Record.line m) (ms ++ [m]) := by
  induction ms generalizing c with
  | nil => exact ⟨c, [], by rw [List.append_nil], trivial⟩
  | cons x ms ih =>
    obtain ⟨before, after, rfl, rest⟩ := h
    exact ⟨before, after ++ Record.line m, by rw [List.append_assoc], ih rest⟩

theorem FileLog.cutBack_files (f : Files) (n length : Nat) (topic : String) :
    (FileLog.cutBack f n length topic).1 = (f.cut n length).2 := by
  rw [FileLog.cutBack]
  split
  · next h => rw [h]
  · next h => rw [h]

/-! ## What was told as stored -/

namespace WriteReturn

variable {p q : WriteReturn → Bool} {w : WriteReturn}

/-- The batches of the calls that came back with success, in the order they came back; the latest
call is the first of the list. -/
def stored (p : WriteReturn → Bool) : List WriteReturn → List Message
  | [] => []
  | w :: ws => stored p ws ++ if p w && w.result.isOk then w.turn.call.batch else []

theorem stored_skip (h : p w = true → w.result.isOk = false) (ws : List WriteReturn) :
    stored p (w :: ws) = stored p ws := by
  have skipped : (p w && w.result.isOk) = false := by
    cases hp : p w with
    | false => rfl
    | true => exact h hp
  rw [stored, skipped, if_neg Bool.false_ne_true, List.append_nil]

theorem stored_snoc (hp : p w = true) (ok : w.result = .ok ()) (ws : List WriteReturn) :
    stored p (w :: ws) = stored p ws ++ w.turn.call.batch := by
  rw [stored, hp, ok]
  rfl

theorem stored_congr {ws : List WriteReturn} (h : ∀ w ∈ ws, w.result = .ok () → p w = q w) :
    stored p ws = stored q ws := by
  induction ws with
  | nil => rfl
  | cons w ws ih =>
    have rest := ih fun x hx => h x (List.mem_cons_of_mem _ hx)
    cases ok : w.result with
    | error e =>
      have failed : w.result.isOk = false := by rw [ok]; rfl
      rw [stored_skip fun _ => failed, stored_skip fun _ => failed, rest]
    | ok u => rw [stored, stored, rest, h w List.mem_cons_self ok]

/-- Where nothing was stored. -/
theorem stored_eq_nil {ws : List WriteReturn}
    (h : ∀ w ∈ ws, p w = true → w.result ≠ .ok ()) : stored p ws = [] := by
  induction ws with
  | nil => rfl
  | cons w ws ih =>
    have failed : p w = true → w.result.isOk = false := by
      intro hp
      cases ok : w.result with
      | error e => rfl
      | ok u => exact absurd ok (h w List.mem_cons_self hp)
    rw [stored_skip failed]
    exact ih fun x hx => h x (List.mem_cons_of_mem _ hx)

end WriteReturn

/-! ## What a move does to files -/

/-- A stage makes a file or changes the content of one. -/
theorem Proceeds.changes {h : LogHandle} {path : Bytes} {closed : Bool} {f : Files}
    {call : WriteCall} {stage : WriteStage} {s : WriteStep}
    (does : Proceeds h path closed f call stage s) :
    (Makes f s.files ∨ ∃ n, Touches n f s.files) ∧ s.files.brake = f.brake := by
  cases does with
  | opens n f' file opened =>
    have makes := Files.makes_openAppend f path
    rw [opened] at makes
    exact ⟨.inl makes, makes.brake⟩
  | appends n size written m f' next appended =>
    have touches := Files.touches_append f n (Record.line m)
    have brake := Files.append_brake f n (Record.line m)
    rw [appended] at touches brake
    exact ⟨.inr ⟨n, touches⟩, brake⟩
  | stops n size written m e f' next refused =>
    have touches := Files.touches_append f n (Record.line m)
    have brake := Files.append_brake f n (Record.line m)
    rw [refused] at touches brake
    exact ⟨.inr ⟨n, touches⟩, brake⟩
  | cuts n size written e f' events cut =>
    let length := size + (FileLog.records (call.batch.take written)).length
    have touches := Files.touches_cut f n length
    have brake := Files.cut_brake f n length
    rw [← FileLog.cutBack_files f n length h.topic, cut] at touches brake
    exact ⟨.inr ⟨n, touches⟩, brake⟩
  | _ => exact ⟨.inl .nothing, rfl⟩

/-- A file grows, or is cut back to no less than it had when the write began. -/
theorem Proceeds.content {h : LogHandle} {path : Bytes} {closed : Bool} {f : Files}
    {call : WriteCall} {stage : WriteStage} {s : WriteStep}
    (does : Proceeds h path closed f call stage s) {n : Nat} (hn : f.node? n = some (.file c)) :
    (∃ more, s.files.node? n = some (.file (c ++ more))) ∨
      s.cut = some n ∧ ∃ size written e, stage = .stopped n size written e ∧
        ∃ length zeros, size ≤ length ∧
          s.files.node? n = some (.file (c.take length ++ zeros)) := by
  have same : f.node? n = some (.file (c ++ [])) := by rw [List.append_nil]; exact hn
  cases does with
  | opens k f' file opened =>
    have makes := Files.makes_openAppend f path
    rw [opened] at makes
    exact .inl ⟨[], by rw [List.append_nil]; exact makes.file_kept hn⟩
  | appends k size written m f' next appended =>
    have happend := Files.append_file hn (Record.line m)
    have touches := Files.touches_append f k (Record.line m)
    rw [appended] at touches
    by_cases hk : n = k
    · subst hk
      rw [appended] at happend
      exact .inl happend
    · exact .inl ⟨[], (touches.others n hk).trans same⟩
  | stops k size written m e f' next refused =>
    have happend := Files.append_file hn (Record.line m)
    have touches := Files.touches_append f k (Record.line m)
    rw [refused] at touches
    by_cases hk : n = k
    · subst hk
      rw [refused] at happend
      exact .inl happend
    · exact .inl ⟨[], (touches.others n hk).trans same⟩
  | cuts k size written e f' events cut =>
    have hfiles : f' = (f.cut k (size + (FileLog.records (call.batch.take written)).length)).2 := by
      rw [← FileLog.cutBack_files f k _ h.topic, cut]
    by_cases hk : n = k
    · subst hk
      obtain ⟨zeros, hcut⟩ :=
        Files.cut_file hn (size + (FileLog.records (call.batch.take written)).length)
      exact .inr ⟨rfl, size, written, e, rfl, _, zeros, Nat.le_add_right _ _, hfiles ▸ hcut⟩
    · have touches := Files.touches_cut f k
        (size + (FileLog.records (call.batch.take written)).length)
      rw [← hfiles] at touches
      exact .inl ⟨[], (touches.others n hk).trans same⟩
  | _ => exact .inl ⟨[], same⟩

/-- A file that is opened has the name by which it was opened. -/
theorem Proceeds.named {h : LogHandle} {path : Bytes} {closed : Bool} {f : Files}
    {call : WriteCall} {stage : WriteStage} {s : WriteStep}
    (does : Proceeds h path closed f call stage s)
    (before : ∀ n, h.file = some n → s.files.Names path n) :
    ∀ n, s.file = some n → s.files.Names path n := by
  cases does with
  | opens k f' file opened =>
    rintro n ⟨⟩
    exact Files.entryAt_openAppend opened
  | finds k file =>
    rintro n ⟨⟩
    exact before k file
  | fails => exact fun n hn => by cases hn
  | _ => exact before

/-- The size that the file had before records were written to it. -/
def WriteStage.size? : WriteStage → Option Nat
  | .appending _ size _ | .stopped _ size _ _ => some size
  | _ => none

/-- The size that a stage goes by is known from before, or is that of the file now. -/
theorem Proceeds.size {h : LogHandle} {path : Bytes} {closed : Bool} {f : Files}
    {call : WriteCall} {stage : WriteStage} {s : WriteStep}
    (does : Proceeds h path closed f call stage s) {size : Nat}
    (hs : s.stage.size? = some size) :
    stage.size? = some size ∨ ∃ n, stage.node? = some n ∧ size = f.size n := by
  cases does with
  | sizes n => exact .inr ⟨n, rfl, (Option.some.inj hs).symm⟩
  | appends | stops => exact .inl hs
  | _ => cases hs

namespace SharedLog

variable {d d' : SharedLog} {m : LogMove} {n i : Nat}

theorem Moves.path (moves : Moves d m d') (topic : String) : d'.path topic = d.path topic := by
  cases moves <;> rfl

theorem Moves.cut_kept (moves : Moves d m d') {x : Nat × Nat} (hx : x ∈ d.cut) : x ∈ d'.cut := by
  cases moves with
  | works => exact List.mem_append_right _ hx
  | _ => exact hx

/-- Nodes keep their names. -/
theorem Moves.grows (moves : Moves d m d') : Grows d.files d'.files := by
  cases moves with
  | works i h turn stage s there visit does =>
    rcases does.changes.1 with makes | ⟨k, touches⟩
    · exact makes.grows
    · exact touches.grows
  | brakes => exact ⟨rfl, fun h => ⟨[], by rw [List.append_nil]; exact h⟩⟩
  | _ => exact .refl _

/-- The device that forgets stays one. -/
theorem Moves.null (moves : Moves d m d') (hn : d.files.node? n = some .null) :
    d'.files.node? n = some .null := by
  cases moves with
  | works i h turn stage s there visit does =>
    rcases does.changes.1 with makes | ⟨k, touches⟩
    · exact makes.null_kept hn
    · exact touches.null_kept hn
  | _ => exact hn

/-- A write through handle `i` has stopped that found this size in the file. -/
def StoppedAt (d : SharedLog) (i n size : Nat) : Prop :=
  ∃ h v written e, d.handles[i]? = some h ∧ h.visit = some v ∧ v.stage = .stopped n size written e

theorem Moves.content (moves : Moves d m d') (hn : d.files.node? n = some (.file c)) :
    (∃ more, d'.files.node? n = some (.file (c ++ more))) ∨
      ∃ i size, d.StoppedAt i n size ∧ (i, n) ∈ d'.cut ∧ ∃ length zeros, size ≤ length ∧
        d'.files.node? n = some (.file (c.take length ++ zeros)) := by
  cases moves with
  | works i h turn stage s there visit does =>
    rcases does.content hn with grown | ⟨cut, size, written, e, rfl, shortened⟩
    · exact .inl grown
    · have noted : (i, n) ∈ (s.cut.map fun n => (i, n)).toList ++ d.cut := by simp [cut]
      exact .inr ⟨i, size, ⟨h, _, written, e, there, visit, rfl⟩, noted, shortened⟩
  | _ => exact .inl ⟨[], by rw [List.append_nil]; exact hn⟩

/-- A file stays one. -/
theorem Moves.file (moves : Moves d m d') (hn : d.files.node? n = some (.file c)) :
    ∃ c', d'.files.node? n = some (.file c') := by
  rcases moves.content hn with ⟨more, hmore⟩ | ⟨-, -, -, -, length, zeros, -, hcut⟩
  · exact ⟨_, hmore⟩
  · exact ⟨_, hcut⟩

/-! ## Records of one write -/

/-- A write through another handle to the file was stopped and cut back. -/
def Undone (d : SharedLog) (i n : Nat) : Prop := ∃ j, j ≠ i ∧ (j, n) ∈ d.cut

/-- The messages were written to the node; a device has forgotten them. -/
def Took (d : SharedLog) (n : Nat) (ms : List Message) : Prop :=
  ms = [] ∨ d.files.node? n = some .null ∨ ∃ c, d.files.node? n = some (.file c) ∧ Carries c ms

/-- The records are in a part of the file that is before all that the call with the lock of handle
`i` may cut off. -/
def Safe (d : SharedLog) (i n : Nat) (ms : List Message) : Prop :=
  ∃ c k, d.files.node? n = some (.file c) ∧ k ≤ c.length ∧ Carries (c.take k) ms ∧
    ∀ h v size, d.handles[i]? = some h → h.visit = some v → v.stage.size? = some size → k ≤ size

theorem Undone.move (moves : Moves d m d') (h : d.Undone i n) : d'.Undone i n := by
  obtain ⟨j, hj, hcut⟩ := h
  exact ⟨j, hj, moves.cut_kept hcut⟩

theorem Safe.took (h : d.Safe i n ms) : d.Took n ms := by
  obtain ⟨c, k, hc, -, carries, -⟩ := h
  have whole := carries.append (c.drop k)
  rw [List.take_append_drop] at whole
  exact .inr (.inr ⟨c, hc, whole⟩)

theorem Took.carries (h : d.Took n ms) (hc : d.files.node? n = some (.file c)) : Carries c ms := by
  rcases h with rfl | hnull | ⟨c', hc', carries⟩
  · trivial
  · rw [hc] at hnull
    cases hnull
  · rw [hc] at hc'
    cases hc'
    exact carries

/-- What was written stays, unless the write itself is the one that is cut back. -/
theorem Took.move (moves : Moves d m d') (working : ∀ size, ¬ d.StoppedAt i n size)
    (h : d.Undone i n ∨ d.Took n ms) : d'.Undone i n ∨ d'.Took n ms := by
  rcases h with undone | hnil | hnull | ⟨c, hc, carries⟩
  · exact .inl (undone.move moves)
  · exact .inr (.inl hnil)
  · exact .inr (.inr (.inl (moves.null hnull)))
  · rcases moves.content hc with ⟨more, hmore⟩ | ⟨j, size, stopped, cut, -⟩
    · exact .inr (.inr (.inr ⟨_, hmore, carries.append more⟩))
    · refine .inl ⟨j, ?_, cut⟩
      rintro rfl
      exact working size stopped

/-- What is stored stays, if the writes that go on through its handle began behind it. -/
theorem Safe.move (moves : Moves d m d')
    (later : ∀ c k, d.files.node? n = some (.file c) → k ≤ c.length →
      (∀ h v size, d.handles[i]? = some h → h.visit = some v → v.stage.size? = some size →
        k ≤ size) →
      ∀ h v size, d'.handles[i]? = some h → h.visit = some v → v.stage.size? = some size → k ≤ size)
    (h : d.Undone i n ∨ d.Safe i n ms) : d'.Undone i n ∨ d'.Safe i n ms := by
  rcases h with undone | ⟨c, k, hc, hk, carries, behind⟩
  · exact .inl (undone.move moves)
  · have behind' := later c k hc hk behind
    rcases moves.content hc with ⟨more, hmore⟩ | ⟨j, size, stopped, cut, length, zeros, hlong, hcut⟩
    · refine .inr ⟨_, k, hmore, ?_, ?_, behind'⟩
      · rw [List.length_append]
        omega
      · rw [List.take_append_of_le_length hk]
        exact carries
    · by_cases hj : j = i
      · subst hj
        obtain ⟨h, v, written, e, there, visit, stage⟩ := stopped
        have hsize : k ≤ size := behind h v size there visit (by rw [stage]; rfl)
        have hshort : k ≤ (c.take length).length := by
          rw [List.length_take]
          omega
        refine .inr ⟨_, k, hcut, ?_, ?_, behind'⟩
        · rw [List.length_append]
          omega
        · rw [List.take_append_of_le_length hshort, List.take_take, Nat.min_eq_left (by omega)]
          exact carries
      · exact .inl ⟨j, hj, cut⟩

/-! ## Records of all writes -/

/-- What was told as stored by the calls through a handle. -/
def through (d : SharedLog) (i : Nat) : List Message :=
  WriteReturn.stored (·.turn.call.handle == i) d.returned

/-- Calls through one handle come back one at a time. -/
theorem Moves.through (moves : Moves d m d') (seated : d.Seated) (j : Nat) :
    d'.through j = d.through j ∨ ∃ h turn, d.handles[j]? = some h ∧
      h.visit = some ⟨turn, .leaving (.ok ())⟩ ∧
        d'.handles = d.handles.set j { h with visit := none } := by
  cases moves with
  | refused c h there => exact .inl (WriteReturn.stored_skip (fun _ => rfl) _)
  | leaves i h turn result there visit =>
    have handle : turn.call.handle = i := (seated.visits i h _ there visit).1
    cases result with
    | error e => exact .inl (WriteReturn.stored_skip (fun _ => rfl) _)
    | ok u =>
      by_cases hj : i = j
      · subst hj
        exact .inr ⟨h, turn, there, visit, rfl⟩
      · refine .inl (WriteReturn.stored_skip (fun hp => ?_) _)
        exact absurd (handle.symm.trans (beq_iff_eq.1 hp)) hj
  | _ => exact .inl rfl

/-- How much of its batch a write that goes on has stored, behind what was stored before. -/
def Progress (d : SharedLog) (i : Nat) (h : LogHandle) (v : WriteVisit) : Prop :=
  match v.stage with
  | .appending n _ written =>
    d.Undone i n ∨ d.Took n (d.through i ++ v.turn.call.batch.take written)
  | .securing n => d.Undone i n ∨ d.Took n (d.through i ++ v.turn.call.batch)
  | .leaving (.ok _) => ∃ n, h.file = some n ∧ (∃ c, d.files.node? n = some (.file c)) ∧
      (d.Undone i n ∨ d.Took n (d.through i ++ v.turn.call.batch))
  | _ => True

/-- What no move breaks. -/
structure Recorded (d : SharedLog) : Prop where
  named : ∀ (i : Nat) (h : LogHandle) (n : Nat), d.handles[i]? = some h → h.file = some n →
    d.files.Names (d.path h.topic) n
  visits : ∀ (i : Nat) (h : LogHandle) (v : WriteVisit), d.handles[i]? = some h →
    h.visit = some v → d.Progress i h v
  returned : ∀ w ∈ d.returned, w.result = .ok () → ∃ n, d.files.Names (d.path w.topic) n ∧
    (∃ c, d.files.node? n = some (.file c)) ∧
      (d.Undone w.turn.call.handle n ∨
        d.Safe w.turn.call.handle n (d.through w.turn.call.handle))

theorem Recorded.start (root : Bytes) (files : Files) : (start root files).Recorded := by
  constructor <;> simp [SharedLog.start]

/-- A file that is open in a handle holds what was told as stored by the calls through it. -/
theorem Recorded.took (recorded : d.Recorded) (seated : d.Seated) {h : LogHandle}
    (there : d.handles[i]? = some h) (file : h.file = some n) :
    d.Undone i n ∨ d.Took n (d.through i) := by
  by_cases any : ∃ w ∈ d.returned, w.turn.call.handle = i ∧ w.result = .ok ()
  · obtain ⟨w, hw, rfl, ok⟩ := any
    obtain ⟨n', names, -, stored⟩ := recorded.returned w hw ok
    obtain ⟨x, hx, topic⟩ := seated.returned w hw
    rw [there] at hx
    cases hx
    have named := recorded.named _ h n there file
    rw [topic] at named
    rw [named.unique names]
    exact stored.imp_right Safe.took
  · refine .inr (.inl (WriteReturn.stored_eq_nil fun w hw hp ok => any ⟨w, hw, ?_, ok⟩))
    exact beq_iff_eq.1 hp

/-- A write of which the handle does not go on. -/
theorem Progress.move (moves : Moves d m d') (same : d'.through i = d.through i) {h : LogHandle}
    {v : WriteVisit} (there : d.handles[i]? = some h) (visit : h.visit = some v)
    (progress : d.Progress i h v) : d'.Progress i h v := by
  have working : (∀ n size written e, v.stage ≠ .stopped n size written e) →
      ∀ n size, ¬ d.StoppedAt i n size := by
    rintro stage n size ⟨x, y, written, e, hx, hy, stopped⟩
    rw [there] at hx
    cases hx
    rw [visit] at hy
    cases hy
    exact stage n size written e stopped
  obtain ⟨turn, stage⟩ := v
  cases stage with
  | appending n size written =>
    rw [Progress, same]
    exact Took.move moves (working (by simp) n) progress
  | securing n =>
    rw [Progress, same]
    exact Took.move moves (working (by simp) n) progress
  | leaving result =>
    cases result with
    | error e => trivial
    | ok u =>
      obtain ⟨n, file, ⟨c, hc⟩, took⟩ := progress
      rw [Progress, same]
      exact ⟨n, file, moves.file hc, Took.move moves (working (by simp) n) took⟩
  | _ => trivial

/-- The write of which the handle goes on. -/
theorem Progress.proceeds {h : LogHandle} {turn : WriteTurn} {stage : WriteStage} {s : WriteStep}
    (moves : Moves d m d') (files : d'.files = s.files) (same : d'.through i = d.through i)
    (there : d.handles[i]? = some h) (visit : h.visit = some ⟨turn, stage⟩)
    (before : ∀ n, h.file = some n → d.Undone i n ∨ d.Took n (d.through i))
    (progress : d.Progress i h ⟨turn, stage⟩)
    (node : ∀ n, stage.node? = some n → h.file = some n)
    (does : Proceeds h (d.path h.topic) d.closed d.files turn.call stage s) :
    d'.Progress i { h with file := s.file, visit := some ⟨turn, s.stage⟩ } ⟨turn, s.stage⟩ := by
  have stays := Progress.move moves same there visit progress
  cases does with
  | sizes n =>
    simp only [Progress, same, List.take_zero, List.append_nil]
    refine (before n (node n rfl)).imp (·.move moves) fun took => ?_
    rw [Took, files]
    exact took
  | finishes n size written all =>
    simp only [Progress, List.take_of_length_le all] at stays
    exact stays
  | appends n size written x f' next appended =>
    simp only [Progress, same] at progress ⊢
    rcases progress with undone | took
    · exact .inl (undone.move moves)
    · refine .inr (.inr ?_)
      rcases Files.append_ok appended with ⟨hnull, rfl⟩ | ⟨c, hc, hc'⟩
      · exact .inl (by rw [files]; exact hnull)
      · have carries := (took.carries hc).snoc x
        have written' : turn.call.batch.take written ++ [x] =
            turn.call.batch.take (written + 1) := by
          rw [List.take_add_one, next]
          rfl
        rw [List.append_assoc, written'] at carries
        exact .inr ⟨_, by rw [files]; exact hc', carries⟩
  | secures n =>
    cases secured : d.files.sync n with
    | error e => trivial
    | ok u =>
      refine ⟨n, node n rfl, ?_, stays⟩
      rw [Files.sync] at secured
      split at secured
      · next c hc => exact ⟨c, by rw [files]; exact hc⟩
      · cases secured
  | _ => trivial

theorem Recorded.named_move (recorded : d.Recorded) (moves : Moves d m d') (i : Nat)
    (h : LogHandle) (n : Nat) (there : d'.handles[i]? = some h) (file : h.file = some n) :
    d'.files.Names (d'.path h.topic) n := by
  have still : ∀ (x : LogHandle) (n : Nat), d.handles[i]? = some x → x.file = some n →
      d'.files.Names (d'.path x.topic) n := by
    intro x n hx file
    rw [moves.path]
    exact (recorded.named i x n hx file).grows moves.grows
  cases moves.becomes there with
  | stays _ there => exact still h n there file
  | new topic => cases file
  | enters x turn hx => exact still x n hx file
  | works x turn stage s hx visit does files =>
    rw [moves.path, files]
    refine does.named (fun n hn => ?_) n file
    have named := still x n hx hn
    rw [moves.path, files] at named
    exact named
  | leaves x hx => exact still x n hx file
  | takes x hx => cases file

theorem Recorded.visits_move (recorded : d.Recorded) (seated : d.Seated) (moves : Moves d m d')
    (i : Nat) (h : LogHandle) (v : WriteVisit) (there : d'.handles[i]? = some h)
    (visit : h.visit = some v) : d'.Progress i h v := by
  -- who holds the lock has not come back
  have same : d'.through i = d.through i := by
    rcases moves.through seated i with same | ⟨x, turn, hx, -, replaced⟩
    · exact same
    · rw [replaced, List.getElem?_set_self', hx] at there
      cases there
      cases visit
  cases moves.becomes there with
  | stays _ there =>
    exact Progress.move moves same there visit (recorded.visits i h v there visit)
  | new topic => cases visit
  | enters x turn hx =>
    cases visit
    trivial
  | works x turn stage s hx working does files =>
    cases visit
    exact Progress.proceeds moves files same hx working (fun n => recorded.took seated hx)
      (recorded.visits i x _ hx working) (seated.visits i x _ hx working).2.2 does
  | leaves x hx => cases visit
  | takes x hx free =>
    rw [free] at visit
    cases visit

/-- Writes that begin later begin behind what the file holds. -/
theorem Recorded.behind (recorded : d.Recorded) (seated : d.Seated) (moves : Moves d m d')
    {w : WriteReturn} (hw : w ∈ d.returned) (names : d.files.Names (d.path w.topic) n) {c : Bytes}
    {k : Nat} (hc : d.files.node? n = some (.file c)) (hk : k ≤ c.length)
    (before : ∀ h v size, d.handles[w.turn.call.handle]? = some h → h.visit = some v →
      v.stage.size? = some size → k ≤ size) :
    ∀ h v size, d'.handles[w.turn.call.handle]? = some h → h.visit = some v →
      v.stage.size? = some size → k ≤ size := by
  intro h v size there visit hsize
  cases moves.becomes there with
  | stays _ there => exact before h v size there visit hsize
  | new topic => cases visit
  | enters x turn hx =>
    cases visit
    cases hsize
  | works x turn stage s hx working does =>
    cases visit
    rcases does.size hsize with old | ⟨n', node, rfl⟩
    · exact before x _ size hx working old
    · -- the write works on the file of the same topic
      have file := (seated.visits _ x _ hx working).2.2 n' node
      obtain ⟨y, hy, topic⟩ := seated.returned w hw
      rw [hx] at hy
      cases hy
      have named := recorded.named _ x n' hx file
      rw [topic] at named
      rw [named.unique names, Files.size, hc]
      exact hk
  | leaves x hx => cases visit
  | takes x hx free =>
    rw [free] at visit
    cases visit

/-- What calls told as stored before is in the file still. -/
theorem Recorded.returned_move (recorded : d.Recorded) (seated : d.Seated) (moves : Moves d m d')
    {w : WriteReturn} (hw : w ∈ d.returned) (ok : w.result = .ok ())
    (same : d'.through w.turn.call.handle = d.through w.turn.call.handle) :
    ∃ n, d'.files.Names (d'.path w.topic) n ∧ (∃ c, d'.files.node? n = some (.file c)) ∧
      (d'.Undone w.turn.call.handle n ∨
        d'.Safe w.turn.call.handle n (d'.through w.turn.call.handle)) := by
  obtain ⟨n, names, ⟨c, hc⟩, stored⟩ := recorded.returned w hw ok
  rw [same, moves.path]
  refine ⟨n, names.grows moves.grows, moves.file hc, Safe.move moves (fun c k hc hk => ?_) stored⟩
  exact recorded.behind seated moves hw names hc hk

/-- A call that comes back with success leaves what it stored behind what was stored before. -/
theorem Recorded.leaves (recorded : d.Recorded) (seated : d.Seated) {h : LogHandle}
    {turn : WriteTurn} (there : d.handles[i]? = some h)
    (visit : h.visit = some ⟨turn, .leaving (.ok ())⟩)
    (handles : d'.handles = d.handles.set i { h with visit := none })
    (returned : d'.returned = ⟨turn, h.topic, .ok ()⟩ :: d.returned) (files : d'.files = d.files)
    (cut : d'.cut = d.cut) :
    ∃ n, d'.files.Names (d.path h.topic) n ∧ (∃ c, d'.files.node? n = some (.file c)) ∧
      (d'.Undone i n ∨ d'.Safe i n (d'.through i)) := by
  obtain ⟨n, file, ⟨c, hc⟩, stored⟩ := recorded.visits i h _ there visit
  have handle : turn.call.handle = i := (seated.visits i h _ there visit).1
  have through : d'.through i = d.through i ++ turn.call.batch := by
    rw [SharedLog.through, returned, WriteReturn.stored_snoc (by simp [handle]) rfl]
    rfl
  rw [through, files]
  refine ⟨n, recorded.named i h n there file, ⟨c, hc⟩, ?_⟩
  rw [Undone, cut, Safe, files]
  refine stored.imp_right fun took => ⟨c, c.length, hc, Nat.le_refl _, ?_, ?_⟩
  · rw [List.take_length]
    exact took.carries hc
  · intro x v size hx hv
    rw [handles, List.getElem?_set_self', there] at hx
    cases hx
    cases hv

theorem Recorded.move (recorded : d.Recorded) (seated : d.Seated) (moves : Moves d m d') :
    d'.Recorded := by
  have kept := fun w hw ok => recorded.returned_move (w := w) seated moves hw ok
  refine ⟨recorded.named_move moves, recorded.visits_move seated moves, ?_⟩
  cases moves with
  | refused c h there =>
    intro w hw ok
    rcases List.mem_cons.1 hw with rfl | hw
    · cases ok
    · exact kept w hw ok (WriteReturn.stored_skip (fun _ => rfl) _)
  | leaves i h turn result there visit =>
    have handle : turn.call.handle = i := (seated.visits i h _ there visit).1
    intro w hw ok
    cases result with
    | error e =>
      rcases List.mem_cons.1 hw with rfl | hw
      · cases ok
      · exact kept w hw ok (WriteReturn.stored_skip (fun _ => rfl) _)
    | ok u =>
      by_cases hi : w.turn.call.handle = i
      · have topic : w.topic = h.topic := by
          rcases List.mem_cons.1 hw with rfl | hw
          · rfl
          · obtain ⟨x, hx, topic⟩ := seated.returned w hw
            rw [hi, there] at hx
            cases hx
            exact topic.symm
        rw [hi, topic]
        exact recorded.leaves seated there visit rfl rfl rfl rfl
      · rcases List.mem_cons.1 hw with rfl | hw
        · exact absurd handle hi
        · refine kept w hw ok (WriteReturn.stored_skip (fun hp => ?_) _)
          exact absurd ((beq_iff_eq.1 hp).symm.trans handle) hi
  | _ => exact fun w hw ok => kept w hw ok rfl

end SharedLog

end PubSub
