import PubSub.Proofs.Record.Growing
import PubSub.Proofs.Subscription.Settled

/-!
# Replays of files that grow

However the reader of a file and its loop take turns, the loop gets the records of the content one
after another, then the error that ended them if one did, and no more (`Feed.Hands.yields`). What it
gets of a file that has grown begins with what it got before (`replay_grows`).
-/

namespace PubSub

namespace Feed

variable {content : Bytes} {f f' g : Feed} {n : Nat} {rs : List (Except DecodeError Message)}
  {e : DecodeError}

/-! ## Turns -/

/-- After `n` steps of the reader over a content the loop has taken `rs` from the queue. -/
inductive Hands (content : Bytes) : Feed → Nat → List (Except DecodeError Message) → Feed → Prop
  | rest (f : Feed) : Hands content f 0 [] f
  | reads {f f' g : Feed} {n : Nat} {rs : List (Except DecodeError Message)}
      (h : f.read? (.ok content) = some f') (hs : Hands content f' n rs g) :
      Hands content f (n + 1) rs g
  | takes {f g : Feed} {n : Nat} {r : Except DecodeError Message}
      {q rs : List (Except DecodeError Message)} (h : f.queued = r :: q)
      (hs : Hands content { f with queued := q } n rs g) : Hands content f n (r :: rs) g

theorem Hands.coming (h : Hands content f n rs g) :
    f.coming content = rs ++ g.coming content := by
  induction h with
  | rest f => rfl
  | reads h _ ih => rw [← ih, (read?_reads h).coming]
  | takes h _ ih => rw [coming_taken h content, ih, List.cons_append]

/-- The reader makes no more steps than it had to. -/
theorem Hands.steps_le (h : Hands content f n rs g) : n ≤ f.work content := by
  induction h with
  | rest f => exact Nat.zero_le _
  | reads h _ ih => exact Nat.succ_le_of_lt (Nat.lt_of_le_of_lt ih (read?_reads h).work)
  | takes _ _ ih => exact ih

/-! ## The last record -/

/-- The reader has stopped. -/
structure Stopped (f : Feed) : Prop where
  held : f.held = none
  ended : f.ended = true

theorem Stopped.read? (h : Stopped f) (c : Except SystemError Bytes) : f.read? c = none := by
  rw [Feed.read?, h.held, h.ended]
  rfl

/-- The reader stops with the first error it hands over. -/
def StopsAtError (f : Feed) : Prop := ∀ e, .error e ∈ f.queued → Stopped f

theorem StopsAtError.reads (hf : StopsAtError f) (h : f.read? (.ok content) = some f') :
    StopsAtError f' := by
  intro e he
  rw [Feed.read?] at h
  cases hheld : f.held with
  | none =>
    simp only [hheld] at h
    split at h
    · cases h
    · next hended =>
      cases h
      rw [decode_queued] at he
      exact absurd (hf e he).ended hended
  | some r =>
    simp only [hheld] at h
    split at h
    · cases h
      rcases List.mem_append.1 he with he | he
      · have := (hf e he).held
        rw [hheld] at this
        cases this
      · -- the error is the record that was handed over
        obtain rfl := List.mem_singleton.1 he
        exact ⟨rfl, rfl⟩
    · cases h

theorem Hands.stopped (h : Hands content f n rs g) (hf : Stopped f) : Stopped g := by
  induction h with
  | rest f => exact hf
  | reads h =>
    rw [hf.read?] at h
    cases h
  | takes _ _ ih => exact ih ⟨hf.held, hf.ended⟩

theorem Hands.stopped_of_error (h : Hands content f n rs g) (hf : StopsAtError f)
    (he : .error e ∈ rs) : Stopped g := by
  induction h with
  | rest f => cases he
  | reads h _ ih => exact ih (hf.reads h) he
  | @takes f g n r q rs h hs ih =>
    rcases List.mem_cons.1 he with rfl | he
    · have hstop := hf e (h ▸ List.mem_cons_self)
      exact hs.stopped ⟨hstop.held, hstop.ended⟩
    · refine ih (fun e' he' => ?_) he
      have hstop := hf e' (h ▸ List.mem_cons_of_mem _ he')
      exact ⟨hstop.held, hstop.ended⟩

/-! ## What is handed over -/

/-- An error stands last. -/
theorem eq_nil_of_error_mem {ms : List Message} {d : Option DecodeError}
    {q : List (Except DecodeError Message)} (h : rs ++ q = ms.map .ok ++ d.toList.map .error)
    (he : .error e ∈ rs) : q = [] := by
  have hms : (.error e : Except DecodeError Message) ∉ ms.map .ok := by simp
  rcases List.eq_nil_or_concat q with rfl | ⟨q, r, rfl⟩
  · rfl
  · cases d with
    | none =>
      have hall : .error e ∈ rs ++ q.concat r := List.mem_append_left _ he
      rw [h] at hall
      simp at hall
    | some d =>
      rw [List.concat_eq_append, ← List.append_assoc] at h
      have hrs : rs ++ q = ms.map .ok := (List.append_inj' h rfl).1
      exact absurd (hrs ▸ List.mem_append_left q he) hms

/-- What a loop has taken after `n` steps of the reader: the first of the messages that the content
holds, then the error that ended them. After an error nothing is queued and nothing is read, and a
loop that can take no more has taken everything. -/
structure Yields (content : Bytes) (n : Nat) (rs : List (Except DecodeError Message)) (f : Feed) :
    Prop where
  steps : n ≤ 2 * content.length + 1
  taken : rs <+: (Record.decodeAll content).1.map .ok ++
    (Record.decodeAll content).2.toList.map .error
  last : ∀ e, .error e ∈ rs → f.queued = [] ∧ ∀ c, f.read? c = none
  all : f.queued = [] → f.read? (.ok content) = none →
    rs = (Record.decodeAll content).1.map .ok ++ (Record.decodeAll content).2.toList.map .error

theorem isDry_of_read? (hq : f.queued = []) (h : f.read? (.ok content) = none) :
    f.isDry = true := by
  cases hdry : f.isDry with
  | true => rfl
  | false =>
    obtain ⟨f', hf'⟩ := read?_isSome hq hdry content
    rw [hf'] at h
    cases h

theorem Hands.yields {node : Nat} (h : Hands content (start node) n rs f) :
    Yields content n rs f := by
  have hall := h.coming
  rw [coming_start] at hall
  have hfresh : StopsAtError (start node) := fun e he => absurd he List.not_mem_nil
  refine ⟨?_, ⟨_, hall.symm⟩, fun e he => ?_, fun hq hread => ?_⟩
  · have hrecords := Record.stream_length_le .start content
    have hwork : (start node).work content = 2 * (Record.stream .start content).length + 1 := rfl
    have hsteps := h.steps_le
    omega
  · have hstop := h.stopped_of_error hfresh he
    have hnone : f.coming content = [] := eq_nil_of_error_mem hall.symm he
    have hq : f.queued = [] := by
      rw [Feed.coming, List.append_assoc] at hnone
      exact (List.append_eq_nil_iff.1 hnone).1
    exact ⟨hq, hstop.read?⟩
  · have hnone := coming_of_isDry (isDry_of_read? hq hread) content
    rw [hnone, List.append_nil] at hall
    exact hall.symm

end Feed

/-- What is read of a file that has grown begins with what was read of it. An error that is not the
end of the text stays, with the same messages before it, unless a number lacks a digit there. And
each time the loop is handed these messages and at most one error after them. -/
theorem replay_grows (content more : Bytes) :
    (Record.decodeAll content).1 <+: (Record.decodeAll (content ++ more)).1 ∧
      (∀ e, (Record.decodeAll content).2 = some e → e.isEnd = false →
        ((∀ t, (Record.decodeAll (content ++ t)).1 = (Record.decodeAll content).1 ∧
            (Record.decodeAll (content ++ t)).2 ≠ none) ↔ ¬ Record.LacksDigit content) ∧
          (Record.LacksDigit content → e.flaw = .malformed .invalidNumber)) ∧
      ∀ node n rs f, Feed.Hands content (.start node) n rs f → Feed.Yields content n rs f := by
  refine ⟨Record.readAll_prefix .start .start content more, fun e h hend => ?_, ?_⟩
  · exact ⟨Record.decodeAll_stays_iff h hend, fun hdigit => hdigit.flaw h hend⟩
  · intro node n rs f h
    exact h.yields

/-- An empty list, which is a message with nothing in it, and then a number. -/
def strayNumber : Bytes := [91, 93, 49]

theorem decodeAll_strayNumber :
    Record.decodeAll strayNumber =
      ([⟨none, [], NameMap.empty⟩],
        some ⟨.unexpected (.number (.natural 1)) .record, some ⟨1, 3⟩⟩) := by
  have hlist : Record.next .start strayNumber = .message ⟨none, [], NameMap.empty⟩ ⟨1, 2⟩ [49] :=
    rfl
  have hnumber : Record.next ⟨1, 2⟩ [49] =
      .broken ⟨.unexpected (.number (.natural 1)) .record, some ⟨1, 3⟩⟩ := rfl
  rw [Record.decodeAll, Record.readAll_of_message hlist, Record.readAll_of_broken hnumber]

theorem hands_strayNumber :
    ∃ f, Feed.Hands strayNumber (.start 0) 4 [.ok ⟨none, [], NameMap.empty⟩,
      .error ⟨.unexpected (.number (.natural 1)) .record, some ⟨1, 3⟩⟩] f :=
  ⟨_, .reads rfl (.reads rfl (.takes rfl (.reads rfl (.reads rfl (.takes rfl (.rest _))))))⟩

theorem replay_grows_strayNumber :
    ∃ (m : Message) (e : DecodeError) (f : Feed),
      Record.decodeAll strayNumber = ([m], some e) ∧ e.isEnd = false ∧
      (∀ t, (Record.decodeAll (strayNumber ++ t)).1 = [m] ∧
        (Record.decodeAll (strayNumber ++ t)).2 ≠ none) ∧
      Feed.Hands strayNumber (.start 0) 4 [.ok m, .error e] f ∧
      f.queued = [] ∧ ∀ c, f.read? c = none := by
  obtain ⟨-, herror, hhands⟩ := replay_grows strayNumber []
  have hread := decodeAll_strayNumber
  obtain ⟨hstays, hflaw⟩ := herror _ (by rw [hread]) rfl
  have hdigit : ¬ Record.LacksDigit strayNumber := fun h => by cases hflaw h
  obtain ⟨f, hf⟩ := hands_strayNumber
  have hlast := (hhands 0 4 _ f hf).last _ (List.mem_cons_of_mem _ List.mem_cons_self)
  rw [hread] at hstays
  exact ⟨_, _, f, hread, rfl, hstays.2 hdigit, hf, hlast⟩

/-! ## A number without digits -/

/-- An object that ends with the sign of a number: `{"x":-`. -/
def loneSign : Bytes := [123, 34, 120, 34, 58, 45]

theorem decodeAll_loneSign :
    ∃ e : DecodeError, e.isEnd = false ∧ Record.decodeAll loneSign = ([], some e) := by
  have hkey : Record.key true [34, 120, 34, 58, 45] = .ok (some "x", [58, 45]) :=
    Record.key_written true "x" [58, 45]
  have hskip : Json.skipValue [45] = .error ⟨.invalidNumber, [], .read⟩ := by
    rw [Json.skipValue, Json.skipRest_value (Record.skipSpace_cons (by decide) [])]
    rfl
  have hname : Record.Field.ofName? "x" = none := rfl
  have hmember : Record.member "x" .empty [58, 45] =
      .error ⟨.malformed .invalidNumber, [], .read⟩ := by
    simp only [Record.member, hname, Record.colon_written, hskip]
    rfl
  have hread : Record.read loneSign = .error ⟨.malformed .invalidNumber, [], .read⟩ := by
    rw [loneSign, Record.read, Record.skipSpace_cons (by decide)]
    simp only [Record.members_next hkey, hmember]
    rfl
  obtain ⟨e, he, hflaw⟩ := Record.readAll_broken .start (Record.skipSpace_cons (by decide) _) hread
  exact ⟨e, by rw [DecodeError.isEnd, hflaw]; rfl, he⟩

theorem decodeAll_loneSign_one :
    Record.decodeAll (loneSign ++ [49, 125]) = ([⟨none, [], NameMap.empty⟩], none) := by
  have hkey : Record.key true [34, 120, 34, 58, 45, 49, 125] =
      .ok (some "x", [58, 45, 49, 125]) := Record.key_written true "x" [58, 45, 49, 125]
  have hskip : Json.skipValue [45, 49, 125] = .ok [125] := by
    rw [Json.skipValue, Json.skipRest_value (Record.skipSpace_cons (by decide) [49, 125])]
    exact Json.skipRest_done (by decide) [125]
  have hname : Record.Field.ofName? "x" = none := rfl
  have hmember : Record.member "x" .empty [58, 45, 49, 125] = .ok (.empty, [125]) := by
    simp only [Record.member, hname, Record.colon_written, hskip]
    rfl
  have hbrace := Record.members_closed (d := .empty) (Record.key_closed false [])
  have hread : Record.read (loneSign ++ [49, 125]) = .ok (⟨none, [], NameMap.empty⟩, []) := by
    change Record.read [123, 34, 120, 34, 58, 45, 49, 125] = _
    rw [Record.read, Record.skipSpace_cons (by decide)]
    simp only [Record.members_next hkey, hmember, hbrace]
    rfl
  obtain ⟨p, hp⟩ := Record.readAll_read .start (s := loneSign ++ [49, 125])
    (Record.skipSpace_cons (by decide) _) hread
  rw [Record.decodeAll, hp, Record.readAll_finished p rfl]

theorem loneSign_completed :
    ¬ ∀ (content more : Bytes) (e : DecodeError), (Record.decodeAll content).2 = some e →
      e.isEnd = false → (Record.decodeAll (content ++ more)).1 = (Record.decodeAll content).1 ∧
        (Record.decodeAll (content ++ more)).2 ≠ none := by
  intro h
  obtain ⟨e, hend, he⟩ := decodeAll_loneSign
  have hstays := h loneSign [49, 125] e (by rw [he]) hend
  rw [decodeAll_loneSign_one] at hstays
  exact hstays.2 rfl

end PubSub
