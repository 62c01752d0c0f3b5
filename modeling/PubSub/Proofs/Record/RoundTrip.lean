import PubSub.Proofs.Record.Log

/-!
# Records read back

A record holds no byte below the space, and is read back as its message with its labels in any order.
Records one after another are read back as one stream, with any white space or none between them
(`records_readBack`).
-/

namespace PubSub.Record

open Json (Position isSpace skipSpace)

/-! ## The bytes of a record -/

/-- No byte is a control character below the space. -/
def Clear (s : Bytes) : Prop := ∀ b ∈ s, 32 ≤ b

instance (s : Bytes) : Decidable (Clear s) := List.decidableBAll (fun b => 32 ≤ b) s

theorem clear_append {s t : Bytes} : Clear (s ++ t) ↔ Clear s ∧ Clear t :=
  List.forall_mem_append

theorem clear_cons {b : UInt8} {s : Bytes} : Clear (b :: s) ↔ 32 ≤ b ∧ Clear s :=
  List.forall_mem_cons

theorem clear_lower (n : Fin 32) :
    32 ≤ (Hex.lower (n.val / 16)).toNat.toUInt8 ∧ 32 ≤ (Hex.lower (n.val % 16)).toNat.toUInt8 := by
  revert n
  decide

theorem clear_escapeByte (b : UInt8) : Clear (escapeByte b) := by
  unfold escapeByte
  -- the bytes that have an escape of their own
  repeat (split; · decide)
  split
  · next h =>
    obtain ⟨hhigh, hlow⟩ := clear_lower ⟨b.toNat, h⟩
    simp only at hhigh hlow
    simp only [clear_cons, hhigh, hlow, true_and]
    decide
  · next h => exact clear_cons.2 ⟨UInt8.not_lt.1 h, by decide⟩

theorem clear_quoteBytes (s : Bytes) : Clear (quoteBytes s) := by
  rw [quoteBytes, clear_cons, clear_append]
  refine ⟨by decide, fun b hb => ?_, by decide⟩
  obtain ⟨a, -, ha⟩ := List.mem_flatMap.1 hb
  exact clear_escapeByte a b ha

theorem clear_writeMember {name : String} {v : Bytes} (h : Clear v) :
    Clear (writeMember name v) := by
  rw [writeMember, clear_append, clear_cons]
  exact ⟨clear_quoteBytes _, by decide, h⟩

theorem clear_writeObject {ms : List Bytes} (h : ∀ m ∈ ms, Clear m) : Clear (writeObject ms) := by
  have hrest : ∀ first, Clear (membersText first ms) := by
    induction ms with
    | nil =>
      intro first
      simp [membersText, Clear]
    | cons m ms ih =>
      intro first
      rw [membersText, clear_append, clear_append]
      refine ⟨⟨?_, h m List.mem_cons_self⟩, ih (fun n hn => h n (List.mem_cons_of_mem _ hn)) false⟩
      cases first <;> decide
  rw [writeObject_eq, clear_cons]
  exact ⟨by decide, hrest true⟩

theorem clear_fieldTexts (es : List (String × String)) (m : Message) :
    ∀ x ∈ fieldTexts es m, Clear x := by
  intro x hx
  simp only [fieldTexts, List.mem_append] at hx
  rcases hx with (hx | hx) | hx
  · cases hid : m.id with
    | none => simp [hid, idText] at hx
    | some s =>
      rw [hid, idText, List.mem_singleton] at hx
      exact hx ▸ clear_writeMember (clear_quoteBytes _)
  · rw [dataText] at hx
    split at hx
    · simp at hx
    · exact List.mem_singleton.1 hx ▸ clear_writeMember (clear_quoteBytes _)
  · rw [attributesText] at hx
    split at hx
    · simp at hx
    · rw [List.mem_singleton.1 hx]
      refine clear_writeMember (clear_writeObject fun l hl => ?_)
      obtain ⟨e, -, rfl⟩ := List.mem_map.1 hl
      exact clear_writeMember (clear_quoteBytes _)

theorem Written.clear (x : Written) : Clear x.bytes := by
  rw [bytes, encodeWith_eq]
  exact clear_writeObject (clear_fieldTexts _ _)

/-! ## One record -/

theorem decode_written (x : Written) : decode x.bytes = .ok x.message := by
  have h := read_written x []
  rw [List.append_nil] at h
  rw [decode, readWhole, h]
  rfl

/-! ## Records in a row -/

/-- White space, or nothing. -/
def Blank (s : Bytes) : Prop := ∀ b ∈ s, isSpace b = true

instance (s : Bytes) : Decidable (Blank s) :=
  List.decidableBAll (fun b => isSpace b = true) s

/-- Records, each behind what stands before it. -/
def inRow (xs : List (Bytes × Written)) : Bytes := xs.flatMap fun x => x.1 ++ x.2.bytes

theorem skipSpace_blank {s : Bytes} (h : Blank s) (t : Bytes) :
    skipSpace (s ++ t) = skipSpace t :=
  List.dropWhile_append_of_pos h

/-- White space before a record changes no more than the places of later flaws. -/
theorem readAll_inRow {xs : List (Bytes × Written)} {tail : Bytes} (hxs : ∀ x ∈ xs, Blank x.1)
    (htail : Blank tail) (place : Position) :
    readAll place (inRow xs ++ tail) = (xs.map (·.2.message), none) := by
  induction xs generalizing place with
  | nil =>
    refine readAll_finished place ?_
    have h := skipSpace_blank htail []
    rwa [List.append_nil] at h
  | cons x xs ih =>
    have hsplit : inRow (x :: xs) ++ tail = x.1 ++ (x.2.bytes ++ (inRow xs ++ tail)) := by
      simp [inRow]
    have hskip : skipSpace (inRow (x :: xs) ++ tail) = x.2.bytes ++ (inRow xs ++ tail) := by
      rw [hsplit, skipSpace_blank (hxs x List.mem_cons_self), skipSpace_written]
    obtain ⟨p, hp⟩ := readAll_message place hskip
    rw [hp, ih (fun y hy => hxs y (List.mem_cons_of_mem _ hy))]
    rfl

/-- A record is clear of control characters and is read back. So are records in a row, up to a clean
end. -/
theorem records_readBack :
    (∀ x : Written, (∀ b ∈ x.bytes, 32 ≤ b) ∧ decode x.bytes = .ok x.message) ∧
      ∀ (xs : List (Bytes × Written)) (tail : Bytes), (∀ x ∈ xs, Blank x.1) → Blank tail →
        decodeAll (inRow xs ++ tail) = (xs.map (·.2.message), none) :=
  ⟨fun x => ⟨x.clear, decode_written x⟩, fun _ _ hxs htail => readAll_inRow hxs htail .start⟩

/-- A message with an identifier, a payload and two labels that all need care, its labels written in
the other order. -/
def delicate : Written :=
  ⟨⟨some "\n\"", [0, 255], ⟨[("", "é"), ("k\\", "\u0001")], by decide⟩⟩,
    [("k\\", "\u0001"), ("", "é")], .swap _ _ _⟩

theorem records_readBack_delicate :
    92 ∈ delicate.bytes ∧ (32 : UInt8) ≤ 92 ∧ decode delicate.bytes = .ok delicate.message ∧
      Blank [32, 10] ∧
        decodeAll (inRow [([], delicate), ([32, 10], delicate), ([], .sorted .empty)] ++ [13, 9]) =
          ([delicate.message, delicate.message, .empty], none) := by
  have hmem : 92 ∈ delicate.bytes := by decide
  have hgaps : ∀ x ∈ [([], delicate), ([32, 10], delicate), ([], .sorted .empty)], Blank x.1 := by
    simp only [List.forall_mem_cons]
    exact ⟨by decide, by decide, by decide, by simp⟩
  obtain ⟨hclear, hread⟩ := records_readBack.1 delicate
  exact ⟨hmem, hclear 92 hmem, hread, by decide, records_readBack.2 _ _ hgaps (by decide)⟩

end PubSub.Record
