import PubSub.Proofs.Files.OneName

/-!
# Open nodes

What stays true of a node and of its name while it is open, whatever is appended to it, cut off it
or made beside it.
-/

namespace PubSub.Files

variable {f f' : Files} {n : Nat} {c path : Bytes}

/-- The path ends with a name of the node. -/
def Names (f : Files) (path : Bytes) (n : Nat) : Prop := ∃ d up name, EntryAt f path d up name n

theorem Names.grows (h : Names f path n) (hg : Grows f f') : Names f' path n := by
  obtain ⟨d, up, name, entry⟩ := h
  exact ⟨d, up, name, entry.grows hg⟩

theorem Names.locate (h : Names f path n) : f.locate path = .ok n := by
  obtain ⟨d, up, name, entry⟩ := h
  exact entry.locate

theorem Names.node (h : Names f path n) (hf : OneName f) : ∃ x, f.node? n = some x := by
  obtain ⟨d, up, name, entry⟩ := h
  obtain ⟨es, place, found⟩ := entry.place
  exact hf.inside place.entries found

theorem Names.unique {n' : Nat} (h : Names f path n) (h' : Names f path n') : n = n' := by
  have found := h.locate
  rw [h'.locate] at found
  exact (Except.ok.inj found).symm

/-- What takes bytes is a file, or the device that forgets them. -/
theorem append_ok {bytes : Bytes} (h : f.append n bytes = (.ok (), f')) :
    f.node? n = some .null ∧ f' = f ∨
      ∃ c, f.node? n = some (.file c) ∧ f'.node? n = some (.file (c ++ bytes)) := by
  rw [append] at h
  split at h
  · next c hc =>
    split at h
    · cases h
      exact .inr ⟨c, hc, by rw [node?_setNode (node?_lt hc), if_pos rfl]⟩
    · cases h
  · next hnull =>
    cases h
    exact .inl ⟨hnull, rfl⟩
  · cases h
  · cases h

/-- Whether or not a write succeeds, it takes nothing away. -/
theorem append_file (hn : f.node? n = some (.file c)) (bytes : Bytes) :
    ∃ more, (f.append n bytes).2.node? n = some (.file (c ++ more)) := by
  have hset := fun c' => node?_setNode (m := n) (x := .file c') (node?_lt hn)
  rw [append, hn]
  simp only
  split
  · exact ⟨bytes, by rw [hset, if_pos rfl]⟩
  · next k e _ => exact ⟨bytes.take k, by rw [hset, if_pos rfl]⟩

theorem cut_file (hn : f.node? n = some (.file c)) (length : Nat) :
    ∃ zeros, (f.cut n length).2.node? n = some (.file (c.take length ++ zeros)) := by
  refine ⟨List.replicate (length - c.length) 0, ?_⟩
  rw [cut, hn]
  simp only
  rw [node?_setNode (node?_lt hn), if_pos rfl]

theorem Makes.null_kept (h : Makes f f') (hn : f.node? n = some .null) :
    f'.node? n = some .null := by
  cases h with
  | nothing => exact hn
  | @file d es name hd hfree =>
    have hfolder := entries?_eq_some.1 hd
    have hnd : n ≠ d := by
      rintro rfl
      rw [hfolder] at hn
      cases hn
    rw [node?_addNode (node?_lt hfolder), if_neg hnd, if_neg (Nat.ne_of_lt (node?_lt hn))]
    exact hn

theorem Touches.null_kept {m : Nat} (h : Touches m f f') (hn : f.node? n = some .null) :
    f'.node? n = some .null := by
  by_cases hnm : n = m
  · subst hnm
    rcases h.itself with same | ⟨c, c', hc, -⟩
    · exact same.trans hn
    · rw [hn] at hc
      cases hc
  · exact (h.others n hnm).trans hn

/-- What is a file was one before, or was not there. -/
theorem Makes.file_back {x : Node} (h : Makes f f') (hn : f.node? n = some x)
    (hc : f'.node? n = some (.file c)) : f.node? n = some (.file c) := by
  cases h with
  | nothing => exact hc
  | @file d es name hd hfree =>
    rw [node?_addNode (node?_lt (entries?_eq_some.1 hd))] at hc
    split at hc
    · cases hc
    · rw [if_neg (Nat.ne_of_lt (node?_lt hn))] at hc
      exact hc

theorem Touches.file_back {m : Nat} (h : Touches m f f') (hc : f'.node? n = some (.file c)) :
    ∃ c, f.node? n = some (.file c) := by
  by_cases hnm : n = m
  · subst hnm
    rcases h.itself with same | ⟨c, -, hc, -⟩
    · exact ⟨_, same ▸ hc⟩
    · exact ⟨c, hc⟩
  · exact ⟨c, (h.others n hnm) ▸ hc⟩

theorem Makes.brake (h : Makes f f') : f'.brake = f.brake := by
  cases h <;> rfl

theorem append_brake (f : Files) (n : Nat) (bytes : Bytes) :
    (f.append n bytes).2.brake = f.brake := by
  rw [append]
  split
  · split <;> rfl
  · rfl
  · rfl
  · rfl

theorem cut_brake (f : Files) (n length : Nat) : (f.cut n length).2.brake = f.brake := by
  rw [cut]
  split <;> rfl

end PubSub.Files
