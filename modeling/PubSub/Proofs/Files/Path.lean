import PubSub.Files.Basic

/-!
# Names in paths

The path of a plain name under a folder leads through the names of the folder and ends with the
plain name.
-/

namespace PubSub

/-- A single name of a file: not empty, not too long, neither a folder's own name nor the one above
it, and without slashes and zeros. -/
structure IsName (b : Bytes) : Prop where
  ne_nil : b ≠ []
  noSlash : Path.slash ∉ b
  noZero : (0 : UInt8) ∉ b
  notHere : b ≠ Path.here
  notAbove : b ≠ Path.above
  short : b.length ≤ Files.longestName

namespace Path

theorem names_nil : names [] = [] := by
  simp [names]

theorem names_of_noSlash {b : Bytes} (hne : b ≠ []) (h : slash ∉ b) : names b = [b] := by
  rw [names, List.splitOn_eq_singleton h]
  simp [hne]

theorem names_append_slash (a b : Bytes) : names (a ++ slash :: b) = names a ++ names b := by
  rw [names, names, names, List.splitOn_append_cons_self, List.filter_append]

theorem isAbsolute_of_noSlash {b : Bytes} (h : slash ∉ b) : isAbsolute b = false := by
  cases b with
  | nil => rfl
  | cons c b =>
    have hc : c ≠ slash := by
      intro hc
      exact h (hc ▸ List.mem_cons_self)
    simp [isAbsolute, hc]

/-- The three ways in which a name is put under a folder. -/
theorem join_cases (root : Bytes) {b : Bytes} (h : slash ∉ b) :
    (root = [] ∧ join root b = b) ∨
      (∃ r, root = r ++ [slash] ∧ join root b = r ++ slash :: b) ∨
      (root ≠ [] ∧ join root b = root ++ slash :: b) := by
  rw [join, isAbsolute_of_noSlash h]
  simp only [Bool.false_eq_true, if_false]
  by_cases hr : root = []
  · exact .inl ⟨hr, by simp [hr]⟩
  · by_cases hs : endsInSlash root = true
    · obtain ⟨r, hroot⟩ : ∃ r, root = r ++ [slash] := by
        rw [endsInSlash, decide_eq_true_eq] at hs
        exact List.getLast?_eq_some_iff.1 hs
      refine .inr (.inl ⟨r, hroot, ?_⟩)
      rw [if_pos (.inr hs), hroot, List.append_assoc, List.singleton_append]
    · exact .inr (.inr ⟨hr, by simp [hr, hs]⟩)

/-- Both parts of a joined path are found in it. -/
theorem join_eq (root : Bytes) {b : Bytes} (h : slash ∉ b) :
    ∃ between, join root b = root ++ between ++ b := by
  rcases join_cases root h with ⟨rfl, hj⟩ | ⟨r, rfl, hj⟩ | ⟨-, hj⟩
  · exact ⟨[], hj⟩
  · exact ⟨[], by simp [hj]⟩
  · exact ⟨[slash], by simp [hj]⟩

theorem names_join (root : Bytes) {b : Bytes} (hne : b ≠ []) (h : slash ∉ b) :
    names (join root b) = names root ++ [b] := by
  have hb := names_of_noSlash hne h
  rcases join_cases root h with ⟨rfl, hj⟩ | ⟨r, rfl, hj⟩ | ⟨-, hj⟩
  · rw [hj, hb, names_nil, List.nil_append]
  · rw [hj, names_append_slash, names_append_slash, hb, names_nil, List.append_nil]
  · rw [hj, names_append_slash, hb]

theorem isAbsolute_append (a b : Bytes) (h : a ≠ []) : isAbsolute (a ++ b) = isAbsolute a := by
  cases a with
  | nil => exact absurd rfl h
  | cons c a => rfl

theorem isAbsolute_join (root : Bytes) {b : Bytes} (h : IsName b) :
    isAbsolute (join root b) = isAbsolute root := by
  rcases join_cases root h.noSlash with ⟨rfl, hj⟩ | ⟨r, rfl, hj⟩ | ⟨hr, hj⟩
  · rw [hj, isAbsolute_of_noSlash h.noSlash]
    rfl
  · have hs : r ++ slash :: b = (r ++ [slash]) ++ b := by simp
    rw [hj, hs, isAbsolute_append _ _ (by simp)]
  · rw [hj, isAbsolute_append _ _ hr]

theorem endsInSlash_join (root : Bytes) {b : Bytes} (h : IsName b) :
    endsInSlash (join root b) = false := by
  have hlast : b.getLast h.ne_nil ≠ slash := by
    intro hs
    exact h.noSlash (hs ▸ List.getLast_mem h.ne_nil)
  have hgo : ∀ a : Bytes, endsInSlash (a ++ b) = false := by
    intro a
    rw [endsInSlash, List.getLast?_append, List.getLast?_eq_some_getLast h.ne_nil]
    simp [hlast]
  have hcons : ∀ a : Bytes, a ++ slash :: b = (a ++ [slash]) ++ b := by
    intro a
    simp
  rcases join_cases root h.noSlash with ⟨-, hj⟩ | ⟨r, -, hj⟩ | ⟨-, hj⟩
  · rw [hj]
    exact hgo []
  · rw [hj, hcons]
    exact hgo _
  · rw [hj, hcons]
    exact hgo _

theorem join_ne_nil (root : Bytes) {b : Bytes} (h : IsName b) : join root b ≠ [] := by
  rcases join_cases root h.noSlash with ⟨-, hj⟩ | ⟨r, -, hj⟩ | ⟨-, hj⟩
  · rw [hj]
    exact h.ne_nil
  · simp [hj]
  · simp [hj]

theorem zero_join {root b : Bytes} (h : IsName b) (hr : (0 : UInt8) ∉ root) :
    (0 : UInt8) ∉ join root b := by
  have hs : (0 : UInt8) ≠ slash := by decide
  rcases join_cases root h.noSlash with ⟨-, hj⟩ | ⟨r, rfl, hj⟩ | ⟨-, hj⟩
  · rw [hj]
    exact h.noZero
  · have hr' : (0 : UInt8) ∉ r := fun hm => hr (List.mem_append_left _ hm)
    simp [hj, hr', hs, h.noZero]
  · simp [hj, hr, hs, h.noZero]

end Path

end PubSub
