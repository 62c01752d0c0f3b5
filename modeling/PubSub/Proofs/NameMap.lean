import PubSub.NameMap

/-!
# Maps by name as sets of entries

A map is determined by its entries in any order, and by the values of its names. An insertion changes
the value of its own name only.
-/

namespace PubSub.NameMap

variable {α : Type}

theorem insertEntry_perm {name : String} (value : α) {es : List (String × α)}
    (h : ∀ e ∈ es, e.1 ≠ name) : (insertEntry name value es).Perm ((name, value) :: es) := by
  induction es with
  | nil => exact .refl _
  | cons e es ih =>
    have hne : name ≠ e.1 := (h e List.mem_cons_self).symm
    have hi := ih fun x hx => h x (List.mem_cons_of_mem _ hx)
    unfold insertEntry
    split
    · exact .refl _
    · exact (hi.cons e).trans (.swap _ _ _)

theorem foldl_insert_perm (es : List (String × α)) (m : NameMap α)
    (h : (es.map (·.1) ++ m.entries.map (·.1)).Nodup) :
    (es.foldl (fun m e => m.insert e.1 e.2) m).entries.Perm (es ++ m.entries) := by
  induction es generalizing m with
  | nil => exact .refl _
  | cons e es ih =>
    rw [List.map_cons, List.cons_append, List.nodup_cons] at h
    obtain ⟨hnew, hrest⟩ := h
    have hi : (m.insert e.1 e.2).entries.Perm (e :: m.entries) := by
      refine insertEntry_perm e.2 fun x hx hxe => hnew ?_
      exact List.mem_append_right _ (hxe ▸ List.mem_map_of_mem hx)
    have hnodup : (es.map (·.1) ++ (m.insert e.1 e.2).entries.map (·.1)).Nodup := by
      have hp : (es.map (·.1) ++ (m.insert e.1 e.2).entries.map (·.1)).Perm
          (e.1 :: (es.map (·.1) ++ m.entries.map (·.1))) :=
        ((hi.map _).append_left _).trans List.perm_middle
      exact hp.nodup_iff.2 (List.nodup_cons.2 ⟨hnew, hrest⟩)
    exact (ih _ hnodup).trans ((hi.append_left es).trans List.perm_middle)

theorem nodup_names (m : NameMap α) : (m.entries.map (·.1)).Nodup := by
  refine (List.pairwise_map.2 m.sorted).imp fun hlt heq => ?_
  rw [heq] at hlt
  exact String.lt_irrefl _ hlt

/-- The entries of a map make it up again, whatever their order. -/
theorem ofList_perm {m : NameMap α} {es : List (String × α)} (h : es.Perm m.entries) :
    ofList es = m := by
  have hn : (es.map (·.1) ++ (empty : NameMap α).entries.map (·.1)).Nodup := by
    rw [empty, List.map_nil, List.append_nil]
    exact (h.map _).nodup_iff.2 m.nodup_names
  have hp : (ofList es).entries.Perm m.entries := by
    have := foldl_insert_perm es empty hn
    rw [empty, List.append_nil] at this
    exact this.trans h
  have he : (ofList es).entries = m.entries :=
    hp.eq_of_pairwise (fun a b _ _ hab hba => absurd hba (String.lt_asymm hab))
      (ofList es).sorted m.sorted
  cases hm : ofList es
  cases m
  simp_all

theorem lookup_pair (name other : String) (value : α) (es : List (String × α)) :
    ((name, value) :: es).lookup other = if other = name then some value else es.lookup other := by
  by_cases h : other = name
  · rw [if_pos h, List.lookup_cons, beq_iff_eq.2 h]
  · rw [if_neg h, List.lookup_cons, beq_eq_false_iff_ne.2 h]

theorem lookup_insertEntry (name other : String) (value : α) (es : List (String × α)) :
    (insertEntry name value es).lookup other =
      if other = name then some value else es.lookup other := by
  induction es with
  | nil => exact lookup_pair name other value []
  | cons e es ih =>
    obtain ⟨n, v⟩ := e
    unfold insertEntry
    split
    · exact lookup_pair name other value _
    · split
      · next heq =>
        subst heq
        rw [lookup_pair, lookup_pair]
        split <;> rfl
      · next hne =>
        rw [lookup_pair, lookup_pair, ih]
        by_cases h : other = n
        · rw [if_pos h, if_pos h, if_neg fun hn => hne (hn.symm.trans h)]
        · rw [if_neg h, if_neg h]

@[simp]
theorem get?_insert (m : NameMap α) (name other : String) (value : α) :
    (m.insert name value).get? other = if other = name then some value else m.get? other :=
  lookup_insertEntry name other value m.entries

@[simp]
theorem get?_empty (name : String) : (empty : NameMap α).get? name = none := rfl

theorem get?_eq_some_iff {m : NameMap α} {name : String} {value : α} :
    m.get? name = some value ↔ (name, value) ∈ m.entries := by
  constructor
  · intro h
    obtain ⟨l, l', hl, -⟩ := List.lookup_eq_some_iff.1 h
    rw [hl]
    simp
  · intro h
    obtain ⟨l, l', hl⟩ := List.append_of_mem h
    refine List.lookup_eq_some_iff.2 ⟨l, l', hl, fun p hp => ?_⟩
    have hsorted := m.sorted
    rw [hl, List.pairwise_append] at hsorted
    have hlt : p.1 < name := hsorted.2.2 p hp (name, value) List.mem_cons_self
    have hne : name ≠ p.1 := by
      rintro rfl
      exact String.lt_irrefl _ hlt
    simpa using hne

theorem get?_eq_none_iff {m : NameMap α} {name : String} :
    m.get? name = none ↔ ∀ e ∈ m.entries, e.1 ≠ name := by
  rw [get?, List.lookup_eq_none_iff]
  exact forall₂_congr fun e he => bne_iff_ne.trans ne_comm

theorem names_increasing (m : NameMap α) : m.names.Pairwise (· < ·) := List.pairwise_map.2 m.sorted

/-- A map is determined by the values of the names. -/
theorem ext_get? {m m' : NameMap α} (h : ∀ name, m.get? name = m'.get? name) : m = m' := by
  have hmem : ∀ e, e ∈ m.entries ↔ e ∈ m'.entries := by
    intro e
    rw [← get?_eq_some_iff, h, get?_eq_some_iff]
  have hnodup : ∀ m : NameMap α, m.entries.Nodup := by
    intro m
    exact List.Pairwise.of_map _ (fun a b hne hab => hne (congrArg Prod.fst hab)) m.nodup_names
  have hp : m.entries.Perm m'.entries :=
    (List.perm_ext_iff_of_nodup (hnodup m) (hnodup m')).2 hmem
  rw [← ofList_perm hp]
  exact (ofList_perm (.refl _)).symm

/-- Of the values that a list has for a name the last one counts. -/
theorem get?_foldl_insert (es : List (String × α)) (m : NameMap α) (name : String) :
    (es.foldl (fun m e => m.insert e.1 e.2) m).get? name =
      (es.reverse.lookup name).or (m.get? name) := by
  induction es generalizing m with
  | nil => rfl
  | cons e es ih =>
    rw [List.foldl_cons, ih, get?_insert, List.reverse_cons, List.lookup_append, Option.or_assoc]
    congr 1
    rw [lookup_pair]
    split <;> rfl

theorem get?_ofList (es : List (String × α)) (name : String) :
    (ofList es).get? name = es.reverse.lookup name := by
  rw [ofList, get?_foldl_insert, get?_empty, Option.or_none]

end PubSub.NameMap
