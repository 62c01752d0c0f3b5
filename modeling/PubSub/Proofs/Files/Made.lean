import PubSub.Proofs.Files.OneName

/-!
# Folders that are made

Making a folder leaves what is there as it is, or nothing stood where the path leads
(`makeFolders_ok`). A root that starts empty is an empty folder as soon as it is made.
-/

namespace PubSub.Files

variable {f f' : Files} {root path name : Bytes} {d n : Nat} {up : List Nat}
  {es : List (Bytes × Nat)}

/-- The folder of a path is empty. If it is missing, it is so once it is made. -/
def StartsEmpty (f : Files) (root : Bytes) : Prop :=
  ∃ f' d up, f.makeFolders root = (.ok (), f') ∧ LeadsTo f' root d up ∧ f'.entries? d = some []

/-! ## Making one folder -/

theorem HasPlace.walk_free (h : HasPlace f path d up es name) (hfree : es.lookup name = none) :
    f.walk (f.origin path) (Path.names path) = .error .notFound := by
  obtain ⟨names, hnames⟩ := List.getLast?_eq_some_iff.1 h.last
  have hwalk := h.walk
  rw [hnames, List.dropLast_concat] at hwalk
  rw [hnames, walk_snoc, hwalk]
  change f.enter (d :: up) name = _
  simp only [enter, h.entries, hfree, if_neg h.notHere, if_neg h.notAbove,
    if_neg (Nat.not_lt.2 h.short)]

theorem HasPlace.place? (h : HasPlace f path d up es name) :
    f.place? path = .ok (some ⟨d, es, name⟩) := by
  rw [Files.place?, h.check]
  simp only [bind, Except.bind, h.walk, List.head?_cons, Option.bind_some, h.entries,
    Option.map_some, h.last]
  rw [if_neg (not_or.2 ⟨h.notHere, h.notAbove⟩), if_neg (Nat.not_lt.2 h.short)]

/-- A folder is made under a free name. -/
theorem HasPlace.makeFolder (h : HasPlace f path d up es name) (hfree : es.lookup name = none) :
    f.makeFolder path = (.ok (), f.addNode d es name (.folder [])) := by
  rw [Files.makeFolder, h.place?]
  simp only [hfree, Option.isSome_none, Bool.false_eq_true, if_false]

theorem makeFolder_ok (h : f.makeFolder path = (.ok (), f')) :
    ∃ d up es name, HasPlace f path d up es name ∧ es.lookup name = none ∧
      f' = f.addNode d es name (.folder []) := by
  rw [makeFolder] at h
  split at h
  · cases h
  · cases h
  · next p hp =>
    obtain ⟨up, hplace⟩ := hasPlace_of_place? hp
    split at h
    · cases h
    · next hfree =>
      cases h
      exact ⟨_, up, _, _, hplace, Option.not_isSome_iff_eq_none.1 hfree, rfl⟩

theorem makeFolder_error {e : SystemError} (h : f.makeFolder path = (.error e, f')) : f' = f := by
  rw [makeFolder] at h
  split at h
  · cases h
    rfl
  · cases h
    rfl
  · split at h
    · cases h
      rfl
    · cases h

theorem walk_of_dropLast {trail : List Nat} {names : List Bytes} {e : SystemError}
    (h : f.walk trail names.dropLast = .error e) : f.walk trail names = .error e := by
  cases hl : names.getLast? with
  | none =>
    rw [List.getLast?_eq_none_iff.1 hl] at h ⊢
    exact h
  | some name =>
    obtain ⟨before, hnames⟩ := List.getLast?_eq_some_iff.1 hl
    rw [hnames, List.dropLast_concat] at h
    rw [hnames, walk_snoc, h]
    rfl

theorem checkPath_notFound (h : checkPath path = .error .notFound) : path = [] := by
  rw [checkPath] at h
  split at h
  · cases h
  · split at h
    · assumption
    · split at h
      · cases h
      · cases h

theorem makeFolder_notFound (hne : path ≠ []) (h : f.makeFolder path = (.error .notFound, f')) :
    f.walk (f.origin path) (Path.names path) = .error .notFound := by
  have hplace : f.place? path = .error .notFound := by
    rw [makeFolder] at h
    split at h
    · next e he =>
      cases h
      exact he
    · cases h
    · split at h
      · cases h
      · cases h
  rw [place?] at hplace
  cases hcheck : checkPath path with
  | error e =>
    rw [hcheck] at hplace
    cases hplace
    exact absurd (checkPath_notFound hcheck) hne
  | ok u =>
    rw [hcheck] at hplace
    cases hwalk : f.walk (f.origin path) (Path.names path).dropLast with
    | error e =>
      simp only [bind, Except.bind, hwalk] at hplace
      cases hplace
      exact walk_of_dropLast hwalk
    | ok trail =>
      -- behind the last folder nothing is missed
      simp only [bind, Except.bind, hwalk] at hplace
      split at hplace
      · cases hplace
      · split at hplace
        · cases hplace
        · split at hplace
          · cases hplace
          · split at hplace
            · cases hplace
            · cases hplace

/-! ## Making all folders -/

/-- Making folders leaves all as it is, or nothing stood at the path. -/
theorem makeFolders_ok (h : f.makeFolders root = (.ok (), f')) :
    f' = f ∨ f.walk (f.origin root) (Path.names root) = .error .notFound := by
  rw [makeFolders] at h
  cases hp : (Path.parts root).reverse with
  | nil =>
    rw [hp, makeFoldersFrom] at h
    split at h
    · cases h
      exact .inl rfl
    · obtain ⟨d, up, es, name, hplace, hfree, -⟩ := makeFolder_ok h
      exact .inr (hplace.walk_free hfree)
  | cons part parts =>
    have hne : root ≠ [] := by
      rintro rfl
      simp [Path.parts, Path.names_nil] at hp
    rw [hp, makeFoldersFrom] at h
    cases hfirst : f.makeFolder root with
    | mk r f₁ =>
      cases r with
      | ok u =>
        obtain ⟨d, up, es, name, hplace, hfree, -⟩ := makeFolder_ok hfirst
        exact .inr (hplace.walk_free hfree)
      | error e =>
        obtain rfl := makeFolder_error hfirst
        rw [hfirst] at h
        by_cases he : e = .notFound
        · subst he
          exact .inr (makeFolder_notFound hne hfirst)
        · simp only [he, if_false] at h
          split at h
          · cases h
            exact .inl rfl
          · cases h

/-- A folder is made with all above it under a free name. -/
theorem HasPlace.makeFolders (h : HasPlace f path d up es name) (hfree : es.lookup name = none) :
    f.makeFolders path = (.ok (), f.addNode d es name (.folder [])) := by
  rw [Files.makeFolders]
  cases (Path.parts path).reverse with
  | nil =>
    have hfolder : f.hasFolder path = false := by
      rw [hasFolder, locate, follow, h.check, h.walk_free hfree]
      rfl
    have hne : path ≠ [] := (of_checkPath h.check).2.1
    rw [makeFoldersFrom, hfolder, if_neg (by simp [hne])]
    exact h.makeFolder hfree
  | cons part parts => rw [makeFoldersFrom, h.makeFolder hfree]

/-- Below a folder that is missing there is nothing. -/
theorem locate_join_missing (hzero : (0 : UInt8) ∉ root) {topic : String} (ht : Plain root topic)
    (h : f.walk (f.origin root) (Path.names root) = .error .notFound) :
    f.locate (Path.join root (Utf8.ofText topic)) = .error .notFound := by
  have hcheck := checkPath_ok (Path.zero_join ht.name hzero) (Path.join_ne_nil root ht.name) ht.short
  rw [locate, follow, hcheck, origin_join f root ht.name,
    Path.names_join root ht.name.ne_nil ht.name.noSlash, walk_snoc, h]
  rfl

/-! ## Roots that start empty -/

/-- A free name in a folder starts empty. -/
theorem startsEmpty_of_free (h : HasPlace f root d up es name) (hfree : es.lookup name = none) :
    f.StartsEmpty root := by
  obtain ⟨hzero, -, hshort⟩ := of_checkPath h.check
  have hgrows := grows_addNode name (.folder []) h.entries
  have hlt := node?_lt (entries?_eq_some.1 h.entries)
  obtain ⟨names, hnames⟩ := List.getLast?_eq_some_iff.1 h.last
  have hwalk := h.walk
  rw [hnames, List.dropLast_concat] at hwalk
  have hentries : (f.addNode d es name (.folder [])).entries? d =
      some (es ++ [(name, f.nodes.length)]) :=
    entries?_eq_some.2 (by rw [node?_addNode hlt, if_pos rfl])
  have hnew : (f.addNode d es name (.folder [])).entries? f.nodes.length = some [] :=
    entries?_eq_some.2 (by rw [node?_addNode hlt, if_neg (Nat.ne_of_gt hlt), if_pos rfl])
  refine ⟨f.addNode d es name (.folder []), f.nodes.length, d :: up, h.makeFolders hfree,
    ⟨hzero, hshort, ?_⟩, hnew⟩
  rw [origin_grows hgrows, hnames, walk_snoc, walk_grows hgrows hwalk]
  change Files.enter _ (d :: up) name = _
  simp only [enter, hentries, if_neg h.notHere, if_neg h.notAbove, if_neg (Nat.not_lt.2 h.short)]
  rw [List.lookup_append, hfree]
  simp

end PubSub.Files
