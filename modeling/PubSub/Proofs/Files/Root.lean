import PubSub.Proofs.Files.Tree

/-!
# A root folder

What a path under a root folder leads to depends on the entries of the folder only. Making the
folder again changes nothing.
-/

namespace PubSub

/-- The names of topics that are plain names of files, short enough for the root. -/
structure Plain (root : Bytes) (topic : String) : Prop where
  name : IsName (Utf8.ofText topic)
  short : (Path.join root (Utf8.ofText topic)).length ≤ Files.longestPath

namespace Files

/-- A path leads to the folder `d`, above which are the folders `up`. -/
structure LeadsTo (f : Files) (root : Bytes) (d : Nat) (up : List Nat) : Prop where
  noZero : (0 : UInt8) ∉ root
  short : root.length ≤ longestPath
  walk : f.walk (f.origin root) (Path.names root) = .ok (d :: up)

variable {f g : Files} {root b : Bytes} {d n : Nat} {up : List Nat} {es : List (Bytes × Nat)}

theorem LeadsTo.grows (h : LeadsTo f root d up) (hg : Grows f g) : LeadsTo g root d up :=
  ⟨h.noZero, h.short, by rw [origin_grows hg]; exact walk_grows hg h.walk⟩

theorem checkPath_ok {path : Bytes} (hz : (0 : UInt8) ∉ path) (hne : path ≠ [])
    (hs : path.length ≤ longestPath) : checkPath path = .ok () := by
  rw [checkPath]
  simp [hz, hne, Nat.not_lt.2 hs]

theorem of_checkPath {path : Bytes} (h : checkPath path = .ok ()) :
    (0 : UInt8) ∉ path ∧ path ≠ [] ∧ path.length ≤ longestPath := by
  rw [checkPath] at h
  split at h
  · cases h
  · next hz =>
    split at h
    · cases h
    · next hne =>
      split at h
      · cases h
      · next hs => exact ⟨by simpa using hz, hne, Nat.not_lt.1 hs⟩

theorem origin_join (f : Files) (root : Bytes) (hb : IsName b) :
    f.origin (Path.join root b) = f.origin root := by
  rw [origin, origin, Path.isAbsolute_join root hb]

/-! ## Names under the folder -/

theorem enter_name (hb : IsName b) (he : f.entries? d = some es) :
    f.enter (d :: up) b =
      match es.lookup b with
      | none => .error .notFound
      | some n => .ok (n :: d :: up) := by
  have fits := Nat.not_lt.2 hb.short
  cases found : es.lookup b with
  | none => simp only [enter, he, found, if_neg hb.notHere, if_neg hb.notAbove, if_neg fits]
  | some n => simp only [enter, he, found, if_neg hb.notHere, if_neg hb.notAbove, if_neg fits]

theorem walk_snoc (f : Files) (trail : List Nat) (names : List Bytes) (b : Bytes) :
    f.walk trail (names ++ [b]) = (f.walk trail names).bind (f.enter · b) := by
  rw [walk, List.foldlM_append, walk]
  cases List.foldlM f.enter trail names with
  | error e => rfl
  | ok t =>
    change List.foldlM f.enter t [b] = f.enter t b
    rw [List.foldlM_cons]
    cases f.enter t b <;> rfl

theorem follow_join (h : LeadsTo f root d up) (hb : IsName b)
    (hs : (Path.join root b).length ≤ longestPath) (he : f.entries? d = some es) :
    f.follow (Path.join root b) =
      match es.lookup b with
      | none => .error .notFound
      | some n => .ok (n :: d :: up) := by
  have hcheck := checkPath_ok (Path.zero_join hb h.noZero) (Path.join_ne_nil root hb) hs
  have hwalk : f.walk (f.origin (Path.join root b)) (Path.names (Path.join root b)) =
      f.enter (d :: up) b := by
    rw [origin_join f root hb, Path.names_join root hb.ne_nil hb.noSlash, walk_snoc, h.walk]
    rfl
  rw [follow, hcheck, hwalk, enter_name hb he, Path.endsInSlash_join root hb]
  cases es.lookup b with
  | none => rfl
  | some n => simp [bind, Except.bind]

theorem locate_join (h : LeadsTo f root d up) (hb : IsName b)
    (hs : (Path.join root b).length ≤ longestPath) (he : f.entries? d = some es) :
    f.locate (Path.join root b) =
      match es.lookup b with
      | none => .error .notFound
      | some n => .ok n := by
  rw [locate, follow_join h hb hs he]
  cases es.lookup b <;> rfl

theorem place?_join (h : LeadsTo f root d up) (hb : IsName b)
    (hs : (Path.join root b).length ≤ longestPath) (he : f.entries? d = some es) :
    f.place? (Path.join root b) = .ok (some ⟨d, es, b⟩) := by
  have hcheck := checkPath_ok (Path.zero_join hb h.noZero) (Path.join_ne_nil root hb) hs
  rw [place?, hcheck, origin_join f root hb, Path.names_join root hb.ne_nil hb.noSlash]
  simp only [List.dropLast_concat]
  rw [h.walk]
  simp only [bind, Except.bind, List.head?_cons, Option.bind_some, he, Option.map_some,
    List.getLast?_concat]
  rw [if_neg (by simp [hb.notHere, hb.notAbove]), if_neg (Nat.not_lt.2 hb.short)]

/-- Opening a file that is there changes nothing. -/
theorem openAppend_found (h : LeadsTo f root d up) (hb : IsName b)
    (hs : (Path.join root b).length ≤ longestPath) (he : f.entries? d = some es)
    (hn : es.lookup b = some n) (hf : f.isFolder n = false) :
    f.openAppend (Path.join root b) = (.ok n, f) := by
  rw [openAppend, place?_join h hb hs he]
  simp only [Path.endsInSlash_join root hb, hn, hf, Bool.false_eq_true, if_false]

/-- Opening a file that is not there makes it. -/
theorem openAppend_new (h : LeadsTo f root d up) (hb : IsName b)
    (hs : (Path.join root b).length ≤ longestPath) (he : f.entries? d = some es)
    (hn : es.lookup b = none) :
    f.openAppend (Path.join root b) = (.ok f.nodes.length, f.addNode d es b (.file [])) := by
  rw [openAppend, place?_join h hb hs he]
  simp only [Path.endsInSlash_join root hb, hn, Bool.false_eq_true, if_false]

/-! ## The folder itself -/

/-- The last name of a path that leads to a folder is taken. -/
theorem makeFolder_taken (h : LeadsTo f root d up) (hne : Path.names root ≠ []) :
    f.makeFolder root = (.error .alreadyExists, f) := by
  obtain ⟨names, b, hb⟩ : ∃ names b, Path.names root = names ++ [b] :=
    ⟨_, _, (List.dropLast_concat_getLast hne).symm⟩
  have hroot : root ≠ [] := by
    rintro rfl
    exact hne Path.names_nil
  have hwalk := h.walk
  rw [hb, walk_snoc] at hwalk
  cases ht : f.walk (f.origin root) names with
  | error e =>
    rw [ht] at hwalk
    cases hwalk
  | ok trail =>
    rw [ht] at hwalk
    change f.enter trail b = .ok (d :: up) at hwalk
    have hplace : f.place? root = .ok none ∨
        ∃ p, f.place? root = .ok (some p) ∧ (p.entries.lookup p.name).isSome := by
      rw [place?, checkPath_ok h.noZero hroot h.short, hb]
      simp only [bind, Except.bind, List.dropLast_concat, ht, List.getLast?_concat]
      cases trail with
      | nil => simp [enter] at hwalk
      | cons folder above =>
        cases he : f.entries? folder with
        | none => simp [enter, he] at hwalk
        | some ns =>
          simp only [List.head?_cons, Option.bind_some, he, Option.map_some]
          by_cases hdot : b = Path.here ∨ b = Path.above
          · exact .inl (by rw [if_pos hdot])
          · right
            rw [not_or] at hdot
            simp only [enter, he, hdot.1, hdot.2, if_false] at hwalk
            by_cases hlong : longestName < b.length
            · simp [hlong] at hwalk
            · refine ⟨⟨folder, ns, b⟩, ?_, ?_⟩
              · rw [if_neg (by simp [hdot.1, hdot.2]), if_neg hlong]
              · rw [if_neg hlong] at hwalk
                cases hlook : ns.lookup b with
                | none => simp [hlook] at hwalk
                | some m => rfl
    rw [makeFolder]
    rcases hplace with hp | ⟨p, hp, hsome⟩
    · rw [hp]
    · rw [hp]
      simp only [hsome, if_true]

theorem hasFolder_leadsTo (h : LeadsTo f root d up) (he : f.entries? d = some es)
    (hne : root ≠ []) : f.hasFolder root = true := by
  have hfolder : f.isFolder d = true := by rw [isFolder, he]; rfl
  have hlocate : f.locate root = .ok d := by
    rw [locate, follow, checkPath_ok h.noZero hne h.short, h.walk]
    simp [bind, Except.bind, hfolder]
  rw [hasFolder, hlocate]
  exact hfolder

/-- Making a folder that is there changes nothing. -/
theorem makeFolders_leadsTo (h : LeadsTo f root d up) (he : f.entries? d = some es) :
    f.makeFolders root = (.ok (), f) := by
  rw [makeFolders]
  cases hp : (Path.parts root).reverse with
  | nil =>
    rw [makeFoldersFrom]
    by_cases hr : root = []
    · rw [if_pos (.inr hr)]
    · rw [if_pos (.inl (hasFolder_leadsTo h he hr))]
  | cons part parts =>
    have hne : Path.names root ≠ [] := by
      intro hn
      rw [Path.parts, hn] at hp
      cases hp
    have hr : root ≠ [] := by
      rintro rfl
      exact hne Path.names_nil
    have hkind : SystemError.alreadyExists ≠ .notFound := by decide
    rw [makeFoldersFrom, makeFolder_taken h hne]
    simp [hkind, hasFolder_leadsTo h he hr]

end Files

end PubSub
