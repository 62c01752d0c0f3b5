import PubSub.Proofs.Files.OneName

/-!
# What a path holds

A path holds the content of the regular file that it leads to, and nothing as long as it leads
nowhere. A file that is made for another path, or for this one, changes nothing about that
(`HoldsAt.makes`).
-/

namespace PubSub.Files

variable {f f' : Files} {p q : Bytes} {c c' : Bytes} {n m d : Nat}
  {es : List (Bytes × Nat)} {name : Bytes} {trail t up : List Nat} {names : List Bytes}

/-! ## Where paths lead -/

/-- Paths lead through the entries of folders, and nothing else matters to them. -/
theorem locate_congr (hhome : f'.home = f.home) (he : ∀ m, f'.entries? m = f.entries? m)
    (p : Bytes) : f'.locate p = f.locate p := by
  have henter : f'.enter = f.enter := by
    funext trail name
    cases trail with
    | nil => rfl
    | cons folder up => rw [enter, enter, he]
  have hfolder : f'.isFolder = f.isFolder := by
    funext m
    rw [isFolder, isFolder, he]
  rw [locate, locate, follow, follow, walk, walk, origin, origin, henter, hfolder, hhome]

theorem locate_touches (h : Touches n f f') (p : Bytes) : f'.locate p = f.locate p :=
  locate_congr h.home h.entries p

/-- A path leads to a node over its names; one that ends in a slash leads to a folder. -/
theorem locate_eq_ok_iff : f.locate p = .ok n ↔ checkPath p = .ok () ∧
    (∃ up, f.walk (f.origin p) (Path.names p) = .ok (n :: up)) ∧
      (Path.endsInSlash p = true → f.isFolder n = true) := by
  rw [locate, follow]
  cases checkPath p with
  | error e => simp [bind, Except.bind]
  | ok u =>
    cases f.walk (f.origin p) (Path.names p) with
    | error e => simp [bind, Except.bind]
    | ok trail =>
      cases trail with
      | nil => by_cases hs : Path.endsInSlash p = true <;> simp [bind, Except.bind, hs]
      | cons m up =>
        by_cases hs : Path.endsInSlash p = true
        · cases hm : f.isFolder m with
          | true =>
            simp only [bind, Except.bind, hs, List.head?_cons, Option.any_some, hm]
            simp
            rintro rfl
            exact hm
          | false =>
            simp only [bind, Except.bind, hs, List.head?_cons, Option.any_some, hm]
            simp
            rintro rfl
            exact hm
        · simp [bind, Except.bind, hs]

theorem Grows.isFolder (hg : Grows f f') (h : f.isFolder n = true) : f'.isFolder n = true := by
  obtain ⟨es, he⟩ := Option.isSome_iff_exists.1 h
  obtain ⟨more, hmore⟩ := hg.entries he
  rw [Files.isFolder, hmore]
  rfl

/-- A path that leads to a node leads to it also when folders have grown. -/
theorem locate_grows (hg : Grows f f') (h : f.locate p = .ok n) : f'.locate p = .ok n := by
  obtain ⟨hcheck, ⟨up, hwalk⟩, hfolder⟩ := locate_eq_ok_iff.1 h
  refine locate_eq_ok_iff.2 ⟨hcheck, ⟨up, ?_⟩, fun hs => hg.isFolder (hfolder hs)⟩
  rw [origin_grows hg]
  exact walk_grows hg hwalk

/-! ## Making files -/

theorem entries?_addFile (hd : f.entries? d = some es) (m : Nat) :
    (f.addNode d es name (.file [])).entries? m =
      if m = d then some (es ++ [(name, f.nodes.length)]) else f.entries? m := by
  have hlt := node?_lt (entries?_eq_some.1 hd)
  rw [entries?, node?_addNode hlt]
  by_cases hm : m = d
  · rw [if_pos hm, if_pos hm]
  · rw [if_neg hm, if_neg hm]
    by_cases hnew : m = f.nodes.length
    · have hnone : f.node? m = none := List.getElem?_eq_none (Nat.le_of_eq hnew.symm)
      rw [if_pos hnew, entries?, hnone]
    · rw [if_neg hnew, entries?]

/-- One name further after a file was made: as before, or to the new file. -/
theorem enter_addFile (hd : f.entries? d = some es)
    (h : (f.addNode d es name (.file [])).enter trail q = .ok t) :
    f.enter trail q = .ok t ∨ t = f.nodes.length :: trail := by
  cases trail with
  | nil => cases h
  | cons folder up =>
    rw [enter, entries?_addFile hd] at h
    by_cases hfolder : folder = d
    · subst hfolder
      rw [if_pos rfl] at h
      rw [enter, hd]
      simp only at h ⊢
      by_cases hhere : q = Path.here
      · rw [if_pos hhere] at h ⊢
        exact .inl h
      by_cases habove : q = Path.above
      · rw [if_neg hhere, if_pos habove] at h ⊢
        exact .inl h
      by_cases hlong : longestName < q.length
      · rw [if_neg hhere, if_neg habove, if_pos hlong] at h
        cases h
      rw [if_neg hhere, if_neg habove, if_neg hlong] at h ⊢
      split at h
      · cases h
      · next n hn =>
        cases h
        rcases lookup_snoc.1 hn with hold | ⟨-, -, rfl⟩
        · rw [hold]
          exact .inl rfl
        · exact .inr rfl
    · rw [if_neg hfolder] at h
      exact .inl h

/-- The new file leads nowhere further. -/
theorem walk_addFile (hd : f.entries? d = some es)
    (h : (f.addNode d es name (.file [])).walk trail names = .ok t) :
    f.walk trail names = .ok t ∨ t.head? = some f.nodes.length := by
  induction names generalizing trail with
  | nil => exact .inl h
  | cons q names ih =>
    rw [walk, List.foldlM_cons] at h ⊢
    cases henter : (f.addNode d es name (.file [])).enter trail q with
    | error e =>
      rw [henter] at h
      cases h
    | ok t' =>
      rw [henter] at h
      rcases enter_addFile hd henter with hold | rfl
      · rw [hold]
        exact ih h
      · cases names with
        | nil =>
          cases h
          exact .inr rfl
        | cons q' names =>
          have hfile : (f.addNode d es name (.file [])).entries? f.nodes.length = none := by
            have hlt := node?_lt (entries?_eq_some.1 hd)
            rw [entries?_addFile hd, if_neg (Nat.ne_of_gt hlt), entries?,
              node?, List.getElem?_eq_none (Nat.le_refl _)]
          change (f.addNode d es name (.file [])).walk (f.nodes.length :: trail) (q' :: names) = _
            at h
          rw [walk, List.foldlM_cons, enter, hfile] at h
          cases h

/-- A path leads on to where it led, or to the new file. -/
theorem locate_addFile (hd : f.entries? d = some es)
    (h : (f.addNode d es name (.file [])).locate p = .ok n) :
    f.locate p = .ok n ∨ n = f.nodes.length := by
  obtain ⟨hcheck, ⟨up, hwalk⟩, hfolder⟩ := locate_eq_ok_iff.1 h
  rcases walk_addFile hd hwalk with hold | hnew
  · refine .inl (locate_eq_ok_iff.2 ⟨hcheck, ⟨up, hold⟩, fun hs => ?_⟩)
    have hgrown := hfolder hs
    rw [isFolder, entries?_addFile hd] at hgrown
    split at hgrown
    · next hnd => rw [isFolder, hnd, hd]; rfl
    · exact hgrown
  · exact .inr (Option.some.inj hnew)

/-! ## Contents -/

/-- The path leads to a regular file with this content, or nowhere, and the content is empty. -/
def HoldsAt (f : Files) (path c : Bytes) : Prop :=
  match f.locate path with
  | .ok n => f.node? n = some (.file c)
  | .error _ => c = []

/-- Two paths lead to one node. -/
def sameNode (f : Files) (p q : Bytes) : Bool :=
  match f.locate p, f.locate q with
  | .ok n, .ok m => n == m
  | _, _ => false

theorem sameNode_iff (hp : f.locate p = .ok n) : f.sameNode p q = true ↔ f.locate q = .ok n := by
  rw [sameNode, hp]
  cases f.locate q with
  | error e => simp
  | ok m =>
    simp only [beq_iff_eq, Except.ok.injEq]
    exact eq_comm

theorem holdsAt_file (hp : f.locate p = .ok n) : f.HoldsAt p c ↔ f.node? n = some (.file c) := by
  rw [HoldsAt, hp]

theorem HoldsAt.makes (h : f.HoldsAt p c) (hm : Makes f f') : f'.HoldsAt p c := by
  cases hp : f.locate p with
  | ok n =>
    rw [holdsAt_file (locate_grows hm.grows hp)]
    exact hm.file_kept ((holdsAt_file hp).1 h)
  | error e =>
    have hc : c = [] := by
      rw [HoldsAt, hp] at h
      exact h
    subst hc
    cases hm with
    | nothing => exact h
    | @file d es name hd hfree =>
      rw [HoldsAt]
      split
      · next n hn =>
        rcases locate_addFile hd hn with hold | rfl
        · rw [hp] at hold
          cases hold
        · have hlt := node?_lt (entries?_eq_some.1 hd)
          rw [node?_addNode hlt, if_neg (Nat.ne_of_gt hlt), if_pos rfl]
      · rfl

/-- Where the content of a file has changed, a path that leads to the file holds the new content. -/
theorem holdsAt_rewritten (hn : f.node? n = some (.file c)) (hp : f.locate p = .ok n) (c' : Bytes) :
    (f.setNode n (.file c')).HoldsAt p c' := by
  have htouches := touches_setNode hn c'
  rw [holdsAt_file ((locate_touches htouches p).trans hp), node?_setNode (node?_lt hn), if_pos rfl]

/-- A path that leads elsewhere holds what it held. -/
theorem HoldsAt.touches (h : f.HoldsAt p c) (ht : Touches n f f') (hp : f.locate p ≠ .ok n) :
    f'.HoldsAt p c := by
  cases hm : f.locate p with
  | ok m =>
    have hmn : m ≠ n := by
      rintro rfl
      exact hp hm
    rw [holdsAt_file ((locate_touches ht p).trans hm), ht.others m hmn]
    exact (holdsAt_file hm).1 h
  | error e =>
    rw [HoldsAt, hm] at h
    rw [HoldsAt, locate_touches ht p, hm]
    exact h

end PubSub.Files
