import PubSub.Proofs.Files.Root

/-!
# Names of their own

No name leads to the node of another one (`OneName`), and this stays so when folders are made, files
are opened and something is written to them. So two paths that end with different names, or lead
through different folders, lead to different nodes, and what is written to the one is not seen in
the other.
-/

namespace PubSub.Files

/-- Every name leads to a node, and no two names lead to the same one. -/
structure OneName (f : Files) : Prop where
  inside : ∀ {d n : Nat} {es : List (Bytes × Nat)} {name : Bytes}, f.entries? d = some es →
    es.lookup name = some n → ∃ x, f.node? n = some x
  apart : ∀ {d d' n : Nat} {es es' : List (Bytes × Nat)} {name name' : Bytes},
    f.entries? d = some es → f.entries? d' = some es' → es.lookup name = some n →
    es'.lookup name' = some n → d = d' ∧ name = name'

variable {f f' f'' : Files} {d m n : Nat} {es : List (Bytes × Nat)} {name path : Bytes} {x : Node}

/-! ## New nodes -/

/-- A file, a device or an empty folder. -/
def Node.Fresh : Node → Prop
  | .folder es => es = []
  | _ => True

theorem lookup_snoc {name' : Bytes} :
    (es ++ [(name, m)]).lookup name' = some n ↔
      es.lookup name' = some n ∨ es.lookup name' = none ∧ name' = name ∧ n = m := by
  rw [List.lookup_append]
  cases he : es.lookup name' with
  | some k => simp
  | none =>
    rw [Option.none_or, List.lookup_cons, List.lookup_nil]
    by_cases hname : name' = name
    · simp [hname, eq_comm]
    · simp [beq_eq_false_iff_ne.2 hname, hname]

/-- The entries of a folder after a node was added: those from before, and the new name. -/
theorem lookup_addNode (hx : Node.Fresh x) (hd : f.entries? d = some es) {d' : Nat}
    {es' : List (Bytes × Nat)} (h : (f.addNode d es name x).entries? d' = some es') {name' : Bytes}
    (hn : es'.lookup name' = some n) :
    (∃ old, f.entries? d' = some old ∧ old.lookup name' = some n) ∨
      d' = d ∧ name' = name ∧ n = f.nodes.length := by
  have hlt := node?_lt (entries?_eq_some.1 hd)
  have hnode := entries?_eq_some.1 h
  rw [node?_addNode hlt] at hnode
  by_cases hdd : d' = d
  · rw [if_pos hdd] at hnode
    cases hnode
    rcases lookup_snoc.1 hn with hold | ⟨-, hname, hnum⟩
    · exact .inl ⟨es, hdd ▸ hd, hold⟩
    · exact .inr ⟨hdd, hname, hnum⟩
  · rw [if_neg hdd] at hnode
    by_cases hnew : d' = f.nodes.length
    · rw [if_pos hnew] at hnode
      cases hnode
      obtain rfl : es' = [] := hx
      cases hn
    · rw [if_neg hnew] at hnode
      exact .inl ⟨es', entries?_eq_some.2 hnode, hn⟩

/-- A node under a free name. -/
theorem OneName.addNode (h : OneName f) (hx : Node.Fresh x) (hd : f.entries? d = some es)
    (hfree : es.lookup name = none) : OneName (f.addNode d es name x) := by
  have hlt := node?_lt (entries?_eq_some.1 hd)
  -- the new node has no old name
  have hnot : ∀ {d' : Nat} {old : List (Bytes × Nat)} {name' : Bytes},
      f.entries? d' = some old → old.lookup name' ≠ some f.nodes.length := by
    intro d' old name' he hn
    obtain ⟨y, hy⟩ := h.inside he hn
    exact absurd (node?_lt hy) (Nat.lt_irrefl _)
  constructor
  · intro d' n' es' name' he hn
    rw [node?_addNode hlt]
    split
    · exact ⟨_, rfl⟩
    · split
      · exact ⟨_, rfl⟩
      · next hnd hnew =>
        rcases lookup_addNode hx hd he hn with ⟨old, hold, hn⟩ | ⟨-, -, hnum⟩
        · exact h.inside hold hn
        · exact absurd hnum hnew
  · intro d₁ d₂ n' es₁ es₂ name₁ name₂ he₁ he₂ hn₁ hn₂
    rcases lookup_addNode hx hd he₁ hn₁ with ⟨old₁, ho₁, hl₁⟩ | ⟨rfl, rfl, rfl⟩
    · rcases lookup_addNode hx hd he₂ hn₂ with ⟨old₂, ho₂, hl₂⟩ | ⟨-, -, rfl⟩
      · exact h.apart ho₁ ho₂ hl₁ hl₂
      · exact absurd hl₁ (hnot ho₁)
    · rcases lookup_addNode hx hd he₂ hn₂ with ⟨old₂, ho₂, hl₂⟩ | ⟨rfl, rfl, -⟩
      · exact absurd hl₂ (hnot ho₂)
      · exact ⟨rfl, rfl⟩

/-! ## Places -/

/-- What a path with a place says: a folder and a name under it. -/
structure HasPlace (f : Files) (path : Bytes) (d : Nat) (up : List Nat) (es : List (Bytes × Nat))
    (name : Bytes) : Prop where
  check : checkPath path = .ok ()
  walk : f.walk (f.origin path) (Path.names path).dropLast = .ok (d :: up)
  last : (Path.names path).getLast? = some name
  entries : f.entries? d = some es
  notHere : name ≠ Path.here
  notAbove : name ≠ Path.above
  short : name.length ≤ longestName

theorem hasPlace_of_place? {p : Place} (h : f.place? path = .ok (some p)) :
    ∃ up, HasPlace f path p.folder up p.entries p.name := by
  rw [place?] at h
  cases hcheck : checkPath path with
  | error e =>
    rw [hcheck] at h
    cases h
  | ok u =>
    rw [hcheck] at h
    simp only [bind, Except.bind] at h
    cases hwalk : f.walk (f.origin path) (Path.names path).dropLast with
    | error e =>
      rw [hwalk] at h
      cases h
    | ok trail =>
      rw [hwalk] at h
      cases trail with
      | nil => cases h
      | cons d up =>
        cases he : f.entries? d with
        | none =>
          simp only [List.head?_cons, Option.bind_some, he, Option.map_none] at h
          cases h
        | some es =>
          simp only [List.head?_cons, Option.bind_some, he, Option.map_some] at h
          cases hlast : (Path.names path).getLast? with
          | none =>
            rw [hlast] at h
            cases h
          | some name =>
            rw [hlast] at h
            simp only at h
            split at h
            · cases h
            · next hdots =>
              split at h
              · cases h
              · next hlong =>
                cases h
                rw [not_or] at hdots
                exact ⟨up, hcheck, hwalk, hlast, he, hdots.1, hdots.2, Nat.not_lt.1 hlong⟩

/-- A file was made under a free name, or nothing happened. -/
inductive Makes (f : Files) : Files → Prop
  | nothing : Makes f f
  | file {d : Nat} {es : List (Bytes × Nat)} {name : Bytes} : f.entries? d = some es →
      es.lookup name = none → Makes f (f.addNode d es name (.file []))

theorem makes_openAppend (f : Files) (path : Bytes) : Makes f (f.openAppend path).2 := by
  rw [openAppend]
  split
  · exact .nothing
  · exact .nothing
  · next p hp =>
    obtain ⟨up, hplace⟩ := hasPlace_of_place? hp
    split
    · exact .nothing
    · split
      · split
        · exact .nothing
        · exact .nothing
      · next hfree => exact .file hplace.entries hfree

theorem openAppend_error {e : SystemError} (h : f.openAppend path = (.error e, f')) : f' = f := by
  rw [openAppend] at h
  split at h
  · cases h
    rfl
  · cases h
    rfl
  · split at h
    · cases h
      rfl
    · split at h
      · split at h
        · cases h
          rfl
        · cases h
      · cases h

theorem Makes.oneName (h : Makes f f') (hf : OneName f) : OneName f' := by
  cases h with
  | nothing => exact hf
  | file hd hfree => exact hf.addNode trivial hd hfree

theorem Makes.grows (h : Makes f f') : Grows f f' := by
  cases h with
  | nothing => exact .refl f
  | file hd hfree => exact grows_addNode _ _ hd

theorem Makes.file_kept (h : Makes f f') {c : Bytes} (hn : f.node? n = some (.file c)) :
    f'.node? n = some (.file c) := by
  cases h with
  | nothing => exact hn
  | @file d es name hd hfree =>
    have hfolder := entries?_eq_some.1 hd
    have hnd : n ≠ d := by
      rintro rfl
      rw [hfolder] at hn
      cases hn
    rw [node?_addNode (node?_lt hfolder), if_neg hnd, if_neg (Nat.ne_of_lt (node?_lt hn))]
    exact hn

/-! ## Folders -/

theorem OneName.makeFolder (h : OneName f) (path : Bytes) : OneName (f.makeFolder path).2 := by
  rw [Files.makeFolder]
  split
  · exact h
  · exact h
  · next p hp =>
    obtain ⟨up, hplace⟩ := hasPlace_of_place? hp
    split
    · exact h
    · next hfree =>
      rw [Option.not_isSome_iff_eq_none] at hfree
      exact h.addNode rfl hplace.entries hfree

theorem OneName.makeFoldersFrom (absolute : Bool) (parts : List Bytes) (h : OneName f)
    (path : Bytes) : OneName (Files.makeFoldersFrom absolute parts path f).2 := by
  induction parts generalizing path f with
  | nil =>
    rw [Files.makeFoldersFrom]
    split
    · exact h
    · exact h.makeFolder path
  | cons part up ih =>
    have hmake := h.makeFolder path
    rw [Files.makeFoldersFrom]
    split
    · next f₁ hf₁ =>
      rw [hf₁] at hmake
      exact hmake
    · next e f₁ hf₁ =>
      rw [hf₁] at hmake
      split
      · have hup := ih hmake (Path.ofParts absolute up.reverse)
        split
        · next e₂ f₂ hf₂ =>
          rw [hf₂] at hup
          exact hup
        · next f₂ hf₂ =>
          rw [hf₂] at hup
          have hagain := hup.makeFolder path
          split
          · next f₃ hf₃ =>
            rw [hf₃] at hagain
            exact hagain
          · next e₃ f₃ hf₃ =>
            rw [hf₃] at hagain
            split
            · exact hagain
            · exact hagain
      · split
        · exact hmake
        · exact hmake

theorem OneName.makeFolders (h : OneName f) (path : Bytes) : OneName (f.makeFolders path).2 :=
  h.makeFoldersFrom _ _ path

/-- The tree with the devices, whatever its working folder. -/
theorem oneName_start (home : Bytes) : OneName (Files.start home) := by
  let root : Files := ⟨[.folder []], [0], fun _ _ => none⟩
  have hroot : OneName root := by
    have hempty : ∀ {d : Nat} {es : List (Bytes × Nat)}, root.entries? d = some es → es = [] := by
      intro d es h
      cases d with
      | zero => exact (Option.some.inj h).symm
      | succ d => cases h
    constructor
    · intro d n es name he hn
      rw [hempty he] at hn
      cases hn
    · intro d d' n es es' name name' he he' hn
      rw [hempty he] at hn
      cases hn
  let dev := Utf8.ofText "dev"
  let null := Utf8.ofText "null"
  let full := Utf8.ofText "full"
  have hdev : OneName (root.addNode 0 [] dev (.folder [])) := hroot.addNode rfl rfl rfl
  have hnull : OneName ((root.addNode 0 [] dev (.folder [])).addNode 1 [] null .null) :=
    hdev.addNode trivial rfl rfl
  have hfull : OneName (((root.addNode 0 [] dev (.folder [])).addNode 1 [] null .null).addNode 1
      [(null, 2)] full .full) := hnull.addNode trivial rfl (by decide)
  have hmade := hfull.makeFolders home
  exact ⟨hmade.inside, hmade.apart⟩

/-! ## Contents -/

/-- Nothing but the content of node `n` may have changed. -/
structure Touches (n : Nat) (f f' : Files) : Prop where
  home : f'.home = f.home
  others : ∀ m, m ≠ n → f'.node? m = f.node? m
  itself : f'.node? n = f.node? n ∨
    ∃ c c', f.node? n = some (.file c) ∧ f'.node? n = some (.file c')

theorem Touches.refl (n : Nat) (f : Files) : Touches n f f := ⟨rfl, fun _ _ => rfl, .inl rfl⟩

theorem Touches.trans (h : Touches n f f') (h' : Touches n f' f'') : Touches n f f'' := by
  refine ⟨h'.home.trans h.home, fun m hm => (h'.others m hm).trans (h.others m hm), ?_⟩
  rcases h.itself with hs | ⟨c, c', hc, hc'⟩
  · rw [← hs]
    exact h'.itself
  · rcases h'.itself with hs' | ⟨-, c'', -, hc''⟩
    · exact .inr ⟨c, c', hc, hs'.trans hc'⟩
    · exact .inr ⟨c, c'', hc, hc''⟩

theorem touches_setNode {c : Bytes} (hn : f.node? n = some (.file c)) (c' : Bytes) :
    Touches n f (f.setNode n (.file c')) := by
  have hlt := node?_lt hn
  refine ⟨rfl, fun m hm => ?_, .inr ⟨c, c', hn, ?_⟩⟩
  · rw [node?_setNode hlt, if_neg hm]
  · rw [node?_setNode hlt, if_pos rfl]

theorem Touches.entries (h : Touches n f f') (m : Nat) : f'.entries? m = f.entries? m := by
  have hnode : f'.node? m = f.node? m ∨
      ∃ c c', f.node? m = some (.file c) ∧ f'.node? m = some (.file c') := by
    by_cases hm : m = n
    · rw [hm]
      exact h.itself
    · exact .inl (h.others m hm)
  rw [entries?, entries?]
  rcases hnode with hs | ⟨c, c', hc, hc'⟩
  · rw [hs]
  · rw [hc, hc']

theorem Touches.grows (h : Touches n f f') : Grows f f' :=
  ⟨h.home, fun he => ⟨[], by rw [h.entries, he, List.append_nil]⟩⟩

theorem Touches.file_kept (h : Touches n f f') {c : Bytes} (hm : f.node? m = some (.file c)) :
    ∃ c', f'.node? m = some (.file c') := by
  by_cases hmn : m = n
  · subst hmn
    rcases h.itself with hs | ⟨-, c', -, hc'⟩
    · exact ⟨c, hs.trans hm⟩
    · exact ⟨c', hc'⟩
  · exact ⟨c, (h.others m hmn).trans hm⟩

theorem Touches.oneName (h : Touches n f f') (hf : OneName f) : OneName f' := by
  constructor
  · intro d m es name he hm
    rw [h.entries] at he
    obtain ⟨x, hx⟩ := hf.inside he hm
    by_cases hmn : m = n
    · subst hmn
      rcases h.itself with hs | ⟨-, c', -, hc'⟩
      · exact ⟨x, hs.trans hx⟩
      · exact ⟨_, hc'⟩
    · exact ⟨x, (h.others m hmn).trans hx⟩
  · intro d d' m es es' name name' he he'
    rw [h.entries] at he he'
    exact hf.apart he he'

theorem touches_append (f : Files) (n : Nat) (bytes : Bytes) :
    Touches n f (f.append n bytes).2 := by
  rw [append]
  split
  · next c hc =>
    split
    · exact touches_setNode hc _
    · exact touches_setNode hc _
  · exact .refl n f
  · exact .refl n f
  · exact .refl n f

theorem touches_cut (f : Files) (n length : Nat) : Touches n f (f.cut n length).2 := by
  rw [cut]
  split
  · next c hc => exact touches_setNode hc _
  · exact .refl n f

/-! ## Entries by path -/

/-- The path ends with `name`, which is the name of node `n` in folder `d`. -/
structure EntryAt (f : Files) (path : Bytes) (d : Nat) (up : List Nat) (name : Bytes) (n : Nat) :
    Prop where
  place : ∃ es, HasPlace f path d up es name ∧ es.lookup name = some n
  noSlash : Path.endsInSlash path = false

theorem EntryAt.grows {up : List Nat} (h : EntryAt f path d up name n) (hg : Grows f f') :
    EntryAt f' path d up name n := by
  obtain ⟨es, hp, hn⟩ := h.place
  obtain ⟨more, hmore⟩ := hg.entries hp.entries
  refine ⟨⟨es ++ more, ?_, lookup_append_of_some hn⟩, h.noSlash⟩
  have hwalk : f'.walk (f'.origin path) (Path.names path).dropLast = .ok (d :: up) := by
    rw [origin_grows hg]
    exact walk_grows hg hp.walk
  exact ⟨hp.check, hwalk, hp.last, hmore, hp.notHere, hp.notAbove, hp.short⟩

/-- The node that such a path leads to. -/
theorem EntryAt.locate {up : List Nat} (h : EntryAt f path d up name n) :
    f.locate path = .ok n := by
  obtain ⟨es, hp, hn⟩ := h.place
  obtain ⟨names, hnames⟩ := List.getLast?_eq_some_iff.1 hp.last
  have hwalk := hp.walk
  rw [hnames, List.dropLast_concat] at hwalk
  have henter : f.enter (d :: up) name = .ok (n :: d :: up) := by
    simp only [enter, hp.entries, hn, if_neg hp.notHere, if_neg hp.notAbove,
      if_neg (Nat.not_lt.2 hp.short)]
  have hall : f.walk (f.origin path) (Path.names path) = .ok (n :: d :: up) := by
    rw [hnames, walk_snoc, hwalk]
    exact henter
  rw [Files.locate, follow, hp.check, hall, h.noSlash]
  simp [bind, Except.bind]

/-- What was opened to append to it has a name. -/
theorem entryAt_openAppend (h : f.openAppend path = (.ok n, f')) :
    ∃ d up name, EntryAt f' path d up name n := by
  rw [openAppend] at h
  split at h
  · cases h
  · cases h
  · next p hp =>
    obtain ⟨up, hplace⟩ := hasPlace_of_place? hp
    split at h
    · cases h
    · next hslash =>
      rw [Bool.not_eq_true] at hslash
      split at h
      · next k hk =>
        split at h
        · cases h
        · cases h
          exact ⟨_, up, _, ⟨p.entries, hplace, hk⟩, hslash⟩
      · next hfree =>
        cases h
        have hgrows := grows_addNode p.name (.file []) hplace.entries
        have hlt := node?_lt (entries?_eq_some.1 hplace.entries)
        have hentries : (f.addNode p.folder p.entries p.name (.file [])).entries? p.folder =
            some (p.entries ++ [(p.name, f.nodes.length)]) :=
          entries?_eq_some.2 (by rw [node?_addNode hlt, if_pos rfl])
        refine ⟨p.folder, up, p.name, ⟨_, ?_, lookup_snoc.2 (.inr ⟨hfree, rfl, rfl⟩)⟩, hslash⟩
        refine ⟨hplace.check, ?_, hplace.last, hentries, hplace.notHere, hplace.notAbove,
          hplace.short⟩
        rw [origin_grows hgrows]
        exact walk_grows hgrows hplace.walk

end PubSub.Files
