import PubSub.Proofs.Files.Root
import PubSub.Proofs.NameMap
import PubSub.Proofs.Text.Utf8
import PubSub.Publisher.FileLog

/-!
# Logs in a folder

All logs that are open on one folder share its files. `Holds` says that each file holds the records
of what was published on its topic; a write on one log keeps that for all of them.
-/

namespace PubSub

open Files (LeadsTo Grows)

/-- What was published, by topic. -/
abbrev Journal := String → List Message

/-- Messages published after all others of a topic. -/
def Journal.add (J : Journal) (topic : String) (ms : List Message) : Journal :=
  fun t => if t = topic then J t ++ ms else J t

theorem Journal.add_same (J : Journal) (topic : String) (ms : List Message) :
    J.add topic ms topic = J topic ++ ms := if_pos rfl

theorem Journal.add_other (J : Journal) {topic t : String} (h : t ≠ topic) (ms : List Message) :
    J.add topic ms t = J t := if_neg h

theorem Journal.add_nil (J : Journal) (topic : String) : J.add topic [] = J := by
  funext t
  by_cases h : t = topic
  · subst h
    rw [add_same, List.append_nil]
  · exact add_other J h []

theorem ofText_injective {s t : String} (h : Utf8.ofText s = Utf8.ofText t) : s = t := by
  have hs := Utf8.toText?_ofText s
  rw [h, Utf8.toText?_ofText] at hs
  exact (Option.some.inj hs).symm

/-! ## Appending -/

/-- Only the content of the file `n` has changed. -/
structure Rewritten (n : Nat) (c' : Bytes) (f f' : Files) : Prop where
  old : ∃ c, f.node? n = some (.file c)
  new : f'.node? n = some (.file c')
  others : ∀ m, m ≠ n → f'.node? m = f.node? m
  home : f'.home = f.home
  brake : f'.brake = f.brake

namespace Rewritten

variable {n : Nat} {c c' : Bytes} {f f' f'' : Files}

theorem same (h : f.node? n = some (.file c)) : Rewritten n c f f :=
  ⟨⟨c, h⟩, h, fun _ _ => rfl, rfl, rfl⟩

theorem trans (h : Rewritten n c f f') (h' : Rewritten n c' f' f'') : Rewritten n c' f f'' :=
  ⟨h.old, h'.new, fun m hm => (h'.others m hm).trans (h.others m hm), h'.home.trans h.home,
    h'.brake.trans h.brake⟩

theorem entries (h : Rewritten n c' f f') (m : Nat) : f'.entries? m = f.entries? m := by
  obtain ⟨c, hc⟩ := h.old
  by_cases hm : m = n
  · subst hm
    rw [Files.entries?, h.new, Files.entries?, hc]
  · rw [Files.entries?, h.others m hm, Files.entries?]

theorem grows (h : Rewritten n c' f f') : Grows f f' :=
  ⟨h.home, fun he => ⟨[], by rw [h.entries, he, List.append_nil]⟩⟩

end Rewritten

theorem append_rewritten {f : Files} {n : Nat} {c : Bytes} (hn : f.node? n = some (.file c))
    (hb : ∀ size count, f.brake size count = none) (bytes : Bytes) :
    ∃ f', f.append n bytes = (.ok (), f') ∧ Rewritten n (c ++ bytes) f f' := by
  refine ⟨f.setNode n (.file (c ++ bytes)), ?_, ⟨c, hn⟩, ?_, ?_, rfl, rfl⟩
  · rw [Files.append, hn]
    simp only [hb]
  · rw [Files.node?_setNode (Files.node?_lt hn), if_pos rfl]
  · intro m hm
    rw [Files.node?_setNode (Files.node?_lt hn), if_neg hm]

namespace FileLog

/-- Without failures all records of a batch are appended. -/
theorem appendRecords_rewritten {f : Files} {n : Nat} {c : Bytes}
    (hn : f.node? n = some (.file c)) (hb : ∀ size count, f.brake size count = none)
    (batch : List Message) :
    ∃ f', appendRecords f n batch = (batch.length, none, f') ∧
      Rewritten n (c ++ records batch) f f' := by
  induction batch generalizing f c with
  | nil =>
    refine ⟨f, rfl, ?_⟩
    rw [records, List.flatMap_nil, List.append_nil]
    exact .same hn
  | cons m batch ih =>
    obtain ⟨f₁, h₁, hr₁⟩ := append_rewritten hn hb (Record.line m)
    obtain ⟨f₂, h₂, hr₂⟩ := ih hr₁.new (by rw [hr₁.brake]; exact hb)
    refine ⟨f₂, ?_, ?_⟩
    · rw [appendRecords, h₁]
      simp only [h₂, List.length_cons]
    · rw [records, List.flatMap_cons, ← List.append_assoc]
      exact hr₁.trans hr₂

end FileLog

/-! ## Folders of logs -/

/-- A folder with the entries `es` holds topic files and nothing else. Each begins with what it held
before, to which the records of all that was published were appended; all writes succeed. -/
structure Holds (root : Bytes) (d : Nat) (up : List Nat) (B : String → Bytes) (f : Files)
    (es : List (Bytes × Nat)) (J : Journal) : Prop where
  leads : LeadsTo f root d up
  entries : f.entries? d = some es
  unbraked : ∀ size count, f.brake size count = none
  files : ∀ {name : Bytes} {n : Nat}, es.lookup name = some n →
    ∃ t, Plain root t ∧ name = Utf8.ofText t ∧
      f.node? n = some (.file (B t ++ FileLog.records (J t)))
  apart : ∀ {name name' : Bytes} {n : Nat}, es.lookup name = some n → es.lookup name' = some n →
    name = name'
  absent : ∀ {t : String}, es.lookup (Utf8.ofText t) = none → B t = [] ∧ J t = []

/-- A log on the folder: what it has opened are files of the folder. -/
structure LogOn (root : Bytes) (es : List (Bytes × Nat)) (log : FileLog) : Prop where
  root : log.root = root
  opened : ∀ {t : String} {n : Nat}, log.openFiles.get? t = some n →
    es.lookup (Utf8.ofText t) = some n

/-- The entries of a folder stay, and at most the name of `topic` is added to them. -/
def Adds (topic : String) (es es' : List (Bytes × Nat)) : Prop :=
  es' = es ∨ ∃ n, es' = es ++ [(Utf8.ofText topic, n)]

variable {root : Bytes} {d : Nat} {up : List Nat} {B : String → Bytes} {f f' : Files}
  {es es' : List (Bytes × Nat)}
  {J : Journal} {t topic : String} {n m : Nat} {log : FileLog}

theorem Adds.lookup (h : Adds topic es es') {name : Bytes} (hn : es.lookup name = some n) :
    es'.lookup name = some n := by
  rcases h with rfl | ⟨m, rfl⟩
  · exact hn
  · exact Files.lookup_append_of_some hn

theorem Adds.lookup_other (h : Adds topic es es') (ht : t ≠ topic) :
    es'.lookup (Utf8.ofText t) = es.lookup (Utf8.ofText t) := by
  rcases h with rfl | ⟨m, rfl⟩
  · rfl
  · have hne : Utf8.ofText t ≠ Utf8.ofText topic := fun h => ht (ofText_injective h)
    have hsingle : List.lookup (Utf8.ofText t) [(Utf8.ofText topic, m)] = none := by
      simp [List.lookup_cons, beq_eq_false_iff_ne.2 hne]
    rw [List.lookup_append, hsingle, Option.or_none]

theorem LogOn.adds (h : LogOn root es log) (ha : Adds topic es es') : LogOn root es' log :=
  ⟨h.root, fun hn => ha.lookup (h.opened hn)⟩

theorem Holds.node (h : Holds root d up B f es J) (hn : es.lookup (Utf8.ofText t) = some n) :
    f.node? n = some (.file (B t ++ FileLog.records (J t))) := by
  obtain ⟨t', -, ht, hnode⟩ := h.files hn
  rw [ofText_injective ht]
  exact hnode

/-- What is read under the name of a topic. -/
theorem Holds.readPath (h : Holds root d up B f es J) (ht : Plain root t) :
    f.readPath (Path.join root (Utf8.ofText t)) =
      match es.lookup (Utf8.ofText t) with
      | none => .error .notFound
      | some _ => .ok (B t ++ FileLog.records (J t)) := by
  rw [Files.readPath, Files.locate_join h.leads ht.name ht.short h.entries]
  cases hn : es.lookup (Utf8.ofText t) with
  | none => rfl
  | some n =>
    change f.read n = _
    rw [Files.read, h.node hn]

/-! ## Opening -/

theorem Adds.lookup_new {name : Bytes}
    (hn : (es ++ [(Utf8.ofText topic, n)]).lookup name = some m) :
    es.lookup name = some m ∨ es.lookup name = none ∧ name = Utf8.ofText topic ∧ m = n := by
  cases he : es.lookup name with
  | some k =>
    rw [Files.lookup_append_of_some he] at hn
    exact .inl hn
  | none =>
    rw [List.lookup_append, he, Option.none_or, List.lookup_cons] at hn
    by_cases hname : name = Utf8.ofText topic
    · subst hname
      simp only [beq_self_eq_true] at hn
      exact .inr ⟨rfl, rfl, (Option.some.inj hn).symm⟩
    · simp [beq_eq_false_iff_ne.2 hname] at hn

/-- Making the file of a topic that was not published to. -/
theorem Holds.create (h : Holds root d up B f es J) (ht : Plain root topic)
    (hnew : es.lookup (Utf8.ofText topic) = none) :
    Holds root d up B (f.addNode d es (Utf8.ofText topic) (.file []))
      (es ++ [(Utf8.ofText topic, f.nodes.length)]) J := by
  have hfolder := Files.entries?_eq_some.1 h.entries
  have hd := Files.node?_lt hfolder
  have hgrows := Files.grows_addNode (Utf8.ofText topic) (.file []) h.entries
  -- the files that were there are neither the folder nor the new file
  have hlt : ∀ {name m}, es.lookup name = some m → m ≠ d ∧ m < f.nodes.length := by
    intro name m hm
    obtain ⟨t, -, -, hnode⟩ := h.files hm
    refine ⟨?_, Files.node?_lt hnode⟩
    rintro rfl
    rw [hfolder] at hnode
    cases hnode
  refine ⟨h.leads.grows hgrows, ?_, h.unbraked, ?_, ?_, ?_⟩
  · rw [Files.entries?_eq_some, Files.node?_addNode hd, if_pos rfl]
  · intro name m hm
    rcases Adds.lookup_new hm with hold | ⟨-, rfl, rfl⟩
    · obtain ⟨t, hplain, hname, hnode⟩ := h.files hold
      obtain ⟨hmd, hml⟩ := hlt hold
      refine ⟨t, hplain, hname, ?_⟩
      rw [Files.node?_addNode hd, if_neg hmd, if_neg (Nat.ne_of_lt hml)]
      exact hnode
    · refine ⟨topic, ht, rfl, ?_⟩
      rw [Files.node?_addNode hd, if_neg (Nat.ne_of_gt hd), if_pos rfl,
        (h.absent hnew).1, (h.absent hnew).2]
      rfl
  · intro name name' m hm hm'
    rcases Adds.lookup_new hm with hold | ⟨-, rfl, rfl⟩
    · rcases Adds.lookup_new hm' with hold' | ⟨-, -, rfl⟩
      · exact h.apart hold hold'
      · exact absurd rfl (Nat.ne_of_lt (hlt hold).2)
    · rcases Adds.lookup_new hm' with hold' | ⟨-, rfl, -⟩
      · exact absurd rfl (Nat.ne_of_lt (hlt hold').2)
      · rfl
  · intro t hnone
    rw [List.lookup_append, Option.or_eq_none_iff] at hnone
    exact h.absent hnone.1

/-- Opening the file of a topic, which is made if need be. -/
theorem Holds.opens (h : Holds root d up B f es J) (ht : Plain root topic) :
    ∃ n f' es', f.openAppend (Path.join root (Utf8.ofText topic)) = (.ok n, f') ∧
      Adds topic es es' ∧ es'.lookup (Utf8.ofText topic) = some n ∧ Holds root d up B f' es' J := by
  cases hn : es.lookup (Utf8.ofText topic) with
  | some n =>
    have hfile : f.isFolder n = false := by
      rw [Files.isFolder, Files.entries?, h.node hn]
      rfl
    exact ⟨n, f, es, Files.openAppend_found h.leads ht.name ht.short h.entries hn hfile, .inl rfl,
      hn, h⟩
  | none =>
    refine ⟨_, _, _, Files.openAppend_new h.leads ht.name ht.short h.entries hn, .inr ⟨_, rfl⟩, ?_,
      h.create ht hn⟩
    rw [List.lookup_append, hn]
    simp

/-! ## Writing -/

/-- Appending the records of a batch to the file of its topic. -/
theorem Holds.appends (h : Holds root d up B f es J)
    (hn : es.lookup (Utf8.ofText topic) = some n) (batch : List Message) :
    ∃ f', FileLog.appendRecords f n batch = (batch.length, none, f') ∧
      Holds root d up B f' es (J.add topic batch) ∧ f'.sync n = .ok () := by
  obtain ⟨f', happend, hr⟩ := FileLog.appendRecords_rewritten (h.node hn) h.unbraked batch
  have hrecords : B topic ++ FileLog.records (J topic) ++ FileLog.records batch =
      B topic ++ FileLog.records (J topic ++ batch) := by
    rw [FileLog.records, FileLog.records, FileLog.records, List.flatMap_append,
      List.append_assoc]
  rw [hrecords] at hr
  refine ⟨f', happend, ⟨h.leads.grows hr.grows, ?_, ?_, ?_, h.apart, ?_⟩, ?_⟩
  · rw [hr.entries]
    exact h.entries
  · rw [hr.brake]
    exact h.unbraked
  · intro name m hm
    obtain ⟨t, hplain, hname, hnode⟩ := h.files hm
    refine ⟨t, hplain, hname, ?_⟩
    by_cases htopic : t = topic
    · subst htopic
      rw [hname, hn] at hm
      cases hm
      rw [Journal.add_same]
      exact hr.new
    · have hmn : m ≠ n := by
        rintro rfl
        exact htopic (ofText_injective (hname.symm.trans (h.apart hm hn)))
      rw [Journal.add_other J htopic, hr.others m hmn]
      exact hnode
  · intro t hnone
    have htopic : t ≠ topic := by
      rintro rfl
      rw [hn] at hnone
      cases hnone
    rw [Journal.add_other J htopic]
    exact h.absent hnone
  · rw [Files.sync, hr.new]

/-- What a write on one of the logs of a folder keeps. A write that succeeds adds its whole batch to
the journal, one that fails adds nothing. -/
theorem Holds.write (h : Holds root d up B f es J) (hl : LogOn root es log)
    (ht : Plain root topic) (cancelled : Bool) (batch : List Message) (asBatch : Bool) :
    ∃ es', Adds topic es es' ∧
      LogOn root es' (log.write f cancelled topic batch asBatch).log ∧
      ((log.write f cancelled topic batch asBatch).result = .ok () ∧
          Holds root d up B (log.write f cancelled topic batch asBatch).files es'
            (J.add topic batch) ∨
        (cancelled = true ∨ log.closed = true) ∧ es' = es ∧
          (log.write f cancelled topic batch asBatch).result ≠ .ok () ∧
          Holds root d up B (log.write f cancelled topic batch asBatch).files es' J) := by
  by_cases hc : cancelled = true
  · rw [FileLog.write, if_pos hc]
    exact ⟨es, .inl rfl, hl, .inr ⟨.inl hc, rfl, by simp, h⟩⟩
  · by_cases hclosed : log.closed = true
    · rw [FileLog.write, if_neg hc, if_pos hclosed]
      exact ⟨es, .inl rfl, hl, .inr ⟨.inr hclosed, rfl, by simp, h⟩⟩
    · obtain ⟨n, f₁, es', hfile, hadds, hn, h₁⟩ : ∃ n f₁ es', log.file f topic = (.ok n, f₁) ∧
          Adds topic es es' ∧ es'.lookup (Utf8.ofText topic) = some n ∧
          Holds root d up B f₁ es' J := by
        rw [FileLog.file]
        cases hopen : log.openFiles.get? topic with
        | some n => exact ⟨n, f, es, rfl, .inl rfl, hl.opened hopen, h⟩
        | none =>
          simp only [FileLog.path, hl.root]
          exact h.opens ht
      obtain ⟨f₂, happend, h₂, hsync⟩ := h₁.appends hn batch
      have hwrite : log.write f cancelled topic batch asBatch =
          ⟨.ok (), { log with openFiles := log.openFiles.insert topic n }, f₂, []⟩ := by
        rw [FileLog.write, if_neg hc, if_neg hclosed, hfile]
        simp only [FileLog.appendTo, happend, hsync]
        rfl
      rw [hwrite]
      refine ⟨es', hadds, ⟨hl.root, ?_⟩, .inl ⟨rfl, h₂⟩⟩
      intro t m hm
      simp only [NameMap.get?_insert] at hm
      split at hm
      · next hte =>
        cases hm
        rw [hte]
        exact hn
      · exact hadds.lookup (hl.opened hm)

/-- Closing a log changes no file. -/
theorem close_files (log : FileLog) (f : Files) : (log.close f).files = f := by
  rw [FileLog.close]
  split <;> rfl

theorem LogOn.close (h : LogOn root es log) (f : Files) : LogOn root es (log.close f).log := by
  rw [FileLog.close]
  split
  · exact h
  · refine ⟨h.root, ?_⟩
    intro t n hn
    simp at hn

end PubSub
