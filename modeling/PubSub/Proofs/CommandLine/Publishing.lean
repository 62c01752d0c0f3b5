import PubSub.CommandLine.Run
import PubSub.Proofs.Files.Made
import PubSub.Proofs.Publisher.Appending
import PubSub.Proofs.Publisher.FileLog
import PubSub.Proofs.Registry

/-!
# Publishing from the command line

A publishing command opens a log, publishes one batch and closes the log. If it succeeds, the batch
stands behind all that was published on its topic before (`Kept.publish`), whatever else may make
writes fail.
-/

namespace PubSub

variable {f f' : Files} {root : Bytes} {d n : Nat} {up : List Nat} {es : List (Bytes × Nat)}
  {J : Journal} {topic url : String} {ms batch : List Message} {e : Endpoint}

/-! ## Writes that succeed -/

/-- A bound on the files does not matter for opening them. -/
theorem openAppend_unlimited (f : Files) (path : Bytes) :
    f.unlimited.openAppend path = ((f.openAppend path).1, (f.openAppend path).2.unlimited) := by
  have hplace : f.unlimited.place? path = f.place? path := rfl
  rw [Files.openAppend, Files.openAppend, hplace]
  cases f.place? path with
  | error e => rfl
  | ok place =>
    cases place with
    | none => rfl
    | some p =>
      by_cases hslash : Path.endsInSlash path = true
      · simp only [hslash, if_true]
      · simp only [hslash, Bool.false_eq_true, if_false]
        cases p.entries.lookup p.name with
        | none => rfl
        | some n =>
          have hfolder : f.unlimited.isFolder n = f.isFolder n := rfl
          by_cases hf : f.isFolder n = true
          · simp only [hfolder, hf, if_true]
          · simp only [hfolder, hf, Bool.false_eq_true, if_false]

theorem FileLog.refusal?_unlimited (size : Nat) (batch : List Message) :
    refusal? f.unlimited.brake size batch = none := by
  induction batch generalizing size with
  | nil => rfl
  | cons m batch ih =>
    rw [refusal?]
    exact Option.map_eq_none_iff.2 (ih _)

/-- What a log without open files writes stands behind what its topic had before, if the write
succeeds. -/
theorem Holds.wrote (h : Holds root d up (fun _ => []) f.unlimited es J) (ht : Plain root topic)
    (hok : (FileLog.write ⟨root, .empty, false, none⟩ f false topic batch true).result = .ok ()) :
    ∃ es', Holds root d up (fun _ => [])
      (FileLog.write ⟨root, .empty, false, none⟩ f false topic batch true).files.unlimited es'
      (J.add topic batch) := by
  obtain ⟨n, f₁, es', hopen, -, hn, h₁⟩ := h.opens ht
  cases hf : f.openAppend (Path.join root (Utf8.ofText topic)) with
  | mk r f₂ =>
    rw [openAppend_unlimited, hf] at hopen
    cases hopen
    have hfile : FileLog.file ⟨root, .empty, false, none⟩ f topic = (.ok n, f₂) := hf
    have hcontent : f₂.node? n = some (.file ([] ++ FileLog.records (J topic))) := h₁.node hn
    -- the same records are appended as if there was no bound
    obtain ⟨f₃, happend, h₃, -⟩ := h₁.appends hn batch
    have hall := FileLog.appendRecords_eq (f := f₂.unlimited) hcontent batch
    rw [FileLog.refusal?_unlimited] at hall
    rw [hall] at happend
    cases happend
    rw [FileLog.write_opened rfl hfile, FileLog.appendTo_eq hcontent] at hok ⊢
    cases hr : FileLog.refusal? f₂.brake ([] ++ FileLog.records (J topic)).length batch with
    | none => exact ⟨es', h₃⟩
    | some r =>
      simp only [hr] at hok
      cases hok

/-! ## Publishing commands -/

/-- The way of a side for URLs of files. -/
theorem resolve_files {α : Type} {side : NameMap α} {way : α} (hurl : Endpoint.parse url = .ok e)
    (hscheme : e.scheme = "file") (hway : side.get? "file" = some way) :
    Registry.resolve side false url = .ok (way, e) := by
  rw [Registry.resolve_live hurl, hscheme, hway]

namespace CommandLine

/-- As soon as the folder of the root is there, each of its files holds the records of what was
published on its topic. -/
def Kept (root : Bytes) (f : Files) (J : Journal) : Prop :=
  ∃ f' d up es, f.makeFolders root = (.ok (), f') ∧
    Holds root d up (fun _ => []) f'.unlimited es J ∧ (f' = f ∨ ∀ t, J t = [])

theorem kept_start (h : f.StartsEmpty root) : Kept root f fun _ => [] := by
  obtain ⟨f', d, up, hmake, hleads, hentries⟩ := h
  refine ⟨f', d, up, [], hmake, ?_, .inr fun _ => rfl⟩
  exact ⟨⟨hleads.noZero, hleads.short, hleads.walk⟩, hentries, fun _ _ => rfl, nofun, nofun,
    fun _ => ⟨rfl, rfl⟩⟩

/-- What a publishing command that succeeds does to the files. -/
theorem publish_files (hurl : Endpoint.parse url = .ok e) (hscheme : e.scheme = "file")
    (hmake : f.makeFolders e.localPath = (.ok (), f')) (hok : (publish f url topic ms).code = 0) :
    (FileLog.write ⟨e.localPath, .empty, false, none⟩ f' false topic ms true).result = .ok () ∧
      (publish f url topic ms).files =
        (FileLog.write ⟨e.localPath, .empty, false, none⟩ f' false topic ms true).files := by
  have hopen : Backends.builtin.openPublisher f false url =
      (.ok (.files ⟨e.localPath, .empty, false, none⟩), f', none) := by
    rw [Backends.openPublisher, resolve_files hurl hscheme rfl]
    simp only [PublisherWay.create, FileLog.create, hmake]
    rfl
  rw [publish, hopen] at hok ⊢
  simp only [Publisher.publishBatch, Publisher.Step.ofLog, Publisher.close, FileLog.publishBatch,
    close_files] at hok ⊢
  split at hok
  · cases hok
  · cases hok
  · next hwrite _ => exact ⟨hwrite, rfl⟩

/-- A publishing command that succeeds adds its batch to what was published. -/
theorem Kept.publish (h : Kept e.localPath f J) (hurl : Endpoint.parse url = .ok e)
    (hscheme : e.scheme = "file") (ht : Plain e.localPath topic)
    (hok : (publish f url topic ms).code = 0) :
    Kept e.localPath (publish f url topic ms).files (J.add topic ms) := by
  obtain ⟨f', d, up, es, hmake, hholds, -⟩ := h
  obtain ⟨hwrite, hfiles⟩ := publish_files hurl hscheme hmake hok
  obtain ⟨es', h'⟩ := hholds.wrote ht hwrite
  rw [hfiles]
  have hleads := h'.leads
  exact ⟨_, d, up, es', Files.makeFolders_leadsTo ⟨hleads.noZero, hleads.short, hleads.walk⟩
    h'.entries, h', .inl rfl⟩

end CommandLine

end PubSub
