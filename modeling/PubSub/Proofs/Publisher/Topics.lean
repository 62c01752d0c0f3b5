import PubSub.Proofs.Files.OneName
import PubSub.Proofs.Publisher.FileLog
import PubSub.Proofs.Subscription.Files

/-!
# Topics of a log

A log takes any text for the name of a topic. Names without slashes are names of files in its root
folder, each of its own: what is published to one of them is not seen in another
(`topics_apart`). A name with a slash may lead out of the folder, or to the file of another topic
(`topics_dotted`).
-/

namespace PubSub

open Files (OneName EntryAt Makes Touches LeadsTo Grows HasPlace)

namespace FileLog

/-! ## Calls -/

inductive Call where
  | publish (topic : String) (m : Message) (cancelled : Bool)
  | publishBatch (topic : String) (batch : List Message) (cancelled : Bool)
  | close

/-- The topic and the messages of a call that publishes. -/
def Call.batch? : Call → Option (String × List Message)
  | .publish topic m _ => some (topic, [m])
  | .publishBatch topic batch _ => some (topic, batch)
  | .close => none

def Call.topic? (c : Call) : Option String := c.batch?.map (·.1)

def perform (log : FileLog) (files : Files) : Call → Step
  | .publish topic m cancelled => log.publish files cancelled topic m
  | .publishBatch topic batch cancelled => log.publishBatch files cancelled topic batch
  | .close => log.close files

/-- A log and its files after calls. -/
def performAll (log : FileLog) (files : Files) : List Call → FileLog × Files
  | [] => (log, files)
  | c :: cs => (log.perform files c).log.performAll (log.perform files c).files cs

/-- The topics to which calls published with success. -/
def published (log : FileLog) (files : Files) : List Call → List String
  | [] => []
  | c :: cs =>
    let s := log.perform files c
    (if s.result.isOk then c.topic?.toList else []) ++ s.log.published s.files cs

/-! ## One write -/

variable {root : Bytes} {f f' : Files} {log : FileLog} {n d : Nat} {up : List Nat} {name : Bytes}
  {t topic : String}

/-- What is open are files with a name, which the path of their topic ends with. -/
structure Sound (root : Bytes) (log : FileLog) (f : Files) : Prop where
  root : log.root = root
  oneName : OneName f
  opened : ∀ {t : String} {n : Nat}, log.openFiles.get? t = some n →
    ∃ d up name, EntryAt f (log.path t) d up name n

/-- The file that is written to has a name, which the path of its topic ends with; it was made if
need be. -/
theorem Sound.file_ok (hs : Sound root log f) (h : log.file f topic = (.ok n, f')) :
    Makes f f' ∧ ∃ d up name, EntryAt f' (log.path topic) d up name n := by
  rw [FileLog.file] at h
  split at h
  · next k hk =>
    cases h
    exact ⟨.nothing, hs.opened hk⟩
  · have hmakes := Files.makes_openAppend f (log.path topic)
    rw [h] at hmakes
    exact ⟨hmakes, Files.entryAt_openAppend h⟩

theorem file_error {e : SystemError} (h : log.file f topic = (.error e, f')) : f' = f := by
  rw [FileLog.file] at h
  split at h
  · cases h
  · exact Files.openAppend_error h

theorem touches_appendRecords (f : Files) (n : Nat) (batch : List Message) :
    Touches n f (appendRecords f n batch).2.2 := by
  induction batch generalizing f with
  | nil => exact .refl n f
  | cons m batch ih =>
    have happend := Files.touches_append f n (Record.line m)
    rw [appendRecords]
    split
    · next e f₁ h₁ =>
      rw [h₁] at happend
      exact happend
    · next f₁ h₁ =>
      rw [h₁] at happend
      exact happend.trans (ih f₁)

theorem touches_cutBack (f : Files) (n length : Nat) (topic : String) :
    Touches n f (cutBack f n length topic).1 := by
  have hcut := Files.touches_cut f n length
  rw [cutBack]
  split
  · next f₁ h₁ =>
    rw [h₁] at hcut
    exact hcut
  · next e f₁ h₁ =>
    rw [h₁] at hcut
    exact hcut

theorem touches_appendTo (log : FileLog) (f : Files) (n : Nat) (topic : String)
    (batch : List Message) (asBatch : Bool) :
    Touches n f (log.appendTo f n topic batch asBatch).files := by
  have happend := touches_appendRecords f n batch
  rw [appendTo]
  split
  · next k f₁ h₁ =>
    rw [h₁] at happend
    exact happend
  · next k e f₁ h₁ =>
    rw [h₁] at happend
    exact happend.trans (touches_cutBack f₁ n _ topic)

theorem appendTo_log (log : FileLog) (f : Files) (n : Nat) (topic : String)
    (batch : List Message) (asBatch : Bool) :
    (log.appendTo f n topic batch asBatch).log = log := by
  rw [appendTo]
  split <;> rfl

theorem appendRecords_file {batch : List Message} {k : Nat} {content : Bytes}
    (hn : f.node? n = some (.file content)) (h : appendRecords f n batch = (k, none, f')) :
    f'.node? n = some (.file (content ++ records batch)) := by
  induction batch generalizing f content k with
  | nil =>
    cases h
    rw [records, List.flatMap_nil, List.append_nil]
    exact hn
  | cons m batch ih =>
    rw [appendRecords] at h
    split at h
    · cases h
    · next f₁ h₁ =>
      have hnew : f₁.node? n = some (.file (content ++ Record.line m)) := by
        rw [Files.append, hn] at h₁
        simp only at h₁
        split at h₁
        · cases h₁
          rw [Files.node?_setNode (Files.node?_lt hn), if_pos rfl]
        · cases h₁
      cases hrest : appendRecords f₁ n batch with
      | mk k' rest =>
        obtain ⟨e, f₂⟩ := rest
        rw [hrest] at h
        cases h
        rw [records, List.flatMap_cons, ← List.append_assoc]
        exact ih hnew hrest

/-- A write that succeeds has written to a file, since no device is secured, and all of it. -/
theorem appendTo_file {batch : List Message} {asBatch : Bool}
    (h : (log.appendTo f n topic batch asBatch).result = .ok ()) :
    ∃ content, f.node? n = some (.file content) ∧
      (log.appendTo f n topic batch asBatch).files.node? n =
        some (.file (content ++ records batch)) := by
  have htouches := touches_appendRecords f n batch
  rw [appendTo] at h ⊢
  split at h
  · next k f₁ h₁ =>
    rw [h₁] at htouches
    simp only [Files.sync] at h
    split at h
    · next c hc =>
      obtain ⟨content, hcontent⟩ : ∃ content, f.node? n = some (.file content) := by
        rcases htouches.itself with hs | ⟨c', -, hc', -⟩
        · exact ⟨c, hs.symm.trans hc⟩
        · exact ⟨c', hc'⟩
      exact ⟨content, hcontent, appendRecords_file hcontent h₁⟩
    · cases h
  · next k e f₁ h₁ =>
    simp only at h
    split at h <;> cases h

/-- What a call may do: change no file, or make a file if need be and change the content of the one
that the path of its topic leads to. -/
inductive Does (root : Bytes) (log : FileLog) (f : Files) :
    Option (String × List Message) → Step → Prop
  | nothing {batch? : Option (String × List Message)} {s : Step} : s.files = f →
      s.log.root = root →
      (∀ {t : String} {n : Nat}, s.log.openFiles.get? t = some n →
        log.openFiles.get? t = some n) →
      (s.result = .ok () → batch? = none) → Does root log f batch? s
  | writes {topic : String} {batch : List Message} {s : Step} {n d : Nat} {f₁ : Files}
      {up : List Nat} {name : Bytes} :
      Makes f f₁ → EntryAt f₁ (log.path topic) d up name n → Touches n f₁ s.files →
      s.log = { log with openFiles := log.openFiles.insert topic n } →
      (s.result = .ok () → ∃ content, f₁.node? n = some (.file content) ∧
        s.files.node? n = some (.file (content ++ records batch))) →
      Does root log f (some (topic, batch)) s

theorem does_write (hs : Sound root log f) (cancelled : Bool) (topic : String)
    (batch : List Message) (asBatch : Bool) :
    Does root log f (some (topic, batch)) (log.write f cancelled topic batch asBatch) := by
  by_cases hc : cancelled = true
  · rw [write, if_pos hc]
    exact .nothing rfl hs.root id (by simp)
  by_cases hclosed : log.closed = true
  · rw [write, if_neg hc, if_pos hclosed]
    exact .nothing rfl hs.root id (by simp)
  rw [write, if_neg hc, if_neg hclosed]
  cases hfile : log.file f topic with
  | mk r f₁ =>
    cases r with
    | error e => exact .nothing (file_error hfile) hs.root id (by simp)
    | ok n =>
      obtain ⟨hmakes, d, up, name, hentry⟩ := hs.file_ok hfile
      exact .writes hmakes hentry (touches_appendTo _ _ _ _ _ _) (appendTo_log _ _ _ _ _ _)
        appendTo_file

theorem does_close (hs : Sound root log f) : Does root log f none (log.close f) := by
  refine .nothing (close_files log f) ?_ ?_ fun _ => rfl
  · rw [close]
    split
    · exact hs.root
    · exact hs.root
  · intro t n hn
    rw [close] at hn
    split at hn
    · exact hn
    · simp at hn

theorem does_perform (hs : Sound root log f) (c : Call) :
    Does root log f c.batch? (log.perform f c) := by
  cases c with
  | publish topic m cancelled => exact does_write hs cancelled topic [m] false
  | publishBatch topic batch cancelled => exact does_write hs cancelled topic batch true
  | close => exact does_close hs

namespace Does

variable {batch? : Option (String × List Message)} {s : Step}

theorem grows (h : Does root log f batch? s) : Grows f s.files := by
  cases h with
  | nothing hf =>
    rw [hf]
    exact .refl f
  | writes hmakes _ htouches => exact hmakes.grows.trans htouches.grows

theorem sound (h : Does root log f batch? s) (hs : Sound root log f) :
    Sound root s.log s.files := by
  have hgrows := h.grows
  cases h with
  | nothing hf hroot hopen =>
    refine ⟨hroot, by rw [hf]; exact hs.oneName, fun hn => ?_⟩
    rw [hf, path, hroot, ← hs.root]
    exact hs.opened (hopen hn)
  | @writes topic batch s n d f₁ up name hmakes hentry htouches hlog =>
    rw [hlog]
    refine ⟨hs.root, htouches.oneName (hmakes.oneName hs.oneName), ?_⟩
    intro t m hm
    simp only [NameMap.get?_insert] at hm
    split at hm
    · next ht =>
      cases hm
      rw [ht]
      exact ⟨d, up, name, hentry.grows htouches.grows⟩
    · obtain ⟨d', up', name', h'⟩ := hs.opened hm
      exact ⟨d', up', name', h'.grows hgrows⟩

/-- A file stays a file. -/
theorem file (h : Does root log f batch? s) {content : Bytes}
    (hn : f.node? n = some (.file content)) :
    ∃ content', s.files.node? n = some (.file content') := by
  cases h with
  | nothing hf =>
    rw [hf]
    exact ⟨content, hn⟩
  | writes hmakes _ htouches => exact htouches.file_kept (hmakes.file_kept hn)

/-- A file keeps its content unless the path of the topic leads to it. -/
theorem spares (h : Does root log f batch? s) {content : Bytes}
    (hn : f.node? n = some (.file content))
    (hother : ∀ topic d up name, batch?.map (·.1) = some topic →
      ¬ EntryAt s.files (log.path topic) d up name n) :
    s.files.node? n = some (.file content) := by
  cases h with
  | nothing hf =>
    rw [hf]
    exact hn
  | @writes topic batch s m d f₁ up name hmakes hentry htouches =>
    have hne : n ≠ m := by
      rintro rfl
      exact hother topic d up name rfl (hentry.grows htouches.grows)
    rw [htouches.others n hne]
    exact hmakes.file_kept hn

/-- Where a call that succeeds has published: behind all that the file held before. -/
theorem stores {batch : List Message} (h : Does root log f (some (t, batch)) s)
    (hok : s.result = .ok ()) :
    ∃ d up name n content, EntryAt s.files (log.path t) d up name n ∧
      s.files.node? n = some (.file (content ++ records batch)) ∧
      ∀ old, f.node? n = some (.file old) → content = old := by
  cases h with
  | nothing _ _ _ hnone => cases hnone hok
  | @writes topic batch s n d f₁ up name hmakes hentry htouches hlog hfile =>
    obtain ⟨content, hbefore, hcontent⟩ := hfile hok
    refine ⟨d, up, name, n, content, hentry.grows htouches.grows, hcontent, fun old hold => ?_⟩
    have hkept := hmakes.file_kept hold
    rw [hbefore] at hkept
    cases hkept
    rfl

end Does

/-! ## Names without slashes -/

/-- A name without slashes that is written to is the name of a file in the root folder. -/
theorem entryAt_join (ht : Path.slash ∉ Utf8.ofText t)
    (h : EntryAt f (Path.join root (Utf8.ofText t)) d up name n) :
    name = Utf8.ofText t ∧ Plain root t ∧ LeadsTo f root d up := by
  obtain ⟨es, hp, -⟩ := h.place
  obtain ⟨hzero, hpath, hshort⟩ := Files.of_checkPath hp.check
  have hne : Utf8.ofText t ≠ [] := by
    intro hnil
    have hslash := h.noSlash
    rw [hnil] at hpath hslash
    rcases Path.join_cases root (List.not_mem_nil (a := Path.slash)) with
      ⟨rfl, hj⟩ | ⟨r, -, hj⟩ | ⟨-, hj⟩
    · exact hpath hj
    · rw [hj] at hslash
      simp [Path.endsInSlash] at hslash
    · rw [hj] at hslash
      simp [Path.endsInSlash] at hslash
  have hnames := Path.names_join root hne ht
  have hname : name = Utf8.ofText t := by
    have hlast := hp.last
    rw [hnames, List.getLast?_concat] at hlast
    exact (Option.some.inj hlast).symm
  subst hname
  obtain ⟨between, hjoin⟩ := Path.join_eq root ht
  have hroot : (0 : UInt8) ∉ root ∧ (0 : UInt8) ∉ Utf8.ofText t ∧
      root.length ≤ Files.longestPath := by
    rw [hjoin] at hzero hshort
    simp only [List.mem_append, not_or, List.length_append] at hzero hshort
    exact ⟨hzero.1.1, hzero.2, by omega⟩
  have hisName : IsName (Utf8.ofText t) :=
    ⟨hne, ht, hroot.2.1, hp.notHere, hp.notAbove, hp.short⟩
  refine ⟨rfl, ⟨hisName, hshort⟩, hroot.1, hroot.2.2, ?_⟩
  have hwalk := hp.walk
  rw [hnames, List.dropLast_concat, Files.origin_join f root hisName] at hwalk
  exact hwalk

end FileLog

/-- The file of a topic is node `n`, a regular file in the root folder under the name of the
topic. -/
structure Stored (root : Bytes) (f : Files) (topic : String) (n : Nat) (content : Bytes) :
    Prop where
  plain : Plain root topic
  folder : ∃ d up es, LeadsTo f root d up ∧ f.entries? d = some es ∧
    es.lookup (Utf8.ofText topic) = some n
  file : f.node? n = some (.file content)

namespace Stored

open FileLog (Sound Does)

variable {root : Bytes} {f f' : Files} {log : FileLog} {n : Nat} {a b t : String} {content : Bytes}

theorem locate (h : Stored root f t n content) :
    f.locate (Path.join root (Utf8.ofText t)) = .ok n := by
  obtain ⟨d, up, es, hleads, he, hn⟩ := h.folder
  rw [Files.locate_join hleads h.plain.name h.plain.short he, hn]

theorem grows (h : Stored root f t n content) (hg : Grows f f') {content' : Bytes}
    (hn : f'.node? n = some (.file content')) : Stored root f' t n content' := by
  obtain ⟨d, up, es, hleads, he, hlook⟩ := h.folder
  obtain ⟨more, hmore⟩ := hg.entries he
  exact ⟨h.plain, ⟨d, up, _, hleads.grows hg, hmore, Files.lookup_append_of_some hlook⟩, hn⟩

theorem of_entryAt (ht : Path.slash ∉ Utf8.ofText t) {d : Nat} {up : List Nat} {name : Bytes}
    (h : EntryAt f (Path.join root (Utf8.ofText t)) d up name n)
    (hn : f.node? n = some (.file content)) : Stored root f t n content := by
  obtain ⟨rfl, hplain, hleads⟩ := FileLog.entryAt_join ht h
  obtain ⟨es, hp, hlook⟩ := h.place
  exact ⟨hplain, ⟨d, up, es, hleads, hp.entries, hlook⟩, hn⟩

/-- A topic has one file. -/
theorem unique {n' : Nat} {content' : Bytes} (h : Stored root f t n content)
    (h' : Stored root f t n' content') : n = n' ∧ content = content' := by
  have hn := h.locate
  rw [h'.locate] at hn
  cases hn
  have hc := h.file
  rw [h'.file] at hc
  cases hc
  exact ⟨rfl, rfl⟩

/-- A call on another topic leaves the file as it is. -/
theorem perform_other (h : Stored root f a n content) (hs : Sound root log f) (hab : a ≠ b)
    (hb : Path.slash ∉ Utf8.ofText b) {c : FileLog.Call} (hc : c.topic? = some b) :
    Stored root (log.perform f c).files a n content := by
  have hdoes := FileLog.does_perform hs c
  have hsound := hdoes.sound hs
  obtain ⟨d, up, es, hleads, he, hlook⟩ := h.folder
  obtain ⟨more, hmore⟩ := hdoes.grows.entries he
  refine h.grows hdoes.grows (hdoes.spares h.file ?_)
  intro topic d' up' name htopic hentry
  obtain rfl : topic = b := Option.some.inj (htopic.symm.trans hc)
  rw [FileLog.path, hs.root] at hentry
  obtain ⟨es', hp, hlook'⟩ := hentry.place
  obtain ⟨-, hname⟩ := hsound.oneName.apart hmore hp.entries
    (Files.lookup_append_of_some hlook) hlook'
  obtain ⟨hb', -⟩ := FileLog.entryAt_join hb hentry
  exact hab (ofText_injective (hname.trans hb'))

/-- A call on the topic itself that succeeds appends its records. -/
theorem perform_same (h : Stored root f a n content) (hs : Sound root log f) {c : FileLog.Call}
    {batch : List Message} (hc : c.batch? = some (a, batch))
    (hok : (log.perform f c).result = .ok ()) :
    Stored root (log.perform f c).files a n (content ++ FileLog.records batch) := by
  have hdoes := FileLog.does_perform hs c
  have hgrows := hdoes.grows
  rw [hc] at hdoes
  obtain ⟨d, up, name, m, before, hentry, hnew, hbefore⟩ := hdoes.stores hok
  rw [FileLog.path, hs.root] at hentry
  obtain ⟨content', hcontent'⟩ := hdoes.file h.file
  have hstays := h.grows hgrows hcontent'
  have hstored := of_entryAt h.plain.name.noSlash hentry hnew
  obtain ⟨rfl, hcc⟩ := hstays.unique hstored
  rw [hbefore content h.file] at hstored
  exact hstored

theorem performAll (h : Stored root f t n content) (hs : Sound root log f)
    (cs : List FileLog.Call) :
    ∃ content', Stored root (log.performAll f cs).2 t n content' := by
  induction cs generalizing log f content with
  | nil => exact ⟨content, h⟩
  | cons c cs ih =>
    have hdoes := FileLog.does_perform hs c
    obtain ⟨content', hcontent'⟩ := hdoes.file h.file
    exact ih (h.grows hdoes.grows hcontent') (hdoes.sound hs)

/-- A subscription to the topic is to the file, and comes to what the handler makes of its
records. -/
theorem replayed {r : Subscribing} (h : Stored root f r.topic n content)
    (hstart : r.options.start ≠ some .newest) (hgate : r.gated = false)
    (hspares : r.handler.Spares (Undisturbed n content r.options.governor)) {w : World}
    (hlive : w.isCancelled? r.options.governor = false) :
    r.toFiles f root = .ok (r.spawn (some (.start n)) (.replay .wait)) ∧
      Bus.Ends Loop.act
        (AllCameTo (PubSub.replayed r.options r.handler [] (Record.stream .start content)) w.told)
        (Bus.alone { w with files := f } (r.spawn (some (.start n)) (.replay .wait))) := by
  have hread : f.read n = .ok content := by rw [Files.read, h.file]
  have hw : Undisturbed n content r.options.governor { w with files := f } := ⟨hread, hlive⟩
  exact ⟨toFiles_found hstart h.locate, replay_ends hgate hw (hspares.keeps hw [] _)⟩

end Stored

namespace FileLog

variable {root : Bytes} {f : Files} {log : FileLog} {t : String}

theorem Sound.performAll (hs : Sound root log f) (cs : List FileLog.Call) :
    Sound root (log.performAll f cs).1 (log.performAll f cs).2 := by
  induction cs generalizing log f with
  | nil => exact hs
  | cons c cs ih => exact ih ((does_perform hs c).sound hs)

theorem Sound.create {f₀ : Files} (hf : OneName f₀) (h : FileLog.create f₀ root = (.ok log, f)) :
    Sound root log f := by
  have hmade := hf.makeFolders root
  rw [FileLog.create] at h
  split at h
  · next f₁ h₁ =>
    rw [h₁] at hmade
    cases h
    refine ⟨rfl, hmade, fun hn => ?_⟩
    simp at hn
  · cases h

theorem Sound.stored (hs : Sound root log f) (ht : Path.slash ∉ Utf8.ofText t)
    {cs : List FileLog.Call} (h : t ∈ log.published f cs) :
    ∃ n content, Stored root (log.performAll f cs).2 t n content := by
  induction cs generalizing log f with
  | nil => cases h
  | cons c cs ih =>
    have hdoes := does_perform hs c
    rw [published, List.mem_append] at h
    rcases h with h | h
    · have hok : (log.perform f c).result = .ok () := by
        cases hr : (log.perform f c).result with
        | error e => simp [hr, Except.isOk, Except.toBool] at h
        | ok u => rfl
      obtain ⟨batch, hbatch⟩ : ∃ batch, c.batch? = some (t, batch) := by
        rw [hok] at h
        have htopic : c.topic? = some t := by simpa [Except.isOk, Except.toBool] using h
        obtain ⟨⟨t', batch⟩, hb, rfl⟩ := Option.map_eq_some_iff.1 htopic
        exact ⟨batch, hb⟩
      have hsound := hdoes.sound hs
      rw [hbatch] at hdoes
      obtain ⟨d, up, name, n, content, hentry, hnew, -⟩ := hdoes.stores hok
      rw [path, hs.root] at hentry
      obtain ⟨content', hstored⟩ := (Stored.of_entryAt ht hentry hnew).performAll hsound cs
      exact ⟨n, content', hstored⟩
    · exact ih (hdoes.sound hs) h

end FileLog

/-! ## Topics apart -/

/-- Topics whose names hold no slash are apart. What was published to such a topic with success is
in a regular file of the root folder that has the name of the topic. What is published to it later
is appended there, and a call on another such topic, successful or not, changes neither the file
nor what a subscription to it comes to. -/
theorem topics_apart {f₀ f₁ : Files} {root : Bytes} {log : FileLog} (hf : OneName f₀)
    (hlog : FileLog.create f₀ root = (.ok log, f₁)) {cs : List FileLog.Call} {a : String}
    (ha : Path.slash ∉ Utf8.ofText a) (hpub : a ∈ log.published f₁ cs) :
    let now := log.performAll f₁ cs
    ∃ n content, Stored root now.2 a n content ∧
      (∀ c batch, c.batch? = some (a, batch) → (now.1.perform now.2 c).result = .ok () →
        Stored root (now.1.perform now.2 c).files a n (content ++ FileLog.records batch)) ∧
      ∀ b c, a ≠ b → Path.slash ∉ Utf8.ofText b → c.topic? = some b →
        Stored root (now.1.perform now.2 c).files a n content ∧
        ∀ (r : Subscribing) (w : World), r.topic = a → r.options.start ≠ some .newest →
          r.gated = false → r.handler.Spares (Undisturbed n content r.options.governor) →
          w.isCancelled? r.options.governor = false →
          ∃ sub v, r.toFiles now.2 root = .ok sub ∧
            r.toFiles (now.1.perform now.2 c).files root = .ok sub ∧
            Bus.Ends Loop.act (AllCameTo v w.told) (Bus.alone { w with files := now.2 } sub) ∧
            Bus.Ends Loop.act (AllCameTo v w.told)
              (Bus.alone { w with files := (now.1.perform now.2 c).files } sub) := by
  intro now
  have hcreated := FileLog.Sound.create hf hlog
  have hs := hcreated.performAll cs
  obtain ⟨n, content, hstored⟩ := hcreated.stored ha hpub
  refine ⟨n, content, hstored, fun c batch hc hok => hstored.perform_same hs hc hok, ?_⟩
  intro b c hab hb hc
  have hafter := hstored.perform_other hs hab hb hc
  refine ⟨hafter, ?_⟩
  rintro r w rfl hstart hgate hspares hlive
  obtain ⟨hsub, hends⟩ := hstored.replayed hstart hgate hspares hlive
  obtain ⟨hsub', hends'⟩ := hafter.replayed hstart hgate hspares hlive
  exact ⟨_, _, hsub, hsub', hends, hends'⟩

/-- A log that was opened on the folder `/h`. -/
def FileLog.onH : FileLog := ⟨[47, 104], NameMap.empty, false, none⟩

open FileLog (onH) in
theorem topics_apart_two :
    let before := onH.performAll (.start [47, 104]) [.publish "t" (.ofText "x") false]
    let after := before.1.perform before.2 (.publish "u" (.ofText "y") false)
    "t" ∈ onH.published (.start [47, 104]) [.publish "t" (.ofText "x") false] ∧
      ∃ n content, Stored [47, 104] before.2 "t" n content ∧
        Stored [47, 104] after.files "t" n content ∧
        ∃ sub v, Subscribing.plain.toFiles before.2 [47, 104] = .ok sub ∧
          Bus.Ends Loop.act (AllCameTo v []) (Bus.alone (.start before.2) sub) ∧
          Bus.Ends Loop.act (AllCameTo v []) (Bus.alone (.start after.files) sub) := by
  intro before after
  have hopen : FileLog.create (.start [47, 104]) [47, 104] = (.ok onH, .start [47, 104]) := rfl
  have hpub : "t" ∈ onH.published (.start [47, 104]) [.publish "t" (.ofText "x") false] := by
    decide +kernel
  obtain ⟨n, content, hstored, -, hother⟩ := topics_apart (Files.oneName_start [47, 104]) hopen
    (by decide) hpub
  obtain ⟨hafter, hreplays⟩ := hother "u" (.publish "u" (.ofText "y") false) (by decide)
    (by decide) rfl
  obtain ⟨sub, v, hsub, -, hends, hends'⟩ := hreplays .plain (.start before.2) rfl (by decide) rfl
    (Subscribing.plain_goesOn _).spares rfl
  exact ⟨hpub, n, content, hstored, hafter, sub, v, hsub, hends, hends'⟩

open FileLog (onH records) in
/-- What is published to `./t` is in the file of the topic `t`, and what is published to `../t` is
in none of the folder. -/
theorem topics_dotted :
    let first : FileLog.Call := .publish "t" (.ofText "x") false
    let second : FileLog.Call := .publish "./t" (.ofText "y") false
    let third : FileLog.Call := .publish "../t" (.ofText "z") false
    let read (cs : List FileLog.Call) (path : Bytes) : Option Bytes :=
      ((onH.performAll (.start [47, 104]) cs).2.readPath path).toOption
    onH.published (.start [47, 104]) [first, second, third] = ["t", "./t", "../t"] ∧
      read [first] [47, 104, 47, 116] = some (records [.ofText "x"]) ∧
      read [first, second] [47, 104, 47, 116] = some (records [.ofText "x", .ofText "y"]) ∧
      read [first, second, third] [47, 104, 47, 116] =
        some (records [.ofText "x", .ofText "y"]) ∧
      read [first, second, third] [47, 116] = some (records [.ofText "z"]) := by
  intro first second third read
  decide +kernel

end PubSub
