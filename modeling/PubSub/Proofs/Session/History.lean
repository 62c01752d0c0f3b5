import PubSub.Proofs.Publisher.FileLog
import PubSub.Proofs.Registry
import PubSub.Proofs.Subscription.Files
import PubSub.Session

/-!
# Histories of file logs

Any number of logs are opened on one folder, written to and closed, in any order. Each topic's file
is then the records of all that was published on the topic with success, and a new subscription is
given just these messages (`history_replayed`).
-/

namespace PubSub

/-! ## Sessions without subscriptions -/

theorem Bus.settle_idle {σ : Type} {drive : σ → Action σ} {b : Bus σ} (h : b.subscriptions = [])
    (fuel : Nat) : b.settle drive fuel = b := by
  cases fuel with
  | zero => rfl
  | succ fuel =>
    have hstep : b.step? drive = none := by simp [step?, h]
    rw [settle, hstep]

theorem Session.settled_idle {s : Session} (h : s.bus.subscriptions = []) : s.settled = s := by
  rw [settled, Bus.settled, Bus.settle_idle h]

/-! ## Commands on a folder -/

open Session (Target PublisherCommand Command Reply)
open Files (LeadsTo)

/-- A target whose topic is a plain name, or was held as one. -/
def PlainTarget (root : Bytes) : Target → Prop
  | .topic _ topic => Plain root topic
  | .handle _ => True

/-- The commands that open logs on a folder, by its path or by a URL, and use them; and those that
cancel tokens. -/
def OnFolder (root : Bytes) : Command → Prop
  | .publisher (.files _ path) => path = root
  | .publisher (.open _ url _ _) => ∀ e, Endpoint.parse url = .ok e → e.localPath = root
  | .publisher (.publish target _ _) => PlainTarget root target
  | .publisher (.publishBatch target _ _) => PlainTarget root target
  | .publisher (.close _) => True
  | .publisher (.hold _ topic _) => Plain root topic
  | .publisher (.topicName _) => True
  | .publisher (.topicPath _ _) => True
  | .publisher (.sameTopic _ _ _) => True
  | .cancel _ => True
  | _ => False

namespace Session

/-- The topic and the messages of a command that publishes. -/
def batch? (s : Session) : Command → Option (String × List Message)
  | .publisher (.publish target m _) => (s.target? target).map fun (_, topic) => (topic, [m])
  | .publisher (.publishBatch target batch _) =>
    (s.target? target).map fun (_, topic) => (topic, batch)
  | _ => none

/-- The session as a command finds it: the events of the one before are gone. -/
def cleared (s : Session) : Session := s.setWorld { s.world with events := [] }

/-- The session after some commands. -/
def runs (s : Session) (cs : List Command) : Session := cs.foldl (fun s c => (s.run c).2) s

end Session

/-- A journal with the messages that a command publishes, if the reply to it is success. -/
def Journal.after (J : Journal) (batch : Option (String × List Message)) (reply : Reply) :
    Journal :=
  match batch, reply with
  | some (topic, ms), .done (.ok ()) => J.add topic ms
  | _, _ => J

/-- What commands publish with success, by topic, in the order of the commands. -/
def journalFrom (J : Journal) (s : Session) : List Command → Journal
  | [] => J
  | c :: cs => journalFrom (J.after (s.batch? c) (s.run c).1) (s.run c).2 cs

/-! ## The invariant -/

/-- A session whose publishers are all logs on one folder, which hold the journal. -/
structure Keeps (root : Bytes) (d : Nat) (up : List Nat) (B : String → Bytes)
    (es : List (Bytes × Nat)) (J : Journal) (s : Session) : Prop where
  holds : Holds root d up B s.world.files es J
  logs : ∀ p ∈ s.world.publishers, ∃ log, p = .files log ∧ LogOn root es log
  named : ∀ {name : String} {n : Nat}, s.world.publisherNames.get? name = some n →
    n < s.world.publishers.length
  held : ∀ {name t : String} {n : Nat}, s.handles.get? name = some (n, t) →
    n < s.world.publishers.length ∧ Plain root t
  idle : s.bus.subscriptions = []
  registry : ∀ name, s.registry name = Backends.builtin

variable {root : Bytes} {d : Nat} {up : List Nat} {B : String → Bytes}
  {es : List (Bytes × Nat)} {J : Journal} {s : Session}

/-- One more log. -/
theorem Keeps.addPublisher (h : Keeps root d up B es J s) (name : String) :
    Keeps root d up B es J
      (s.setWorld (s.world.addPublisher name (.files ⟨root, NameMap.empty, false, none⟩))) := by
  refine ⟨h.holds, ?_, ?_, ?_, h.idle, h.registry⟩
  · intro p hp
    rcases List.mem_append.1 hp with hp | hp
    · exact h.logs p hp
    · refine ⟨_, List.mem_singleton.1 hp, rfl, ?_⟩
      intro t n hn
      simp at hn
  · intro name' n hn
    simp only [World.addPublisher, Session.setWorld, Session.world, NameMap.get?_insert] at hn ⊢
    rw [List.length_append]
    split at hn
    · cases hn
      exact Nat.lt_succ_self _
    · exact Nat.lt_succ_of_lt (h.named hn)
  · intro name' t n hn
    obtain ⟨hlt, ht⟩ := h.held hn
    refine ⟨?_, ht⟩
    simp only [World.addPublisher, Session.setWorld, Session.world, List.length_append]
    exact Nat.lt_succ_of_lt hlt

theorem Keeps.target (h : Keeps root d up B es J s) {target : Target} (ht : PlainTarget root target)
    {n : Nat} {topic : String} (hs : s.target? target = some (n, topic)) :
    n < s.world.publishers.length ∧ Plain root topic := by
  cases target with
  | topic publisher t =>
    simp only [Session.target?, Option.map_eq_some_iff, Prod.mk.injEq] at hs
    obtain ⟨n', hn, rfl, rfl⟩ := hs
    exact ⟨h.named hn, ht⟩
  | handle name => exact h.held hs

/-- What a call on a log changed is taken over. -/
theorem Keeps.settles (h : Keeps root d up B es J s) {topic : String} {es' : List (Bytes × Nat)}
    {J' : Journal} {step : FileLog.Step} (n : Nat) (hadds : Adds topic es es')
    (hlog : LogOn root es' step.log) (hfiles : Holds root d up B step.files es' J') :
    Keeps root d up B es' J' (s.setWorld (s.world.settlePublisher n (.ofLog step)).2) := by
  have hlen : (s.setWorld (s.world.settlePublisher n (.ofLog step)).2).world.publishers.length =
      s.world.publishers.length := List.length_set
  refine ⟨hfiles, ?_, ?_, ?_, h.idle, h.registry⟩
  · intro p hp
    rcases List.mem_or_eq_of_mem_set hp with hp | rfl
    · obtain ⟨log, rfl, hl⟩ := h.logs p hp
      exact ⟨log, rfl, hl.adds hadds⟩
    · exact ⟨step.log, rfl, hlog⟩
  · intro name m hm
    rw [hlen]
    exact h.named hm
  · intro name t m hm
    rw [hlen]
    exact h.held hm

theorem Keeps.log (h : Keeps root d up B es J s) {n : Nat} (hn : n < s.world.publishers.length) :
    ∃ log, s.world.publishers[n]? = some (.files log) ∧ LogOn root es log := by
  obtain ⟨log, hp, hl⟩ := h.logs _ (List.getElem_mem hn)
  exact ⟨log, by rw [List.getElem?_eq_getElem hn, hp], hl⟩

/-! ## Single commands -/

/-- What is left alone by a command that publishes on no topic but `topic`. -/
structure Leaves (topic : Option String) (es es' : List (Bytes × Nat)) (J J' : Journal) : Prop where
  entries : ∀ t, topic ≠ some t → es'.lookup (Utf8.ofText t) = es.lookup (Utf8.ofText t)
  journal : ∀ t, topic ≠ some t → J' t = J t

theorem Leaves.refl (topic : Option String) (es : List (Bytes × Nat)) (J : Journal) :
    Leaves topic es es J J := ⟨fun _ _ => rfl, fun _ _ => rfl⟩

theorem Adds.leaves {topic : String} {es' : List (Bytes × Nat)} (h : Adds topic es es')
    (J : Journal) (ms : List Message) : Leaves (some topic) es es' J (J.add topic ms) := by
  constructor
  · intro t ht
    exact h.lookup_other fun hte => ht (congrArg some hte.symm)
  · intro t ht
    exact J.add_other (fun hte => ht (congrArg some hte.symm)) ms

/-- A call that writes a batch on the log of a target. -/
theorem Keeps.writes (h : Keeps root d up B es J s) {n : Nat} {topic : String}
    (hn : n < s.world.publishers.length) (ht : Plain root topic) {batch : List Message}
    {asBatch cancelled : Bool} {r : Except Error Unit} {w : World}
    (hcall : ∀ log, s.world.publishers[n]? = some (.files log) →
      (r, w) = s.world.settlePublisher n
        (.ofLog (log.write s.world.files cancelled topic batch asBatch))) :
    ∃ es' J', Keeps root d up B es' J' (s.setWorld w) ∧ Leaves (some topic) es es' J J' ∧
      (r = .ok () ∧ J' = J.add topic batch ∨ r ≠ .ok () ∧ J' = J) := by
  obtain ⟨log, hp, hl⟩ := h.log hn
  obtain ⟨es', hadds, hlog, hres⟩ := h.holds.write hl ht cancelled batch asBatch
  have hrw := hcall log hp
  have hr : r = (log.write s.world.files cancelled topic batch asBatch).result :=
    congrArg Prod.fst hrw
  have hw : w = (s.world.settlePublisher n
      (.ofLog (log.write s.world.files cancelled topic batch asBatch))).2 :=
    congrArg Prod.snd hrw
  rw [hr, hw]
  rcases hres with ⟨hok, hfiles⟩ | ⟨-, -, hfail, hfiles⟩
  · exact ⟨es', _, h.settles n hadds hlog hfiles, hadds.leaves J batch, .inl ⟨hok, rfl⟩⟩
  · refine ⟨es', J, h.settles n hadds hlog hfiles, ?_, .inr ⟨hfail, rfl⟩⟩
    have := hadds.leaves J []
    rwa [J.add_nil] at this

theorem publish_log {w : World} {n : Nat} {log : FileLog}
    (hp : w.publishers[n]? = some (.files log)) (cancelled : Bool) (topic : String) (m : Message) :
    w.publish n cancelled topic m =
      w.settlePublisher n (.ofLog (log.write w.files cancelled topic [m] false)) := by
  rw [World.publish, World.callPublisher, hp]
  rfl

theorem publishBatch_log {w : World} {n : Nat} {log : FileLog}
    (hp : w.publishers[n]? = some (.files log)) (cancelled : Bool) (topic : String)
    (batch : List Message) :
    w.publishBatch n cancelled topic batch =
      w.settlePublisher n (.ofLog (log.write w.files cancelled topic batch true)) := by
  rw [World.publishBatch, World.callPublisher, hp]
  rfl

theorem Journal.after_done (J : Journal) {topic : String} {ms : List Message}
    {r : Except Error Unit} {J' : Journal}
    (hJ : r = .ok () ∧ J' = J.add topic ms ∨ r ≠ .ok () ∧ J' = J) :
    J.after (some (topic, ms)) (.done r) = J' := by
  rcases hJ with ⟨rfl, rfl⟩ | ⟨hne, rfl⟩
  · rfl
  · match r, hne with
    | .ok (), hne => exact absurd rfl hne
    | .error e, _ => rfl

/-- What a command keeps: the invariant, with its messages if it had success, and all topics but
its own as they were. -/
def Carries (root : Bytes) (d : Nat) (up : List Nat) (B : String → Bytes)
    (es : List (Bytes × Nat)) (J : Journal) (batch : Option (String × List Message))
    (step : Reply × Session) : Prop :=
  ∃ es', Keeps root d up B es' (J.after batch step.1) step.2 ∧
    Leaves (batch.map (·.1)) es es' J (J.after batch step.1)

theorem Keeps.carries (h : Keeps root d up B es J s) (reply : Reply) :
    Carries root d up B es J none (reply, s) :=
  ⟨es, h, .refl _ _ _⟩

/-- A command that writes a batch to a target. -/
theorem Keeps.carries_batch (h : Keeps root d up B es J s) {target : Target}
    (ht : PlainTarget root target) {batch : List Message} {asBatch cancelled : Bool}
    {call : World → Nat → String → Except Error Unit × World}
    (hcall : ∀ n topic log, s.world.publishers[n]? = some (.files log) →
      call s.world n topic = s.world.settlePublisher n
        (.ofLog (log.write s.world.files cancelled topic batch asBatch))) :
    Carries root d up B es J ((s.target? target).map fun (_, topic) => (topic, batch))
      (s.call target call) := by
  rw [Session.call]
  cases hs : s.target? target with
  | none => exact h.carries .nothing
  | some x =>
    obtain ⟨n, topic⟩ := x
    obtain ⟨hn, hplain⟩ := h.target ht hs
    cases hrw : call s.world n topic with
    | mk r w =>
      obtain ⟨es', J', hkeeps, hleaves, hJ⟩ := h.writes hn hplain (r := r) (w := w)
        fun log hp => by rw [← hrw]; exact hcall n topic log hp
      have hafter := J.after_done hJ
      simp only [hrw, Option.map_some]
      refine ⟨es', ?_, ?_⟩
      · rw [hafter]
        exact hkeeps
      · rw [hafter]
        exact hleaves

theorem Keeps.carries_close (h : Keeps root d up B es J s) (publisher : String) :
    Carries root d up B es J none
      (s.call (.topic publisher "") fun w n _ => w.closePublisher n) := by
  rw [Session.call]
  cases hs : s.target? (.topic publisher "") with
  | none => exact h.carries .nothing
  | some x =>
    obtain ⟨n, topic⟩ := x
    simp only [Session.target?, Option.map_eq_some_iff, Prod.mk.injEq] at hs
    obtain ⟨n', hname, rfl, rfl⟩ := hs
    obtain ⟨log, hp, hl⟩ := h.log (h.named hname)
    have hfiles : Holds root d up B (log.close s.world.files).files es J := by
      rw [close_files]
      exact h.holds
    have hadds : Adds "" es es := .inl rfl
    have hkeeps := h.settles n' hadds (hl.close s.world.files) hfiles
    simp only [World.closePublisher, World.callPublisher, hp]
    exact hkeeps.carries _

theorem Keeps.carries_files (h : Keeps root d up B es J s) (name : String) :
    Carries root d up B es J none (s.runPublisher (.files name root)) := by
  have hcreate : FileLog.create s.world.files root =
      (.ok ⟨root, NameMap.empty, false, none⟩, s.world.files) := by
    rw [FileLog.create, Files.makeFolders_leadsTo h.holds.leads h.holds.entries]
  rw [Session.runPublisher, hcreate]
  exact (h.addPublisher name).carries _

theorem builtin_publishers {scheme : String} {way : PublisherWay}
    (h : Backends.builtin.publishers.get? scheme = some way) : way = .files := by
  simp only [Backends.builtin, NameMap.ofList, List.foldl_cons, List.foldl_nil,
    NameMap.get?_insert, NameMap.get?_empty] at h
  split at h
  · exact (Option.some.inj h).symm
  · cases h

theorem Keeps.carries_open (h : Keeps root d up B es J s) (name : String) {url : String}
    (registry token : Option String)
    (hurl : ∀ e, Endpoint.parse url = .ok e → e.localPath = root) :
    Carries root d up B es J none (s.runPublisher (.open name url registry token)) := by
  have hcalled : ∀ calls, Keeps root d up B es J { s.mapFiles s.world.files with calls := calls } :=
    fun _ => ⟨h.holds, h.logs, h.named, h.held, h.idle, h.registry⟩
  simp only [Session.runPublisher, h.registry, Backends.openPublisher]
  cases hr : Registry.resolve Backends.builtin.publishers (s.world.isCancelled? token) url with
  | error e => exact (hcalled _).carries _
  | ok x =>
    obtain ⟨way, e⟩ := x
    obtain ⟨hparse, hway, -⟩ := Session.resolve_eq_ok hr
    obtain rfl := builtin_publishers hway
    have hcreate : PublisherWay.create .files s.world.files e =
        (.ok (.files ⟨root, NameMap.empty, false, none⟩), s.world.files) := by
      rw [PublisherWay.create, FileLog.create, hurl e hparse,
        Files.makeFolders_leadsTo h.holds.leads h.holds.entries]
      rfl
    simp only [hcreate]
    exact ((hcalled _).addPublisher name).carries _

theorem Keeps.carries_hold (h : Keeps root d up B es J s) {publisher topic : String} (name : String)
    (ht : Plain root topic) :
    Carries root d up B es J none (s.runPublisher (.hold publisher topic name)) := by
  rw [Session.runPublisher]
  cases hs : s.target? (.topic publisher topic) with
  | none => exact h.carries _
  | some held =>
    have hkeeps : Keeps root d up B es J { s with handles := s.handles.insert name held } := by
      refine ⟨h.holds, h.logs, h.named, ?_, h.idle, h.registry⟩
      intro name' t n hn
      simp only [NameMap.get?_insert] at hn
      split at hn
      · cases hn
        have hplain : PlainTarget root (.topic publisher topic) := ht
        exact h.target hplain hs
      · exact h.held hn
    exact hkeeps.carries _

/-- What any command to publishers on the folder keeps. -/
theorem Keeps.carries_publisher (h : Keeps root d up B es J s) {c : PublisherCommand}
    (hc : OnFolder root (.publisher c)) :
    Carries root d up B es J (s.batch? (.publisher c)) (s.runPublisher c) := by
  cases c with
  | memory name => exact absurd hc id
  | files name path =>
    obtain rfl : path = root := hc
    exact h.carries_files name
  | limited name limit refusal => exact absurd hc id
  | «open» name url registry token => exact h.carries_open name registry token hc
  | publish target m token =>
    exact h.carries_batch hc fun n topic log hp => publish_log hp _ topic m
  | publishBatch target batch token =>
    exact h.carries_batch hc fun n topic log hp => publishBatch_log hp _ topic batch
  | close publisher => exact h.carries_close publisher
  | hold publisher topic name => exact h.carries_hold name hc
  | topicName target =>
    simp only [Session.runPublisher, Session.batch?]
    split <;> exact h.carries _
  | topicPath publisher topic =>
    simp only [Session.runPublisher, Session.batch?]
    split <;> exact h.carries _
  | sameTopic publisher a b => exact h.carries _
  | messages publisher topic => exact absurd hc id
  | stored topic => exact absurd hc id

/-- What any command keeps. -/
theorem Keeps.carries_command (h : Keeps root d up B es J s) {c : Command} (hc : OnFolder root c) :
    Carries root d up B es J (s.batch? c) (s.run c) := by
  have hcleared : Keeps root d up B es J s.cleared :=
    ⟨h.holds, h.logs, h.named, h.held, h.idle, h.registry⟩
  cases c with
  | publisher c =>
    have hcarries := hcleared.carries_publisher hc
    have hbatch : s.cleared.batch? (.publisher c) =
        s.batch? (.publisher c) := by
      cases c with
      | publish target m token => cases target <;> rfl
      | publishBatch target batch token => cases target <;> rfl
      | _ => rfl
    obtain ⟨es', hkeeps, hleaves⟩ := hcarries
    rw [hbatch] at hkeeps hleaves
    have hrun : s.run (.publisher c) = s.cleared.runPublisher c :=
      congrArg (Prod.mk _) (Session.settled_idle hkeeps.idle)
    rw [hrun]
    exact ⟨es', hkeeps, hleaves⟩
  | cancel token =>
    have hkeeps :
        Keeps root d up B es J (s.setWorld ({ s.world with events := [] }.cancel token)) :=
      ⟨h.holds, h.logs, h.named, h.held, h.idle, h.registry⟩
    have hrun : s.run (.cancel token) =
        (.done (.ok ()), s.setWorld ({ s.world with events := [] }.cancel token)) := by
      exact congrArg (Prod.mk _) (Session.settled_idle hkeeps.idle)
    rw [hrun]
    exact hkeeps.carries _
  | subscriber c => exact absurd hc id
  | subscription name c => exact absurd hc id
  | registry c => exact absurd hc id
  | files c => exact absurd hc id

/-! ## Whole histories -/

theorem Keeps.runs (h : Keeps root d up B es J s) {cs : List Command}
    (hcs : ∀ c ∈ cs, OnFolder root c) :
    ∃ es', Keeps root d up B es' (journalFrom J s cs) (s.runs cs) := by
  induction cs generalizing s es J with
  | nil => exact ⟨es, h⟩
  | cons c cs ih =>
    obtain ⟨es', hkeeps, -⟩ := h.carries_command (hcs c List.mem_cons_self)
    exact ih hkeeps fun c hc => hcs c (List.mem_cons_of_mem _ hc)

/-- A session with no publishers, handles and subscriptions yet. -/
structure Unused (s : Session) : Prop where
  publishers : s.world.publishers = []
  names : s.world.publisherNames = NameMap.empty
  handles : s.handles = NameMap.empty
  subscriptions : s.bus.subscriptions = []
  registry : ∀ name, s.registry name = Backends.builtin

/-- The folder `root` holds topic files, with the contents `B`, and all writes succeed. -/
def HoldsBefore (root : Bytes) (B : String → Bytes) (f : Files) : Prop :=
  ∃ d up es, Holds root d up B f es fun _ => []

/-- The folder `root` is empty, and all writes succeed. -/
structure IsEmpty (root : Bytes) (f : Files) : Prop where
  folder : ∃ d up, LeadsTo f root d up ∧ f.entries? d = some []
  unbraked : ∀ size count, f.brake size count = none

theorem IsEmpty.holds {f : Files} (h : IsEmpty root f) : HoldsBefore root (fun _ => []) f := by
  obtain ⟨d, up, hleads, hentries⟩ := h.folder
  refine ⟨d, up, [], hleads, hentries, h.unbraked, ?_, ?_, ?_⟩
  · intro name n hn
    cases hn
  · intro name name' n hn
    cases hn
  · intro t ht
    exact ⟨rfl, rfl⟩

theorem Unused.keeps (h : Unused s) (hf : HoldsBefore root B s.world.files) :
    ∃ d up es, Keeps root d up B es (fun _ => []) s := by
  obtain ⟨d, up, es, hholds⟩ := hf
  refine ⟨d, up, es, hholds, ?_, ?_, ?_, h.subscriptions, h.registry⟩
  · intro p hp
    rw [h.publishers] at hp
    cases hp
  · intro name n hn
    rw [h.names, NameMap.get?_empty] at hn
    cases hn
  · intro name t n hn
    rw [h.handles, NameMap.get?_empty] at hn
    cases hn

/-- What a new subscription to a topic reads from. -/
theorem Keeps.opens (h : Keeps root d up B es J s) {r : Subscribing} (ht : Plain root r.topic)
    (hstart : r.options.start ≠ some .newest) :
    (B r.topic = [] ∧ J r.topic = [] ∧
        r.toFiles s.world.files root = .ok (r.spawn none (.replay (.stop (.ok ()))))) ∨
      ∃ n, r.toFiles s.world.files root = .ok (r.spawn (some (.start n)) (.replay .wait)) ∧
        s.world.files.read n = .ok (B r.topic ++ FileLog.records (J r.topic)) := by
  have hlocate := Files.locate_join h.holds.leads ht.name ht.short h.holds.entries
  cases hn : es.lookup (Utf8.ofText r.topic) with
  | none =>
    rw [hn] at hlocate
    obtain ⟨hB, hJ⟩ := h.holds.absent hn
    exact .inl ⟨hB, hJ, toFiles_missing hstart hlocate⟩
  | some n =>
    rw [hn] at hlocate
    refine .inr ⟨n, toFiles_found hstart hlocate, ?_⟩
    rw [Files.read, h.holds.node hn]

/-- A write with a live token succeeds on a log that is open. -/
theorem Keeps.accepts (h : Keeps root d up B es J s) {target : Target} {n : Nat} {topic : String}
    {log : FileLog} {token : Option String} (ht : PlainTarget root target)
    (htarget : s.target? target = some (n, topic))
    (hlog : s.world.publishers[n]? = some (.files log)) (hopen : log.closed = false)
    (hlive : s.world.isCancelled? token = false) :
    (∀ m, (s.run (.publisher (.publish target m token))).1 = .done (.ok ())) ∧
      ∀ batch, (s.run (.publisher (.publishBatch target batch token))).1 = .done (.ok ()) := by
  obtain ⟨hn, hplain⟩ := h.target ht htarget
  obtain ⟨log', hp, hl⟩ := h.log hn
  obtain rfl : log' = log := by
    rw [hlog] at hp
    cases hp
    rfl
  have hwrite : ∀ batch asBatch, (log'.write s.world.files false topic batch asBatch).result =
      .ok () := by
    intro batch asBatch
    obtain ⟨es', -, -, ⟨hok, -⟩ | ⟨hbad, -⟩⟩ := h.holds.write hl hplain false batch asBatch
    · exact hok
    · simp [hopen] at hbad
  have hreply : ∀ c call, s.cleared.runPublisher c =
      s.cleared.call target call →
      (call s.cleared.world n topic).1 = .ok () →
      (s.run (.publisher c)).1 = .done (.ok ()) := by
    intro c call hcall hok
    have hs₀ : s.cleared.target? target = some (n, topic) := by
      rw [← htarget]
      cases target <;> rfl
    change (s.cleared.runPublisher c).1 = .done (.ok ())
    rw [hcall, Session.call, hs₀]
    simp only [hok]
  have hlog₀ : s.cleared.world.publishers[n]? = some (.files log') := hlog
  constructor
  · intro m
    apply hreply (.publish target m token)
      (fun w n topic => w.publish n (w.isCancelled? token) topic m) rfl
    rw [publish_log hlog₀]
    exact (congrArg (fun x => (log'.write s.world.files x topic [m] false).result) hlive).trans
      (hwrite [m] false)
  · intro batch
    apply hreply (.publishBatch target batch token)
      (fun w n topic => w.publishBatch n (w.isCancelled? token) topic batch) rfl
    rw [publishBatch_log hlog₀]
    exact (congrArg (fun x => (log'.write s.world.files x topic batch true).result) hlive).trans
      (hwrite batch true)

/-- Logs on a folder keep each topic's file to what was published on the topic with success, which
is what a new subscription is given. A command leaves the files of all topics but its own alone, and
what an open log is given with a live token it writes. -/
theorem history_replayed (hs : Unused s) (hroot : IsEmpty root s.world.files) {cs : List Command}
    (hcs : ∀ c ∈ cs, OnFolder root c) :
    (∀ t, Plain root t →
      (s.runs cs).world.files.readPath (Path.join root (Utf8.ofText t)) =
          .ok (FileLog.records (journalFrom (fun _ => []) s cs t)) ∨
        (s.runs cs).world.files.readPath (Path.join root (Utf8.ofText t)) = .error .notFound ∧
          journalFrom (fun _ => []) s cs t = []) ∧
    (∀ r : Subscribing, Plain root r.topic → r.options.start ≠ some .newest → r.gated = false →
      (s.runs cs).world.isCancelled? r.options.governor = false →
      (∀ node content, r.handler.GoesOn (Undisturbed node content r.options.governor)) →
      ∃ sub, r.toFiles (s.runs cs).world.files root = .ok sub ∧
        Bus.Ends Loop.act (fun b => b.handled = journalFrom (fun _ => []) s cs r.topic ∧
          b.outcome? = some (.ok ()) ∧ Called r.options (s.runs cs).world [] b)
          (Bus.alone (s.runs cs).world sub)) ∧
    (∀ c t, OnFolder root c → Plain root t → ((s.runs cs).batch? c).map (·.1) ≠ some t →
      ((s.runs cs).run c).2.world.files.readPath (Path.join root (Utf8.ofText t)) =
        (s.runs cs).world.files.readPath (Path.join root (Utf8.ofText t))) ∧
    (∀ target n topic log token, PlainTarget root target →
      (s.runs cs).target? target = some (n, topic) →
      (s.runs cs).world.publishers[n]? = some (.files log) → log.closed = false →
      (s.runs cs).world.isCancelled? token = false →
      (∀ m, ((s.runs cs).run (.publisher (.publish target m token))).1 = .done (.ok ())) ∧
        ∀ batch, ((s.runs cs).run (.publisher (.publishBatch target batch token))).1 =
          .done (.ok ())) := by
  obtain ⟨d, up, es₀, h₀⟩ := hs.keeps hroot.holds
  obtain ⟨es, h⟩ := h₀.runs hcs
  refine ⟨?_, ?_, ?_, ?_⟩
  · intro t ht
    rw [h.holds.readPath ht]
    cases hn : es.lookup (Utf8.ofText t) with
    | none => exact .inr ⟨rfl, (h.holds.absent hn).2⟩
    | some n => exact .inl rfl
  · intro r ht hstart hgate hlive hh
    rcases h.opens ht hstart with ⟨-, hnone, hsub⟩ | ⟨n, hsub, hread⟩
    · refine ⟨_, hsub, (missing_ends hlive).mono ?_⟩
      intro b hb
      rw [hnone]
      exact AllCameTo.silent hb
    · exact ⟨_, hsub, replay_log hgate ⟨hread, hlive⟩ (hh n _)⟩
  · intro c t hc ht hne
    obtain ⟨es', h', hleaves⟩ := h.carries_command hc
    rw [h'.holds.readPath ht, h.holds.readPath ht, hleaves.entries t hne, hleaves.journal t hne]
  · intro target n topic log token ht htarget hlog hopen hlive
    exact h.accepts ht htarget hlog hopen hlive

theorem plain_t : Plain [47, 104] "t" :=
  ⟨⟨by decide, by decide, by decide, by decide, by decide, by decide⟩, by decide⟩

/-- Two logs on the folder `/h`, the second opened by a URL while the first is in use. -/
def twoLogs : List Command := [
  .publisher (.files "a" [47, 104]),
  .publisher (.publish (.topic "a" "t") (.ofText "x") none),
  .publisher (.open "b" "file:///h" none none),
  .publisher (.publishBatch (.topic "b" "t") [.ofText "y", .ofText "z"] none),
  .publisher (.close "a"),
  .publisher (.publish (.topic "a" "t") (.ofText "w") none)]

theorem history_two_logs :
    let s := (Session.start [47, 104]).runs twoLogs
    let published : List Message := [.ofText "x", .ofText "y", .ofText "z"]
    s.world.files.readPath (Path.join [47, 104] (Utf8.ofText "t")) =
        .ok (FileLog.records published) ∧
      ∃ sub, Subscribing.plain.toFiles s.world.files [47, 104] = .ok sub ∧
        Bus.Ends Loop.act (fun b => b.handled = published ∧ b.outcome? = some (.ok ()) ∧
          Called Subscribing.plain.options s.world [] b) (Bus.alone s.world sub) := by
  intro s published
  have hunused : Unused (Session.start [47, 104]) :=
    ⟨rfl, rfl, rfl, rfl, fun name => by cases name <;> rfl⟩
  have hempty : IsEmpty [47, 104] (Session.start [47, 104]).world.files :=
    ⟨⟨4, [0], ⟨by decide, by decide, rfl⟩, rfl⟩, fun _ _ => rfl⟩
  have hurl : (Endpoint.parse "file:///h").toOption.map (·.localPath) = some [47, 104] := by
    decide +kernel
  have hfolder : ∀ c ∈ twoLogs, OnFolder [47, 104] c := by
    intro c hc
    simp only [twoLogs, List.mem_cons, List.not_mem_nil, or_false] at hc
    rcases hc with rfl | rfl | rfl | rfl | rfl | rfl
    · rfl
    · exact plain_t
    · intro e he
      rw [he] at hurl
      exact Option.some.inj hurl
    · exact plain_t
    · trivial
    · exact plain_t
  have hjournal : journalFrom (fun _ => []) (Session.start [47, 104]) twoLogs "t" = published := by
    decide +kernel
  obtain ⟨hfiles, hreplays, -, -⟩ := history_replayed hunused hempty hfolder
  obtain ⟨sub, hsub, hends⟩ := hreplays .plain plain_t (by decide) rfl rfl
    fun _ _ => Subscribing.plain_goesOn _
  refine ⟨?_, sub, hsub, ?_⟩
  · rcases hfiles "t" plain_t with hread | ⟨-, hnone⟩
    · rw [hjournal] at hread
      exact hread
    · rw [hjournal] at hnone
      exact absurd hnone (List.cons_ne_nil _ _)
  · have htopic : journalFrom (fun _ => []) (Session.start [47, 104]) twoLogs
        Subscribing.plain.topic = published := hjournal
    rw [htopic] at hends
    exact hends

end PubSub
