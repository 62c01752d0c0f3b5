import PubSub.Proofs.Subscription.FileStopping
import PubSub.Proofs.Subscription.Files
import PubSub.Proofs.Subscription.Memory

/-!
# The backends agree

A handler that is subscribed to the same messages in memory and in a file is handed the same of them
and comes to the same result (`backends_agree`).
-/

namespace PubSub

open Record (Written logText)

/-- The records of a file are read back as these messages, to a clean end. -/
def Record.Holds (content : Bytes) (ms : List Message) : Prop :=
  Record.readAll .start content = (ms, none)

theorem Record.Holds.stream {content : Bytes} {ms : List Message} (h : Holds content ms) :
    Record.stream .start content = ms.map .ok := by
  rw [Record.stream, h]
  exact List.append_nil _

theorem Record.holds_logText (xs : List Written) :
    Holds (logText xs) (xs.map (·.message)) :=
  readAll_lines xs .start rfl

namespace Subscribing

/-- The subscription is to messages in memory, where the messages `ms` are pending. -/
structure Seeded (r : Subscribing) (w : World) (n : Nat) (ms : List Message) (K : World → Prop) :
    Prop where
  oldest : r.options.start ≠ some .newest
  ungated : r.gated = false
  live : w.isCancelled? r.options.governor = false
  memory : ∃ shelf, w.subscribers[n]? = some (.memory shelf)
  pending : w.pending n r.topic = ms
  world : K w
  spares : r.handler.SparesPending K n r.topic

/-- The subscription is to a file that holds the messages `ms`. -/
structure Filed (r : Subscribing) (w : World) (n : Nat) (ms : List Message) (K : World → Prop) :
    Prop where
  oldest : r.options.start ≠ some .newest
  ungated : r.gated = false
  live : w.isCancelled? r.options.governor = false
  file : ∃ root node content, w.subscribers[n]? = some (.files root) ∧
    w.files.locate (Path.join root (Utf8.ofText r.topic)) = .ok node ∧
    Record.Holds content ms ∧ r.handler.SparesFile K node content
  world : K w

variable {r : Subscribing} {w : World} {n : Nat} {ms : List Message} {K : World → Prop}

theorem Seeded.ends (h : r.Seeded w n ms K)
    (hlast : r.handler.SparesLast r.options.governor [] ms) :
    ∃ s, r.toSubscriber w n = .ok s ∧
      Bus.Ends Loop.act (CameToJudgement (judged r.handler r.options.governor [] ms))
        (Bus.alone w s) := by
  obtain ⟨hstart, hgate, hlive, ⟨shelf, hmem⟩, rfl, hw, hspares⟩ := h
  refine ⟨r.spawn none (.memory (.start n r.topic)), ?_, drain_ends hgate hw hlive hspares hlast⟩
  rw [toSubscriber, hmem]
  simp only
  rw [toMemory, resolveStart_oldest hstart]
  rfl

theorem Filed.ends (h : r.Filed w n ms K)
    (hlast : r.handler.SparesLast r.options.governor [] ms) :
    ∃ s, r.toSubscriber w n = .ok s ∧
      Bus.Ends Loop.act (CameToJudgement (judged r.handler r.options.governor [] ms))
        (Bus.alone w s) := by
  obtain ⟨hstart, hgate, hlive, ⟨root, node, content, hfiles, hnode, hholds, hspares⟩, hw⟩ := h
  refine ⟨_, ?_, file_ends hgate hw hlive hspares hlast hholds.stream⟩
  rw [toSubscriber, hfiles]
  exact toFiles_found hstart hnode

end Subscribing

/-! ## Handlers that only cancel -/

/-- What a handler does on the way is to cancel tokens, and nothing else. -/
def Handler.OnlyCancels (h : Handler) : Prop :=
  ∀ earlier m, ∀ e ∈ (h earlier m).effects, ∃ token, e = .cancel token

theorem World.acts_cancels {es : List Effect} (hes : ∀ e ∈ es, ∃ token, e = .cancel token)
    (w : World) : ∃ tokens, es.foldl World.act w = { w with cancelled := tokens } := by
  induction es generalizing w with
  | nil => exact ⟨w.cancelled, rfl⟩
  | cons e es ih =>
    obtain ⟨⟨token, rfl⟩, hrest⟩ := List.forall_mem_cons.1 hes
    obtain ⟨tokens, htokens⟩ := ih hrest (w.cancel token)
    exact ⟨tokens, htokens⟩

theorem Handler.OnlyCancels.sparesPending {h : Handler} (hh : h.OnlyCancels) (n : Nat)
    (topic : String) : h.SparesPending (fun _ => True) n topic := by
  refine ⟨fun _ _ _ _ => trivial, fun earlier m w _ => ?_, fun _ _ _ => trivial⟩
  obtain ⟨tokens, htokens⟩ := World.acts_cancels (hh earlier m) w
  rw [htokens]
  rfl

theorem Handler.OnlyCancels.sparesFile {h : Handler} (hh : h.OnlyCancels) (node : Nat)
    (content : Bytes) :
    h.SparesFile (fun w => w.files.read node = .ok content) node content := by
  refine ⟨fun earlier m w hw => ?_, fun _ hw => hw⟩
  obtain ⟨tokens, htokens⟩ := World.acts_cancels (hh earlier m) w
  rw [htokens]
  exact hw

/-! ## The same messages in memory and in a file -/

/-- A handler on the same messages in memory and in a file is handed the same of them in the same
order, and both subscriptions come to the same result. They end with the first call that stops the
subscription, or with the last message if there is no such call. -/
theorem backends_agree {r r' : Subscribing} {w w' : World} {n n' : Nat} {ms : List Message}
    {K K' : World → Prop} (hhandler : r'.handler = r.handler)
    (hgovernor : r'.options.governor = r.options.governor) (hmemory : r.Seeded w n ms K)
    (hfile : r'.Filed w' n' ms K') (hlast : r.handler.SparesLast r.options.governor [] ms) :
    ∃ s s', r.toSubscriber w n = .ok s ∧ r'.toSubscriber w' n' = .ok s' ∧
      ∃ handled result,
        Bus.Ends Loop.act (fun b => b.handled = handled ∧ b.outcome? = some result)
          (Bus.alone w s) ∧
        Bus.Ends Loop.act (fun b => b.handled = handled ∧ b.outcome? = some result)
          (Bus.alone w' s') ∧
        (∀ k x, r.handler.StopsFirst r.options.governor ms k x →
          handled = ms.take (k + 1) ∧ result = x) ∧
        ((∀ k x, ¬ r.handler.StopsFirst r.options.governor ms k x) →
          handled = ms ∧ result = .ok ()) := by
  obtain ⟨s, hs, hends⟩ := hmemory.ends hlast
  obtain ⟨s', hs', hends'⟩ := hfile.ends (by rwa [hhandler, hgovernor])
  rw [hhandler, hgovernor] at hends'
  refine ⟨s, s', hs, hs', _, _, hends, hends', fun k x hk => ?_, fun hgoes => ?_⟩
  · rw [hk.judged]
    exact ⟨List.reverse_reverse _, rfl⟩
  · rw [judged_all hgoes]
    exact ⟨List.reverse_reverse _, rfl⟩

/-- The lines of three records. -/
def threeRecords : List Written :=
  [.sorted (.ofText "a"), .sorted (.ofText "b"), .sorted (.ofText "c")]

/-- A handler that cancels the governing token in its second call and goes on. -/
def Subscribing.cancelling : Subscribing :=
  ⟨"t", ⟨none, some "g", true⟩, fun earlier _ =>
    if earlier.length = 1 then ⟨[.cancel "g"], .flow .continue⟩ else .continue, false⟩

theorem Subscribing.cancelling_onlyCancels : cancelling.handler.OnlyCancels := by
  intro earlier m e he
  simp only [cancelling] at he
  split at he
  · exact ⟨"g", List.mem_singleton.1 he⟩
  · exact absurd he List.not_mem_nil

/-- Three messages in memory. -/
def World.threePending : World :=
  (World.start ⟨[], [], fun _ _ => none⟩).addSubscriber "m"
    (.memory (NameMap.empty.insert "t" (threeRecords.map (·.message))))

/-- Three messages in a file. -/
def World.threeOnFile : World :=
  (World.start (.single [116] (logText threeRecords))).addSubscriber "f" (.files [47])

theorem backends_agree_cancelling :
    ∃ s s', Subscribing.cancelling.toSubscriber World.threePending 0 = .ok s ∧
      Subscribing.cancelling.toSubscriber World.threeOnFile 0 = .ok s' ∧
      Bus.Ends Loop.act (fun b => b.handled = [.ofText "a", .ofText "b"] ∧
        b.outcome? = some (.error .cancelled)) (Bus.alone World.threePending s) ∧
      Bus.Ends Loop.act (fun b => b.handled = [.ofText "a", .ofText "b"] ∧
        b.outcome? = some (.error .cancelled)) (Bus.alone World.threeOnFile s') := by
  have hcancels := Subscribing.cancelling_onlyCancels
  have hmemory : Subscribing.cancelling.Seeded World.threePending 0
      (threeRecords.map (·.message)) fun _ => True :=
    ⟨by decide, rfl, rfl, ⟨_, rfl⟩, rfl, trivial, hcancels.sparesPending 0 "t"⟩
  have hfile : Subscribing.cancelling.Filed World.threeOnFile 0 (threeRecords.map (·.message))
      fun w => w.files.read 1 = .ok (logText threeRecords) :=
    ⟨by decide, rfl, rfl, ⟨[47], 1, _, rfl, rfl, Record.holds_logText threeRecords,
      hcancels.sparesFile 1 _⟩, rfl⟩
  have hlast : Subscribing.cancelling.handler.SparesLast (some "g") []
      (threeRecords.map (·.message)) := by
    intro before m hms _
    have hlength : before.length = 2 := by simpa [threeRecords] using (congrArg List.length hms).symm
    simp [Subscribing.cancelling, hlength, Reaction.cancels, Reaction.continue]
  obtain ⟨s, s', hs, hs', handled, result, hends, hends', hstops, -⟩ :=
    backends_agree rfl rfl hmemory hfile hlast
  have hfirst : Subscribing.cancelling.handler.StopsFirst (some "g") (threeRecords.map (·.message))
      1 (.error .cancelled) := by
    refine ⟨⟨.ofText "b", rfl, rfl⟩, fun j m hj hm => ?_⟩
    obtain rfl : j = 0 := by omega
    rfl
  obtain ⟨rfl, rfl⟩ := hstops 1 (.error .cancelled) hfirst
  exact ⟨s, s', hs, hs', hends, hends'⟩

end PubSub
