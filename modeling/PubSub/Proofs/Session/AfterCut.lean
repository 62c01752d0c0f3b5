import PubSub.Proofs.Session.History

/-!
# Publishing after a crash

A new log takes a file as it is, also where a crash has cut its last record short. What is published
then is replayed exactly if the cut does not lie strictly inside an object (`published_after_cut`).
Otherwise the lines behind the cut are lost to every reader.
-/

namespace PubSub

open Record (Written logText spans complete EndsInside)
open Session (Command)

variable {root : Bytes} {B : String → Bytes} {s : Session}

/-- What is replayed of a topic whose file was cut before logs went on with it. -/
theorem after_cut_ends (hs : Unused s) (hroot : HoldsBefore root B s.world.files)
    {cs : List Command} (hcs : ∀ c ∈ cs, OnFolder root c) {r : Subscribing}
    (ht : Plain root r.topic) {xs : List Written} (hcut : B r.topic <+: logText xs)
    (hnew : journalFrom (fun _ => []) s cs r.topic ≠ [])
    (hstart : r.options.start ≠ some .newest) (hgate : r.gated = false)
    (hlive : (s.runs cs).world.isCancelled? r.options.governor = false)
    (hh : ∀ node content, r.handler.GoesOn (Undisturbed node content r.options.governor)) :
    ∃ sub, r.toFiles (s.runs cs).world.files root = .ok sub ∧
      Bus.Ends Loop.act (fun b =>
        (EndsInside (B r.topic).length (spans 0 xs) →
          b.handled = complete (B r.topic).length (spans 0 xs)) ∧
        (¬ EndsInside (B r.topic).length (spans 0 xs) →
          b.handled = complete (B r.topic).length (spans 0 xs) ++
            journalFrom (fun _ => []) s cs r.topic ∧
          b.outcome? = some (.ok ()) ∧ Called r.options (s.runs cs).world [] b))
        (Bus.alone (s.runs cs).world sub) := by
  obtain ⟨d, up, es₀, h₀⟩ := hs.keeps hroot
  obtain ⟨es, h⟩ := h₀.runs hcs
  rcases h.opens ht hstart with ⟨-, hnone, -⟩ | ⟨n, hsub, hread⟩
  · exact absurd hnone hnew
  · exact ⟨_, hsub, replay_over hcut _ hgate ⟨hread, hlive⟩ (hh n _)⟩

/-- All complete records of a file that was cut, and all messages that were published after it, are
replayed if and only if the cut does not lie strictly inside an object. If it does, no message that
was published after the cut is replayed. -/
theorem published_after_cut (hs : Unused s) (hroot : HoldsBefore root B s.world.files)
    {cs : List Command} (hcs : ∀ c ∈ cs, OnFolder root c) {r : Subscribing}
    (ht : Plain root r.topic) {xs : List Written} (hcut : B r.topic <+: logText xs)
    (hnew : journalFrom (fun _ => []) s cs r.topic ≠ [])
    (hstart : r.options.start ≠ some .newest) (hgate : r.gated = false)
    (hlive : (s.runs cs).world.isCancelled? r.options.governor = false)
    (hh : ∀ node content, r.handler.GoesOn (Undisturbed node content r.options.governor)) :
    ∃ sub, r.toFiles (s.runs cs).world.files root = .ok sub ∧
      Bus.Ends Loop.act (fun b =>
        (b.handled = complete (B r.topic).length (spans 0 xs) ++
            journalFrom (fun _ => []) s cs r.topic ↔
          ¬ EndsInside (B r.topic).length (spans 0 xs)) ∧
        (EndsInside (B r.topic).length (spans 0 xs) →
          b.handled = complete (B r.topic).length (spans 0 xs)) ∧
        (¬ EndsInside (B r.topic).length (spans 0 xs) →
          b.outcome? = some (.ok ()) ∧ Called r.options (s.runs cs).world [] b))
        (Bus.alone (s.runs cs).world sub) := by
  obtain ⟨sub, hsub, hends⟩ := after_cut_ends hs hroot hcs ht hcut hnew hstart hgate hlive hh
  refine ⟨sub, hsub, hends.mono ?_⟩
  rintro b ⟨hin, hout⟩
  refine ⟨⟨?_, fun h => (hout h).1⟩, hin, fun h => (hout h).2⟩
  intro hhandled hinside
  rw [hin hinside] at hhandled
  exact hnew (List.append_right_eq_self.1 hhandled.symm)

/-! ## A file that was cut -/

/-- A session in the folder `/h`, whose file `t` holds the first `n` bytes of two records. -/
def afterCrash (n : Nat) : Session :=
  ((Session.start [47, 104]).run
    (.files (.write [47, 104, 47, 116] ((logText twoRecords).take n)))).2

/-- A log that is opened on the folder, and one message published with it. -/
def oneMore : List Command := [
  .publisher (.files "a" [47, 104]),
  .publisher (.publish (.topic "a" "t") (.ofText "c") none)]

theorem oneMore_onFolder : ∀ c ∈ oneMore, OnFolder [47, 104] c := by
  intro c hc
  simp only [oneMore, List.mem_cons, List.not_mem_nil, or_false] at hc
  rcases hc with rfl | rfl
  · rfl
  · exact plain_t

theorem afterCrash_unused (n : Nat) : Unused (afterCrash n) :=
  ⟨rfl, rfl, rfl, rfl, fun name => by cases name <;> rfl⟩

/-- What the files of the folder held when the crash came. -/
def cutAt (n : Nat) (topic : String) : Bytes :=
  if topic = "t" then (logText twoRecords).take n else []

theorem afterCrash_holds (n : Nat) :
    HoldsBefore [47, 104] (cutAt n) (afterCrash n).world.files := by
  have hlookup : ∀ {name : Bytes} {m : Nat}, [(([116] : Bytes), 5)].lookup name = some m →
      name = [116] ∧ m = 5 := by
    intro name m hm
    rw [List.lookup_cons] at hm
    by_cases hname : name = [116]
    · subst hname
      exact ⟨rfl, (Option.some.inj hm).symm⟩
    · simp [beq_eq_false_iff_ne.2 hname] at hm
  refine ⟨4, [0], [([116], 5)], ⟨by decide, by decide, rfl⟩, rfl, fun _ _ => rfl, ?_, ?_, ?_⟩
  · intro name m hm
    obtain ⟨rfl, rfl⟩ := hlookup hm
    refine ⟨"t", plain_t, rfl, ?_⟩
    have hcontent : cutAt n "t" ++ FileLog.records [] = (logText twoRecords).take n := by
      rw [cutAt, if_pos rfl]
      exact List.append_nil _
    rw [hcontent]
    rfl
  · intro name name' m hm hm'
    rw [(hlookup hm).1, (hlookup hm').1]
  · intro t hnone
    refine ⟨?_, rfl⟩
    have ht : t ≠ "t" := by
      rintro rfl
      cases hnone
    exact if_neg ht

theorem oneMore_published (n : Nat) (h : n = 25 ∨ n = 31) :
    journalFrom (fun _ => []) (afterCrash n) oneMore "t" = [.ofText "c"] := by
  rcases h with rfl | rfl
  · decide +kernel
  · decide +kernel

theorem prefix_cutAt (n : Nat) : cutAt n Subscribing.plain.topic <+: logText twoRecords := by
  have hcut : cutAt n Subscribing.plain.topic = (logText twoRecords).take n := if_pos rfl
  rw [hcut]
  exact List.take_prefix n _

/-- Cut before its last line feed only, the file is replayed with what came after. -/
theorem published_after_lost_lineFeed :
    let s := (afterCrash 31).runs oneMore
    ∃ sub, Subscribing.plain.toFiles s.world.files [47, 104] = .ok sub ∧
      Bus.Ends Loop.act (fun b => b.handled = [.ofText "a", .ofText "b", .ofText "c"] ∧
        b.outcome? = some (.ok ()) ∧ Called Subscribing.plain.options s.world [] b)
        (Bus.alone s.world sub) := by
  intro s
  have hnew := oneMore_published 31 (.inr rfl)
  have hne : journalFrom (fun _ => []) (afterCrash 31) oneMore Subscribing.plain.topic ≠ [] := by
    intro h
    exact List.cons_ne_nil _ _ (hnew.symm.trans h)
  have hlive : s.world.isCancelled? Subscribing.plain.options.governor = false := rfl
  obtain ⟨sub, hsub, hends⟩ := published_after_cut (afterCrash_unused 31) (afterCrash_holds 31)
    oneMore_onFolder plain_t (prefix_cutAt 31) hne (by decide) rfl hlive
    fun _ _ => Subscribing.plain_goesOn _
  refine ⟨sub, hsub, hends.mono ?_⟩
  rintro b ⟨hall, -, hend⟩
  have hout : ¬ EndsInside (cutAt 31 Subscribing.plain.topic).length (spans 0 twoRecords) := by
    decide
  have hcomplete : complete (cutAt 31 Subscribing.plain.topic).length (spans 0 twoRecords) =
      [.ofText "a", .ofText "b"] := by decide
  obtain ⟨houtcome, hcalled⟩ := hend hout
  refine ⟨?_, houtcome, hcalled⟩
  have hhandled := hall.2 hout
  rw [hcomplete] at hhandled
  rw [hhandled]
  exact congrArg ([Message.ofText "a", .ofText "b"] ++ ·) hnew

/-- Cut within its second object, the file is not replayed with what came after, though that was
published with success. -/
theorem cut_object_hides_later :
    let s := (afterCrash 25).runs oneMore
    cutAt 25 "t" <+: logText twoRecords ∧
      complete 25 (spans 0 twoRecords) = [.ofText "a"] ∧
      journalFrom (fun _ => []) (afterCrash 25) oneMore "t" = [.ofText "c"] ∧
      ∃ sub, Subscribing.plain.toFiles s.world.files [47, 104] = .ok sub ∧
        Bus.Ends Loop.act (fun b => b.handled = [.ofText "a"]) (Bus.alone s.world sub) ∧
        ¬ Bus.Ends Loop.act (fun b => b.handled = [.ofText "a", .ofText "c"])
          (Bus.alone s.world sub) := by
  intro s
  have hnew := oneMore_published 25 (.inl rfl)
  have hne : journalFrom (fun _ => []) (afterCrash 25) oneMore Subscribing.plain.topic ≠ [] := by
    intro h
    exact List.cons_ne_nil _ _ (hnew.symm.trans h)
  have hlive : s.world.isCancelled? Subscribing.plain.options.governor = false := rfl
  obtain ⟨sub, hsub, hends⟩ := after_cut_ends (afterCrash_unused 25) (afterCrash_holds 25)
    oneMore_onFolder plain_t (prefix_cutAt 25) hne (by decide) rfl hlive
    fun _ _ => Subscribing.plain_goesOn _
  have hin : EndsInside (cutAt 25 Subscribing.plain.topic).length (spans 0 twoRecords) := by
    decide
  have hcomplete : complete (cutAt 25 Subscribing.plain.topic).length (spans 0 twoRecords) =
      [.ofText "a"] := by decide
  have hone : Bus.Ends Loop.act (fun b => b.handled = [.ofText "a"]) (Bus.alone s.world sub) :=
    hends.mono fun b hb => (hb.1 hin).trans hcomplete
  refine ⟨prefix_cutAt 25, by decide, hnew, sub, hsub, hone, ?_⟩
  intro htwo
  obtain ⟨b, h₁, h₂⟩ := hone.both htwo
  rw [h₁] at h₂
  exact absurd h₂ (by decide)

end PubSub
