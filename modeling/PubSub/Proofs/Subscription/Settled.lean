import PubSub.Bus.Settled
import PubSub.Proofs.Bus.Settled
import PubSub.Proofs.Subscription.Files

/-!
# Replays on a bus that is left to itself

The fuel of a bus that is left to itself suffices for a replay, since no file has more records than
bytes. So a bus with one replay comes to rest, and to what any order of its steps comes to
(`replay_settles`, `missing_settles`).
-/

namespace PubSub

variable {w : World} {r : Subscribing} {node : Nat} {content : Bytes}

/-! ## Fuel -/

theorem le_total {α : Type} (size : α → Nat) {l : List α} {a : α} (h : a ∈ l) :
    size a ≤ total size l := by
  induction l with
  | nil => cases h
  | cons b l ih =>
    rcases List.mem_cons.1 h with rfl | h
    · exact Nat.le_add_right _ _
    · exact Nat.le_trans (ih h) (Nat.le_add_left _ _)

/-- A file is no larger than all files together. -/
theorem World.length_le_fileSize (h : w.files.node? node = some (.file content)) :
    content.length ≤ w.fileSize := by
  have hsize : w.files.size node = content.length := by rw [Files.size, h]
  rw [← hsize]
  exact le_total w.files.size (List.mem_range.2 (List.getElem?_eq_some_iff.1 h).1)

/-- A stream has no more records than bytes. -/
theorem Record.stream_length_le (place : Json.Position) (s : Bytes) :
    (stream place s).length ≤ s.length := by
  induction hn : s.length using Nat.strongRecOn generalizing place s with
  | ind n ih =>
    subst hn
    cases hnext : next place s with
    | finished =>
      rw [stream_finished hnext]
      exact Nat.zero_le _
    | broken e =>
      rw [stream_broken hnext]
      cases s with
      | nil => cases hnext
      | cons b s => exact Nat.succ_le_succ (Nat.zero_le _)
    | message m p rest =>
      have hshorter := (next_left hnext).shorter
      have hrest := ih rest.length hshorter p rest rfl
      rw [stream_message hnext, List.length_cons]
      omega

theorem fileSize_le_bound (w : World) (s : Subscription Loop) :
    16 * (w.fileSize + 16) ≤ (Bus.alone w s).bound := by
  have hbound : (Bus.alone w s).bound =
      16 * 2 * (w.fileSize + w.pendingSize + total (·.phase.size) [s] + 16) := rfl
  rw [hbound]
  omega

/-! ## Replays -/

/-- A bus with one replay comes to what the handler and the records of the file come to. -/
theorem replay_settles (hgate : r.gated = false)
    (hspares : r.handler.Spares (Undisturbed node content r.options.governor))
    (hlive : w.isCancelled? r.options.governor = false)
    (hnode : w.files.node? node = some (.file content)) :
    AllCameTo (replayed r.options r.handler [] (Record.stream .start content)) w.told
      (Bus.alone w (r.spawn (some (.start node)) (.replay .wait))).settled := by
  have hw : Undisturbed node content r.options.governor w := ⟨by rw [Files.read, hnode], hlive⟩
  have hfuel : stepsLeft content (.start node) (.loop .wait) ≤
      (Bus.alone w (r.spawn (some (.start node)) (.replay .wait))).bound := by
    have hrecords := Record.stream_length_le .start content
    have hsize := World.length_le_fileSize hnode
    have hbound := fileSize_le_bound w (r.spawn (some (.start node)) (.replay .wait))
    have hwork : (Feed.start node).work content =
        2 * (Record.stream .start content).length + 1 := rfl
    have hweight : (Stage.loop .wait).weight = 5 := rfl
    rw [stepsLeft, Feed.coming_start, hwork, hweight]
    omega
  have hstart : OneUnderway w.told node content
      (replayed r.options r.handler [] (Record.stream .start content))
      (stepsLeft content (.start node) (.loop .wait))
      (Bus.alone w (r.spawn (some (.start node)) (.replay .wait))) :=
    ⟨_, _, _, rfl, underway_start hgate hw (hspares.keeps hw [] _), rfl⟩
  obtain ⟨m, hunder, hrest⟩ := Bus.settle_rests (fun _ _ _ h hb => OneUnderway.step h hb)
    (fun _ _ _ h => h) hfuel hstart
  exact hunder.rest hrest

/-- A subscription without a file comes to its end at once. -/
theorem missing_settles (hlive : w.isCancelled? r.options.governor = false) :
    AllCameTo ⟨[], .ok (), [], []⟩ w.told
      (Bus.alone w (r.spawn none (.replay (.stop (.ok ()))))).settled := by
  have hfuel : 2 ≤ (Bus.alone w (r.spawn none (.replay (.stop (.ok ()))))).bound := by
    have hbound := fileSize_le_bound w (r.spawn none (.replay (.stop (.ok ()))))
    omega
  have hstart : Idle r.options w.told 2
      (Bus.alone w (r.spawn none (.replay (.stop (.ok ()))))) :=
    ⟨_, rfl, rfl, rfl, rfl, rfl, rfl, rfl, hlive, .inl ⟨rfl, rfl⟩⟩
  obtain ⟨m, hidle, hrest⟩ := Bus.settle_rests (fun _ _ _ h hb => Idle.step h hb)
    (fun _ _ _ h => h) hfuel hstart
  exact hidle.rest hrest

end PubSub
