import PubSub.Proofs.Subscription.Files
import PubSub.Proofs.Subscription.HangUp

/-!
# Whatever a file holds

What becomes of a subscription to a file is said in full by the records that can be read before its
end or its first flaw, and by the handler's answers to them (`contents_replayed`): in whatever order
the loop and its reader go on, and also if the loop waits for its reader at the end.
-/

namespace PubSub

variable {h : Handler} {o : SubscribeOptions} {ms : List Message} {k : Nat} {x : Except Error Unit}
  {w : World} {b : Bus Loop}

/-! ## The first call that stops -/

theorem replayed_stop {earlier : List Message} {m : Message}
    (hx : (h earlier m).verdict? none = some x) (rest : List (Except DecodeError Message)) :
    replayed o h earlier (.ok m :: rest) = ⟨m :: earlier, x, [], []⟩ := by
  rw [Reaction.verdict?] at hx
  rw [replayed]
  cases ho : (h earlier m).outcome with
  | panic text =>
    simp only [ho, Option.some.injEq] at hx
    rw [← hx]
  | flow flow =>
    cases flow with
    | «continue» => simp [ho, Reaction.cancels] at hx
    | done | abort cause =>
      simp only [ho, Option.some.injEq] at hx
      rw [← hx]

/-- Whatever comes after that call makes no difference. -/
theorem Handler.StopsFirst.replayed (hk : h.StopsFirst none ms k x)
    (rest : List (Except DecodeError Message)) :
    replayed o h [] (ms.map .ok ++ rest) = ⟨(ms.take (k + 1)).reverse, x, [], []⟩ := by
  obtain ⟨m, after, hms, htake, hgoes, hm⟩ := hk.split
  have hall : PubSub.replayed o h [] ((ms.take k).map .ok ++ .ok m :: (after.map .ok ++ rest)) =
      PubSub.replayed o h ((ms.take k).reverse ++ []) (.ok m :: (after.map .ok ++ rest)) :=
    replayed_goes hgoes _
  rw [← List.cons_append, ← List.map_cons, ← List.append_assoc, ← List.map_append, ← hms,
    List.append_nil, List.map_cons, List.cons_append, replayed_stop hm] at hall
  rw [hall, htake, List.reverse_append, List.reverse_singleton, List.singleton_append]

/-! ## Whole files -/

/-- A handler is not called for an error. -/
theorem Handler.Keeps.ended {K : World → Prop} {earlier : List Message}
    (hh : h.Keeps K w earlier (ms.map .ok)) (err : Option DecodeError) :
    h.Keeps K w earlier (ms.map .ok ++ err.toList.map .error) := by
  induction ms generalizing w earlier with
  | nil => cases err <;> trivial
  | cons m ms ih => exact ⟨hh.1, fun hgoes => ih (hh.2 hgoes)⟩

/-- What comes of a subscription to a file that holds the messages `ms` and then its end or `err`. -/
structure Bus.Replayed (o : SubscribeOptions) (h : Handler) (ms : List Message)
    (err : Option DecodeError) (w : World) (b : Bus Loop) : Prop where
  /-- The first call that stops the subscription is the last one. -/
  stopped : ∀ k x, h.StopsFirst none ms k x →
    b.handled = ms.take (k + 1) ∧ b.outcome? = some x ∧ Called o w [] b
  clean : (∀ k x, ¬ h.StopsFirst none ms k x) → err = none →
    b.handled = ms ∧ b.outcome? = some (.ok ()) ∧ Called o w [] b
  cutShort : (∀ k x, ¬ h.StopsFirst none ms k x) → ∀ e, err = some e → e.isEnd = true →
    b.handled = ms ∧ b.outcome? = some (.ok ()) ∧ Called o w [.codec e] b
  broken : (∀ k x, ¬ h.StopsFirst none ms k x) → ∀ e, err = some e → e.isEnd = false →
    b.handled = ms ∧ b.outcome? = some (.error (.codec e)) ∧ Called o w [] b

theorem AllCameTo.replayed {err : Option DecodeError}
    (hb : AllCameTo (replayed o h [] (ms.map .ok ++ err.toList.map .error)) w.told b) :
    b.Replayed o h ms err w := by
  have hall (hgoes : ∀ k x, ¬ h.StopsFirst none ms k x) :
      PubSub.replayed o h [] (ms.map .ok ++ err.toList.map .error) =
        PubSub.replayed o h ms.reverse (err.toList.map .error) := by
    rw [replayed_goes (goesThrough_all hgoes), List.append_nil]
  refine ⟨fun k x hk => ?_, fun hgoes herr => ?_, fun hgoes e herr he => ?_,
    fun hgoes e herr he => ?_⟩
  · rw [hk.replayed] at hb
    exact hb.silent
  · rw [hall hgoes, herr] at hb
    exact hb.silent
  · rw [hall hgoes, herr, Option.toList_some, List.map_singleton, PubSub.replayed, if_pos he] at hb
    exact hb.cutShort
  · rw [hall hgoes, herr, Option.toList_some, List.map_singleton, PubSub.replayed,
      if_neg (by simp [he])] at hb
    exact hb.silent

/-- Whatever bytes a file holds, a subscription to it ends, and comes to what its handler makes of
the records that can be read, one after another. -/
theorem contents_replayed {r : Subscribing} {root content : Bytes} {node : Nat}
    {err : Option DecodeError} (hread : Record.decodeAll content = (ms, err))
    (hstart : r.options.start ≠ some .newest) (hgate : r.gated = false)
    (hfile : w.files.locate (Path.join root (Utf8.ofText r.topic)) = .ok node)
    (hw : Undisturbed node content r.options.governor w)
    (hkeeps : r.handler.Keeps (Undisturbed node content r.options.governor) w [] (ms.map .ok)) :
    ∃ s, r.toFiles w.files root = .ok s ∧
      Bus.Ends Loop.act (·.Replayed r.options r.handler ms err w) (Bus.alone w s) ∧
      Rests Replay.Step (·.bus.Replayed r.options r.handler ms err w) ⟨w, s, false⟩ := by
  have hstream : Record.stream .start content = ms.map .ok ++ err.toList.map .error := by
    rw [Record.stream, ← Record.decodeAll, hread]
  have hkeeps' : r.handler.Keeps (Undisturbed node content r.options.governor) w []
      (Record.stream .start content) := by
    rw [hstream]
    exact hkeeps.ended err
  refine ⟨_, toFiles_found hstart hfile, ?_, ?_⟩
  · refine (replay_ends hgate hw hkeeps').mono fun b hb => ?_
    rw [hstream] at hb
    exact hb.replayed
  · refine (Replay.rests hgate hw hkeeps').mono fun x hx => ?_
    rw [hstream] at hx
    exact hx.replayed

open Record (logText)

/-- The lines of two records, and behind them a byte with which no record begins. -/
def brokenLog : Bytes := logText twoRecords ++ [120]

theorem decodeAll_brokenLog :
    ∃ e : DecodeError, e.isEnd = false ∧
      Record.decodeAll brokenLog = ([.ofText "a", .ofText "b"], some e) := by
  obtain ⟨p, u, hu, hlines⟩ := Record.readAll_behind twoRecords .start (t := [120]) rfl
  obtain ⟨e, he, hflaw⟩ := Record.readAll_broken p hu rfl
  refine ⟨e, ?_, ?_⟩
  · rw [DecodeError.isEnd, hflaw]
    rfl
  · rw [Record.decodeAll, brokenLog, hlines, he]
    rfl

/-- A subscription to the topic `t` whose handler aborts in its first call. -/
def Subscribing.abrupt : Subscribing :=
  ⟨"t", ⟨none, none, true⟩, fun _ _ => ⟨[], .flow (.abort (.plain "full"))⟩, false⟩

theorem contents_replayed_broken :
    let w := World.start (.single [116] brokenLog)
    ∃ e s s', Subscribing.plain.toFiles w.files [47] = .ok s ∧
      Subscribing.abrupt.toFiles w.files [47] = .ok s' ∧
      Bus.Ends Loop.act (fun b => b.handled = [.ofText "a", .ofText "b"] ∧
        b.outcome? = some (.error (.codec e)) ∧ Called Subscribing.plain.options w [] b)
        (Bus.alone w s) ∧
      Rests Replay.Step (fun x => x.bus.handled = [.ofText "a"] ∧
        x.bus.outcome? = some (.error (.handler (.plain "full"))) ∧
          Called Subscribing.abrupt.options w [] x.bus) ⟨w, s', false⟩ := by
  intro w
  obtain ⟨e, hend, hread⟩ := decodeAll_brokenLog
  have hfile : w.files.locate (Path.join [47] (Utf8.ofText "t")) = .ok 1 := rfl
  have hw : Undisturbed 1 brokenLog none w := ⟨rfl, rfl⟩
  have hspares (h : Handler) (hh : ∀ earlier m, (h earlier m).effects = []) :
      h.Spares (Undisturbed 1 brokenLog none) := fun earlier m v hv => by rwa [hh]
  obtain ⟨s, hs, hends, -⟩ := contents_replayed (r := .plain) hread (by decide) rfl hfile hw
    ((hspares _ fun _ _ => rfl).keeps hw [] _)
  obtain ⟨s', hs', -, hrests⟩ := contents_replayed (r := .abrupt) hread (by decide) rfl hfile hw
    ((hspares _ fun _ _ => rfl).keeps hw [] _)
  have hgoes (k : Nat) (x : Except Error Unit) :
      ¬ Subscribing.plain.handler.StopsFirst none [.ofText "a", .ofText "b"] k x := by
    rintro ⟨⟨m, -, hm⟩, -⟩
    cases hm
  have hfirst : Subscribing.abrupt.handler.StopsFirst none [.ofText "a", .ofText "b"] 0
      (.error (.handler (.plain "full"))) := ⟨⟨_, rfl, rfl⟩, nofun⟩
  exact ⟨e, s, s', hs, hs', hends.mono fun b hb => hb.broken hgoes e rfl hend,
    hrests.mono fun x hx => hx.stopped 0 _ hfirst⟩

end PubSub
