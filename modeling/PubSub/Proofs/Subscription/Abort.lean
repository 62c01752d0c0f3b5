import PubSub.Proofs.Bus.Chronicle
import PubSub.Proofs.Dispatcher.Shared
import PubSub.Subscription.Script

/-!
# After a handler failure

A handler that aborts is called no more, and its failure is what a subscription comes to, whatever
its loop returns and whoever cancels (`abort_told`). There are two exceptions (`abort_hidden`): a
later failure of the transport takes its place, and nobody is told of either if the loop breaks
down. Where several tasks share the dispatcher, the failure is kept in the same way
(`SharedDispatcher.abort_kept`).
-/

namespace PubSub

variable {σ : Type}

/-- After an abort no handler call begins or ends. Whoever is told a result is told the fate of the
abort, which is the abort itself if the loop neither fails nor breaks down after it. -/
theorem abort_told (drive : σ → Action σ) (a : Attended σ) (topic : String)
    (options : SubscribeOptions) (handler : Handler) (gated : Bool) (feed : Option Feed) (st : σ)
    (deeds : List (Deed σ)) {cause : Cause} {pre post : List Happening}
    (h : (a.add (.spawn topic options handler gated feed st)).chronicle drive
      a.bus.subscriptions.length deeds = pre ++ .answered (.flow (.abort cause)) :: post) :
    (∀ m, .begun m ∉ post) ∧ (∀ o, .answered o ∉ post) ∧
      ∀ r, .told r ∈ pre ++ .answered (.flow (.abort cause)) :: post →
        Life.fate (.handler cause) post = some r ∧
          ((∀ e, .failed e ∉ post) → (∀ text, .ended (.panicked text) ∉ post) →
            r = .error (.handler cause)) := by
  obtain ⟨s', -, hfollows⟩ :=
    chronicle_spawn drive a topic options handler gated feed st deeds
  obtain ⟨hbegun, hanswered, htold⟩ := Life.Runs.aborted (h ▸ hfollows.runs)
  refine ⟨hbegun, hanswered, fun r hr => ?_⟩
  have hfate := htold r hr
  exact ⟨hfate, Life.fate_calm hfate⟩

/-! ## Loops that go on after an abort -/

/-- A handler that fails at once. -/
def Handler.broken : Handler := fun _ _ => ⟨[], .flow (.abort (.plain "broken"))⟩

/-- A loop that dispatches a message and then does as `rest` says. -/
def Loop.dispatching (rest : List Instruction) : Loop :=
  .script (.next (.dispatch (.ofText "a") :: rest))

/-- A bus on which nothing has begun. -/
def Attended.nothing : Attended Loop := ⟨.start (.start ⟨[], [], fun _ _ => none⟩), []⟩

/-- The subscription comes to its end while its governing token is cancelled and somebody asks it to
close. -/
def endTogether : List (Deed Loop) :=
  List.replicate 3 (.move (.loop 0 true)) ++ [.move (.cancel "g"), .close 0] ++
    List.replicate 3 (.move (.loop 0 true)) ++ [.comeBack 0]

/-- What happens until then to a subscription with a broken handler. -/
def Loop.historyOnBroken (rest : List Instruction) : List Happening :=
  (Attended.nothing.add (.spawn "t" ⟨none, some "g", true⟩ .broken false none
    (.dispatching rest))).chronicle Loop.act 0 endTogether

theorem abort_told_cancelled :
    let afterwards : List Happening :=
      [.revoked, .asked, .ended (.returned (.error .cancelled)),
        .captured (.error (.handler (.plain "broken"))),
        .told (.error (.handler (.plain "broken")))]
    Loop.historyOnBroken [.return (.error .cancelled)] =
        [.begun (.ofText "a")] ++ .answered (.flow (.abort (.plain "broken"))) :: afterwards ∧
      ∀ r, .told r ∈ afterwards → r = .error (.handler (.plain "broken")) := by
  intro afterwards
  have hhistory : Loop.historyOnBroken [.return (.error .cancelled)] =
      [.begun (.ofText "a")] ++ .answered (.flow (.abort (.plain "broken"))) :: afterwards := rfl
  obtain ⟨-, -, htold⟩ := abort_told Loop.act .nothing "t" ⟨none, some "g", true⟩ .broken false
    none (.dispatching [.return (.error .cancelled)]) endTogether hhistory
  refine ⟨hhistory, fun r hr => (htold r ?_).2 (by simp [afterwards]) (by simp [afterwards])⟩
  exact List.mem_append_right _ (List.mem_cons_of_mem _ hr)

/-- The handler fails, and yet somebody is told something else. -/
def Loop.HidesAbort (rest : List Instruction) : Prop :=
  .answered (.flow (.abort (.plain "broken"))) ∈ historyOnBroken rest ∧
    ∃ r, .told r ∈ historyOnBroken rest ∧ r ≠ .error (.handler (.plain "broken"))

/-- The failure of the handler does not win over a breakdown of the loop, nor over a later failure
of the transport. -/
theorem abort_hidden :
    Loop.HidesAbort [.panic "loop"] ∧ Loop.HidesAbort [.fail (.config "lost")] := by
  have hpanic : Loop.historyOnBroken [.panic "loop"] =
      [.begun (.ofText "a"), .answered (.flow (.abort (.plain "broken"))), .revoked, .asked,
        .ended (.panicked "loop"),
        .captured (.error (.task "task N panicked with message \"loop\"")),
        .told (.error (.task "task N panicked with message \"loop\""))] := rfl
  have hfail : Loop.historyOnBroken [.fail (.config "lost")] =
      [.begun (.ofText "a"), .answered (.flow (.abort (.plain "broken"))), .revoked, .asked,
        .failed (.config "lost"), .ended (.returned (.ok ())),
        .captured (.error (.config "lost")), .told (.error (.config "lost"))] := rfl
  rw [Loop.HidesAbort, Loop.HidesAbort, hpanic, hfail]
  constructor
  · exact ⟨by simp, .error (.task "task N panicked with message \"loop\""), by simp, by simp⟩
  · exact ⟨by simp, .error (.config "lost"), by simp, by simp⟩

/-! ## Loops of several tasks -/

namespace SharedDispatcher

variable {τ : Type} {h : Handler} {own : String} {d : SharedDispatcher τ}

/-- The dispatcher has stopped with the failure, and the handler has nothing to do. -/
structure FailedWith (e : Error) (d : SharedDispatcher τ) : Prop where
  alone : d.Alone
  stopped : d.state.isStopped
  failure : d.state.failure = some e
  notCleared : ∀ turn, d.inside ≠ [⟨turn, .checked⟩]
  notHandling : ∀ turn reaction, d.inside ≠ [⟨turn, .handling reaction⟩]
  notAnswering : ∀ turn outcome, d.inside ≠ [⟨turn, .answering outcome⟩]

theorem FailedWith.move {e : Error} (failed : d.FailedWith e) (m : DispatchMove τ)
    (calm : ∀ later, m ≠ .fail later) : (d.move h own m).FailedWith e := by
  have moves := move_moves h own failed.alone m
  have alone := failed.alone.move moves
  have stopped : (d.move h own m).state.isStopped := stopped_move failed.stopped m
  obtain ⟨-, halted, failure, notCleared, notHandling, notAnswering⟩ := failed
  generalize d.move h own m = d' at moves alone stopped ⊢
  cases moves with
  | clears place turn inside running => simp [running] at halted
  | begins place turn inside => exact absurd inside (notCleared turn)
  | acts place turn reaction inside => exact absurd inside (notHandling turn reaction)
  | breaks place turn text inside => exact absurd inside (notAnswering turn _)
  | answers place turn flow inside => exact absurd inside (notAnswering turn _)
  | fails later => exact absurd rfl (calm later)
  | locks | drops | leaves => exact ⟨alone, stopped, failure, by simp, by simp, by simp⟩
  | idle | refused | admitted | arrives | cancels =>
    exact ⟨alone, stopped, failure, notCleared, notHandling, notAnswering⟩

/-- While the transport does not fail, the failure of a handler that aborted is kept, whatever the
tasks do. -/
theorem abort_kept (alone : d.Alone) {turn : Turn τ} {cause : Cause}
    (inside : d.inside = [⟨turn, .answering (.flow (.abort cause))⟩])
    {moves : List (DispatchMove τ)} (calm : ∀ later, .fail later ∉ moves) :
    ((d.move h own (.advance 0)).run h own moves).state.failure = some (.handler cause) := by
  have first : (d.move h own (.advance 0)).FailedWith (.handler cause) := by
    have moved := alone.move (move_moves h own alone (.advance 0))
    refine ⟨moved, ?_, ?_, ?_, ?_, ?_⟩
    all_goals simp [move, inside, proceed, reach, Dispatcher.answer, Dispatcher.stop,
      Dispatcher.isStopped]
  generalize d.move h own (.advance 0) = d' at first
  induction moves generalizing d' with
  | nil => exact first.failure
  | cons m moves ih =>
    have calm' : ∀ later, m ≠ .fail later := fun later same =>
      calm later (same ▸ List.mem_cons_self)
    refine ih (fun later member => calm later (List.mem_cons_of_mem _ member)) _ ?_
    exact first.move m calm'

end SharedDispatcher

end PubSub
