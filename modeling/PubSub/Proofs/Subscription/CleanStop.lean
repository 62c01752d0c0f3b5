import PubSub.Proofs.Error
import PubSub.Proofs.Subscription.Abort

/-!
# Stops that are no cancellation

A subscription whose governing token is live is stopped by a call to close, by giving it up, or by
its handler, and none of these should be told as a cancellation. A loop that returns the bare
cancellation when it is stopped is not told so. But one that was stopped and returns it from within
a batch, or hands it to the dispatcher as a failure of the transport, is
(`cancellation_told_iff`, `cancellation_told_of_close`).
-/

namespace PubSub

variable {σ : Type}

/-- The result is a cancellation, bare or told from within batches. -/
def IsCancellation (r : Except Error Unit) : Prop := ∃ e, r = .error e ∧ e.isCancelled = true

/-- The last failure of a history, of the handler or of the transport. -/
def lastFailure? (t : List Happening) : Option Error :=
  (t.filterMap Happening.failure?).getLast?

/-- A loop has returned `r`, and a cancellation is told of it though the governing token is live. -/
def CancellationShows (failure : Option Error) (r : Except Error Unit) : Prop :=
  match failure with
  | some e => e.isCancelled = true
  | none => ∃ place places, r = .error (Error.cancelled.within (place :: places))

theorem isCancellation_error {e : Error} : IsCancellation (.error e) ↔ e.isCancelled = true :=
  ⟨fun ⟨_, he, h⟩ => by cases he; exact h, fun h => ⟨e, rfl, h⟩⟩

theorem not_isCancellation_ok : ¬ IsCancellation (.ok ()) := fun ⟨_, he, _⟩ => by cases he

theorem conclude_of_ne {r : Except Error Unit} (hr : r ≠ .error .cancelled) :
    Subscription.conclude false none (.returned r) = r := by
  cases r with
  | ok u => rfl
  | error e =>
    cases e with
    | cancelled => exact absurd rfl hr
    | invalidUrl | unknownScheme | config | unsupportedStart | batch | system | codec | handler |
      closed | task => rfl

theorem isCancellation_conclude (failure : Option Error) (r : Except Error Unit) :
    IsCancellation (Subscription.conclude false failure (.returned r)) ↔
      CancellationShows failure r := by
  cases failure with
  | some e => exact isCancellation_error
  | none =>
    by_cases hr : r = .error .cancelled
    · subst hr
      exact iff_of_false not_isCancellation_ok nofun
    · rw [conclude_of_ne hr]
      constructor
      · rintro ⟨e, rfl, he⟩
        obtain ⟨places, rfl⟩ := e.isCancelled_iff.1 he
        cases places with
        | nil => exact absurd rfl hr
        | cons place places => exact ⟨place, places, rfl⟩
      · rintro ⟨place, places, rfl⟩
        exact isCancellation_error.2 (Error.isCancelled_within (place :: places) .cancelled)

namespace Life

/-- While the governing token is live and the loop does not break down, whoever is told a result is
told the last failure or, if there was none, what the loop returned, where the bare cancellation
counts as a good end. -/
theorem Runs.told_calm {t : List Happening} {r : Except Error Unit} (h : (start false).Runs t)
    (hlive : .revoked ∉ t) (hpanic : ∀ text, .ended (.panicked text) ∉ t) (hr : .told r ∈ t) :
    ∃ q, .ended (.returned q) ∈ t ∧
      r = Subscription.conclude false (lastFailure? t) (.returned q) := by
  obtain ⟨e, rv, hended, hrv, hresult⟩ := h.result (h.over_of_told hr)
  have hfalse : rv = false := by
    cases rv with
    | false => rfl
    | true =>
      rcases (revoked_afterAll _ _).1 (hrv rfl) with hstart | hmem
      · cases hstart
      · exact absurd hmem hlive
  subst hfalse
  cases e with
  | returned q => exact ⟨q, hended, hresult⟩
  | panicked text => exact absurd hended (hpanic text)

end Life

/-- While the governing token of a subscription is live and its loop does not break down, whoever
is told a cancellation is told one that the loop gave: it was the last failure that was recorded, or
nothing failed and the loop returned it from within a batch. -/
theorem cancellation_told_iff (drive : σ → Action σ) (a : Attended σ) (topic : String)
    (options : SubscribeOptions) (handler : Handler) (gated : Bool) (feed : Option Feed) (st : σ)
    (deeds : List (Deed σ)) {history : List Happening}
    (hhistory : (a.add (.spawn topic options handler gated feed st)).chronicle drive
      a.bus.subscriptions.length deeds = history)
    (hstart : a.bus.world.isCancelled? options.governor = false) (hlive : .revoked ∉ history)
    (hpanic : ∀ text, .ended (.panicked text) ∉ history) {r : Except Error Unit}
    (hr : .told r ∈ history) :
    ∃ q, .ended (.returned q) ∈ history ∧
      (IsCancellation r ↔ CancellationShows (lastFailure? history) q) := by
  obtain ⟨s', -, hfollows⟩ := chronicle_spawn drive a topic options handler gated feed st deeds
  rw [hhistory, hstart] at hfollows
  obtain ⟨q, hended, rfl⟩ := hfollows.runs.told_calm hlive hpanic hr
  exact ⟨q, hended, isCancellation_conclude _ q⟩

/-! ## Loops that are closed while they wait -/

/-- The only message is handled and the loop waits for its token; then somebody asks it to close. -/
def closedWhileIdle : List (Deed Loop) :=
  List.replicate 3 (.move (.loop 0 true)) ++ [.close 0] ++
    List.replicate 6 (.move (.loop 0 true)) ++ [.comeBack 0]

/-- What happens until the end to a loop that does as `rest` says when it is closed. -/
def Loop.historyOnClose (rest : List Instruction) : List Happening :=
  (Attended.nothing.add (.spawn "t" ⟨none, some "g", true⟩ (fun _ _ => .continue) false none
    (.dispatching (.idle :: rest)))).chronicle Loop.act 0 closedWhileIdle

/-- A cancellation from within a batch. -/
def Error.cancelledBatch : Error := .batch 0 1 .cancelled

/-- The transport fails with something else after the cancellation, and only that is told. -/
theorem cancellation_told_iff_lost :
    let history : List Happening :=
      [.begun (.ofText "a"), .answered (.flow .continue), .asked, .failed .cancelledBatch,
        .failed (.config "lost"), .ended (.returned (.error .cancelledBatch)),
        .captured (.error (.config "lost")), .told (.error (.config "lost"))]
    Loop.historyOnClose
        [.fail .cancelledBatch, .fail (.config "lost"), .return (.error .cancelledBatch)] =
        history ∧
      ∀ r, .told r ∈ history → ¬ IsCancellation r := by
  intro history
  have hhistory : Loop.historyOnClose
      [.fail .cancelledBatch, .fail (.config "lost"), .return (.error .cancelledBatch)] =
        history := rfl
  refine ⟨hhistory, fun r hr => ?_⟩
  obtain ⟨q, -, hiff⟩ := cancellation_told_iff Loop.act .nothing "t" ⟨none, some "g", true⟩
    (fun _ _ => .continue) false none
    (.dispatching
      [.idle, .fail .cancelledBatch, .fail (.config "lost"), .return (.error .cancelledBatch)])
    closedWhileIdle hhistory rfl (by simp [history]) (by simp [history]) hr
  rw [hiff]
  exact Bool.false_ne_true

/-- The handler never aborts, the loop does not break down and the governing token is live, and yet
somebody is told a cancellation. -/
def Loop.TellsCancellation (rest : List Instruction) : Prop :=
  (∀ cause, .answered (.flow (.abort cause)) ∉ historyOnClose rest) ∧
    (∀ text, .ended (.panicked text) ∉ historyOnClose rest) ∧ .revoked ∉ historyOnClose rest ∧
    ∃ r, .told r ∈ historyOnClose rest ∧ IsCancellation r

/-- A loop that is closed, and then returns the cancellation from within a batch or fails with it,
is told as cancelled. -/
theorem cancellation_told_of_close :
    Loop.TellsCancellation [.return (.error .cancelledBatch)] ∧
      Loop.TellsCancellation [.fail .cancelled] := by
  have hreturn : Loop.historyOnClose [.return (.error .cancelledBatch)] =
      [.begun (.ofText "a"), .answered (.flow .continue), .asked,
        .ended (.returned (.error .cancelledBatch)),
        .captured (.error .cancelledBatch), .told (.error .cancelledBatch)] := rfl
  have hfail : Loop.historyOnClose [.fail .cancelled] =
      [.begun (.ofText "a"), .answered (.flow .continue), .asked, .failed .cancelled,
        .ended (.returned (.ok ())), .captured (.error .cancelled),
        .told (.error .cancelled)] := rfl
  rw [Loop.TellsCancellation, Loop.TellsCancellation, hreturn, hfail]
  refine ⟨⟨by simp, by simp, by simp, .error .cancelledBatch, by simp, ?_⟩,
    ⟨by simp, by simp, by simp, .error .cancelled, by simp, ?_⟩⟩
  · exact isCancellation_error.2 rfl
  · exact isCancellation_error.2 rfl

end PubSub
