import PubSub.Flow
import PubSub.Proofs.Error

/-!
# Failures that mean done

A handler's failure means that it is done if the done marker is one of its links (`isDone_iff`): the
contexts, the root, and what the root came from. An error shows what it came from unless that is the
cause of a handler. So the marker is found under any number of contexts, and is lost for good once
the failure becomes an error of the library on its way (`ofResult_wrapped`).
-/

namespace PubSub

/-! ## Links -/

/-- One link of a failure. -/
inductive Link where
  | text (shown : String)
  | done
  | error (e : Error)

def Link.message : Link → String
  | .text shown => shown
  | .done => "done"
  | .error e => e.message

/-- What an error shows that it came from, the nearest first. -/
def Error.links : Error → List Link
  | .invalidUrl flaw => [.text flaw.message]
  | .system error => [.text error.message]
  | .codec error => [.text error.message]
  | .batch _ _ source => .error source :: source.links
  | _ => []

/-- All links of a cause, the outermost first. -/
def Cause.links : Cause → List Link
  | .plain text => [.text text]
  | .done => [.done]
  | .error e => .error e :: e.links
  | .context text cause => .text text :: cause.links

theorem Error.links_messages : (e : Error) → e.links.map Link.message = e.sources
  | .invalidUrl _ | .system _ | .codec _ => rfl
  | .batch _ _ source => congrArg (source.message :: ·) source.links_messages
  | .unknownScheme _ | .config _ | .cancelled | .unsupportedStart _ | .handler _ | .closed _
  | .task _ => rfl

/-- The texts that are shown of a cause are those of its links. -/
theorem Cause.links_messages : (c : Cause) → c.links.map Link.message = c.chain
  | .plain _ | .done => rfl
  | .error e => congrArg (e.message :: ·) e.links_messages
  | .context text cause => congrArg (text :: ·) cause.links_messages

/-- No error shows a done marker. -/
theorem Error.done_not_mem_links (e : Error) : .done ∉ e.links := by
  fun_induction Error.links e with
  | case1 | case2 | case3 => simp
  | case4 index total source ih => simpa using ih
  | case5 => simp

theorem Cause.isDone_iff (c : Cause) : c.isDone = true ↔ .done ∈ c.links := by
  fun_induction Cause.links c with
  | case1 text => simp [Cause.isDone]
  | case2 => simp [Cause.isDone]
  | case3 e => simpa [Cause.isDone] using e.done_not_mem_links
  | case4 text cause ih => simpa [Cause.isDone] using ih

/-! ## Wrappings -/

/-- What may happen to a failure on its way. -/
inductive Wrapping where
  | context (text : String)
  /-- It becomes the cause of an error, which may be told from within batches, and this error the
  root of a new failure. -/
  | convert (places : List (Nat × Nat))

def Wrapping.isContext : Wrapping → Bool
  | .context _ => true
  | .convert _ => false

namespace Cause

def wrap (c : Cause) : Wrapping → Cause
  | .context text => .context text c
  | .convert places => .error ((Error.handler c).within places)

/-- The failure after all wrappings, the innermost of which comes first. -/
def wrapped (c : Cause) (ws : List Wrapping) : Cause := ws.foldl wrap c

theorem isDone_wrap (c : Cause) (w : Wrapping) : (c.wrap w).isDone = (c.isDone && w.isContext) := by
  cases w with
  | context text => rw [wrap, isDone, Wrapping.isContext, Bool.and_true]
  | convert places => rw [wrap, isDone, Wrapping.isContext, Bool.and_false]

theorem isDone_wrapped (c : Cause) (ws : List Wrapping) :
    (c.wrapped ws).isDone = (c.isDone && ws.all (·.isContext)) := by
  induction ws generalizing c with
  | nil => exact (Bool.and_true _).symm
  | cons w ws ih =>
    have hrest : ((c.wrap w).wrapped ws).isDone = ((c.wrap w).isDone && ws.all (·.isContext)) :=
      ih (c.wrap w)
    rw [isDone_wrap, Bool.and_assoc] at hrest
    exact hrest

end Cause

namespace Flow

/-- The done marker means that a handler is done while all its wrappings are contexts. Once it was
converted it is taken for a failure, like everything else in which there is no marker; a failure
reaches the subscription as it is. -/
theorem ofResult_wrapped (ws : List Wrapping) :
    (ofResult (.error (Cause.done.wrapped ws)) =
      if ws.all (·.isContext) then .done else .abort (Cause.done.wrapped ws)) ∧
    ∀ root : Cause, .done ∉ root.links →
      ofResult (.error (root.wrapped ws)) = .abort (root.wrapped ws) := by
  refine ⟨?_, fun root hroot => ?_⟩
  · rw [ofResult, Cause.isDone_wrapped, Cause.isDone, Bool.true_and]
  · have hnone : root.isDone = false := by
      rw [← Bool.not_eq_true, Cause.isDone_iff]
      exact hroot
    rw [ofResult, Cause.isDone_wrapped, hnone, Bool.false_and, if_neg Bool.false_ne_true]

theorem ofResult_wrapped_twice :
    ofResult (.error (Cause.done.wrapped [.context "row 3", .context "import"])) = .done ∧
      .done ∉ (Cause.plain "full").links ∧
      ofResult (.error ((Cause.plain "full").wrapped [.convert [(2, 5)], .context "import"])) =
        .abort (.context "import" (.error (.batch 2 5 (.handler (.plain "full"))))) := by
  have hfull : .done ∉ (Cause.plain "full").links := by simp [Cause.links]
  obtain ⟨hdone, -⟩ := ofResult_wrapped [.context "row 3", .context "import"]
  obtain ⟨-, hother⟩ := ofResult_wrapped [.convert [(2, 5)], .context "import"]
  exact ⟨hdone, hfull, hother _ hfull⟩

/-- A handler that is done, and says so by way of an error of the library, is taken to have failed,
although the error can still tell what the handler said. -/
theorem ofResult_converted_done :
    Cause.done.wrapped [.convert []] = .error (.handler .done) ∧
      ofResult (.error (Cause.done.wrapped [.convert []])) = .abort (.error (.handler .done)) ∧
      (Error.handler .done).handlerCause? = some .done :=
  ⟨rfl, rfl, rfl⟩

end Flow

end PubSub
