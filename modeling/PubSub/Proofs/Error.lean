import PubSub.Error

/-!
# Errors

A computation ends well if each of its parts does (`exists_of_bind`).

A message that fails may belong to a batch within a batch, and its error is then told with the place
of each. However deep it is, it stays a cancellation if it is one (`isCancelled_iff`), and the cause
that a handler gave can still be found (`handlerCause?_within`).
-/

namespace PubSub

theorem exists_of_bind {ε α β : Type} {x : Except ε α} {f : α → Except ε β} {b : β}
    (h : x >>= f = .ok b) : ∃ a, x = .ok a ∧ f a = .ok b := by
  cases x with
  | error _ => cases h
  | ok a => exact ⟨a, rfl, h⟩

theorem exists_of_map {ε α β : Type} {x : Except ε α} {f : α → β} {b : β} (h : x.map f = .ok b) :
    ∃ a, x = .ok a ∧ f a = b := by
  cases x with
  | error _ => cases h
  | ok a => exact ⟨a, rfl, Except.ok.inj h⟩

theorem eq_ok_of_toOption {ε α : Type} {x : Except ε α} {a : α} (h : x.toOption = some a) :
    x = .ok a := by
  cases x with
  | error _ => cases h
  | ok _ => exact congrArg Except.ok (Option.some.inj h)

namespace Error

/-! ## Within batches -/

/-- The error as it is told from within batches: the place in each, with the total, the outermost
first. -/
def within (places : List (Nat × Nat)) (e : Error) : Error :=
  places.foldr (fun place source => .batch place.1 place.2 source) e

@[simp] theorem within_nil (e : Error) : e.within [] = e := rfl

@[simp] theorem within_cons (place : Nat × Nat) (places : List (Nat × Nat)) (e : Error) :
    e.within (place :: places) = .batch place.1 place.2 (e.within places) := rfl

theorem isCancelled_within (places : List (Nat × Nat)) (e : Error) :
    (e.within places).isCancelled = e.isCancelled := by
  induction places with
  | nil => rfl
  | cons place places ih => rw [within_cons, isCancelled, ih]

theorem handlerCause?_within (places : List (Nat × Nat)) (e : Error) :
    (e.within places).handlerCause? = e.handlerCause? := by
  induction places with
  | nil => rfl
  | cons place places ih => rw [within_cons, handlerCause?, ih]

/-- A cancellation is the bare one, told from within any number of batches. -/
theorem isCancelled_iff (e : Error) :
    e.isCancelled = true ↔ ∃ places, e = Error.cancelled.within places := by
  constructor
  · intro h
    fun_induction isCancelled e with
    | case1 => exact ⟨[], rfl⟩
    | case2 index total source ih =>
      obtain ⟨places, rfl⟩ := ih h
      exact ⟨(index, total) :: places, rfl⟩
    | case3 => simp at h
  · rintro ⟨places, rfl⟩
    rw [isCancelled_within]
    rfl

end Error

end PubSub
