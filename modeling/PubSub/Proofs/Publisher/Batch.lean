import PubSub.Proofs.Error
import PubSub.Publisher.Basic

/-!
# Batches up to their first failure

A batch that is published message by message comes to its first failure, told with the place of that
message, or succeeds if there is none. What is published, and what is not even tried, is said by
keeping record of the calls (`publishAll_told`).
-/

namespace PubSub

variable {σ : Type}

/-! ## First failures -/

section

variable (publish : σ → Message → Except Error Unit × σ)

/-- The state after the messages were published one after another, whatever came of it. -/
def stateAfter (s : σ) (ms : List Message) : σ := ms.foldl (fun s m => (publish s m).2) s

/-- What comes of message `m` when the messages `before` went before it. -/
def comesOf (s : σ) (before : List Message) (m : Message) : Except Error Unit :=
  (publish (stateAfter publish s before) m).1

/-- Message `i` of a batch fails with `e`, and none before it fails. -/
structure FailsFirst (s : σ) (batch : List Message) (i : Nat) (e : Error) : Prop where
  fails : ∃ m, batch[i]? = some m ∧ comesOf publish s (batch.take i) m = .error e
  first : ∀ j m, j < i → batch[j]? = some m → comesOf publish s (batch.take j) m = .ok ()

/-- The place and the error of the first failure in a batch. -/
def firstFailure? (s : σ) : List Message → Option (Nat × Error)
  | [] => none
  | m :: rest =>
    match publish s m with
    | (.ok (), s) => (firstFailure? s rest).map fun (i, e) => (i + 1, e)
    | (.error e, _) => some (0, e)

end

variable {publish : σ → Message → Except Error Unit × σ} {s : σ} {batch : List Message} {i : Nat}
  {e : Error}

theorem failsFirst_zero {m : Message} {rest : List Message} :
    FailsFirst publish s (m :: rest) 0 e ↔ (publish s m).1 = .error e :=
  ⟨fun ⟨⟨_, hm, he⟩, _⟩ => by cases hm; exact he, fun he => ⟨⟨m, rfl, he⟩, nofun⟩⟩

theorem failsFirst_succ {m : Message} {rest : List Message} :
    FailsFirst publish s (m :: rest) (i + 1) e ↔
      (publish s m).1 = .ok () ∧ FailsFirst publish (publish s m).2 rest i e := by
  constructor
  · rintro ⟨hfails, hfirst⟩
    exact ⟨hfirst 0 m (Nat.succ_pos i) rfl, hfails,
      fun j m' hj hm' => hfirst (j + 1) m' (Nat.succ_lt_succ hj) hm'⟩
  · rintro ⟨hm, hfails, hfirst⟩
    refine ⟨hfails, fun j m' hj hm' => ?_⟩
    cases j with
    | zero =>
      cases hm'
      exact hm
    | succ j => exact hfirst j m' (Nat.lt_of_succ_lt_succ hj) hm'

theorem firstFailure?_eq_some_iff :
    firstFailure? publish s batch = some (i, e) ↔ FailsFirst publish s batch i e := by
  induction batch generalizing s i with
  | nil =>
    refine ⟨nofun, fun ⟨⟨m, hm, _⟩, _⟩ => ?_⟩
    cases hm
  | cons m rest ih =>
    rw [firstFailure?]
    cases hm : publish s m with
    | mk r s' =>
      cases r with
      | error e' =>
        cases i with
        | zero => simp [failsFirst_zero, hm]
        | succ i => simp [failsFirst_succ, hm]
      | ok u =>
        cases i with
        | zero => simp [failsFirst_zero, hm]
        | succ i => simp [failsFirst_succ, hm, ← ih]

/-! ## Recorded calls -/

/-- Publishes, and adds the message to those with which publishing was called. -/
def recorded (publish : σ → Message → Except Error Unit × σ) (s : σ × List Message)
    (m : Message) : Except Error Unit × σ × List Message :=
  ((publish s.1 m).1, (publish s.1 m).2, s.2 ++ [m])

/-- To keep record changes nothing. -/
theorem publishFrom_recorded (index total : Nat) (s : σ) (calls batch : List Message) :
    let told := publishFrom publish index total s batch
    let kept := publishFrom (recorded publish) index total (s, calls) batch
    kept.1 = told.1 ∧ kept.2.1 = told.2 := by
  induction batch generalizing index s calls with
  | nil => exact ⟨rfl, rfl⟩
  | cons m rest ih =>
    simp only [publishFrom, recorded]
    cases hm : publish s m with
    | mk r s' =>
      cases r with
      | error e => exact ⟨rfl, rfl⟩
      | ok u => exact ih (index + 1) s' (calls ++ [m])

/-- Messages are published up to the first failure. -/
theorem publishFrom_eq (index total : Nat) (s : σ) (calls batch : List Message) :
    publishFrom (recorded publish) index total (s, calls) batch =
      match firstFailure? publish s batch with
      | none => (.ok (), stateAfter publish s batch, calls ++ batch)
      | some (i, e) =>
        (.error (.batch (index + i) total e), stateAfter publish s (batch.take (i + 1)),
          calls ++ batch.take (i + 1)) := by
  induction batch generalizing index s calls with
  | nil => rw [firstFailure?, List.append_nil]; rfl
  | cons m rest ih =>
    simp only [publishFrom, recorded, firstFailure?]
    cases hm : publish s m with
    | mk r s' =>
      cases r with
      | error e => simp [stateAfter, hm]
      | ok u =>
        have hrest := ih (index + 1) s' (calls ++ [m])
        refine hrest.trans ?_
        cases hf : firstFailure? publish s' rest with
        | none => simp [hf, stateAfter, hm]
        | some failure =>
          obtain ⟨i, e⟩ := failure
          simp [hf, stateAfter, hm, Nat.add_assoc, Nat.add_comm 1 i]

/-! ## Whole batches -/

theorem publishAll_eq (s : σ) (batch : List Message) :
    publishAll (recorded publish) (s, []) batch =
      match firstFailure? publish s batch with
      | none => (.ok (), stateAfter publish s batch, batch)
      | some (i, e) =>
        (.error (.batch i batch.length e), stateAfter publish s (batch.take (i + 1)),
          batch.take (i + 1)) := by
  rw [publishAll, publishFrom_eq]
  simp only [Nat.zero_add, List.nil_append]

theorem firstFailure?_eq_none_iff :
    firstFailure? publish s batch = none ↔
      ∀ i m, batch[i]? = some m → comesOf publish s (batch.take i) m = .ok () := by
  constructor
  · intro hnone i
    -- the first failure would be at the least place that does not succeed
    induction i using Nat.strongRecOn with
    | ind i ih =>
      intro m hm
      cases hr : comesOf publish s (batch.take i) m with
      | ok u => rfl
      | error e =>
        have hfails : FailsFirst publish s batch i e :=
          ⟨⟨m, hm, hr⟩, fun j m' hj hm' => ih j hj m' hm'⟩
        rw [firstFailure?_eq_some_iff.2 hfails] at hnone
        cases hnone
  · intro hall
    cases hf : firstFailure? publish s batch with
    | none => rfl
    | some failure =>
      obtain ⟨⟨m, hm, hr⟩, -⟩ := firstFailure?_eq_some_iff.1 hf
      rw [hall failure.1 m hm] at hr
      cases hr

/-- Whatever it is to publish, the messages of a batch are published in order up to the first
failure and none after it. All is well just if each of them is; otherwise the failure is told with
its place and the length of the batch, and it can be asked for as if it were told alone, however
deep within batches it is itself. -/
theorem publishAll_told {κ : Type} (publish : κ → σ → Message → Except Error Unit × σ) (token : κ)
    (s : σ) (batch : List Message) :
    let told := publishAll (publish token) s batch
    let kept := publishAll (recorded (publish token)) (s, []) batch
    (kept.1 = told.1 ∧ kept.2.1 = told.2) ∧
      (told.1 = .ok () ↔
        ∀ i m, batch[i]? = some m → comesOf (publish token) s (batch.take i) m = .ok ()) ∧
      (told.1 = .ok () → kept.2 = (stateAfter (publish token) s batch, batch)) ∧
      ∀ error, told.1 = .error error → ∃ i e, FailsFirst (publish token) s batch i e ∧
        error = .batch i batch.length e ∧
        kept.2 = (stateAfter (publish token) s (batch.take (i + 1)), batch.take (i + 1)) ∧
        ∀ places origin, e = Error.within places origin →
          error.isCancelled = origin.isCancelled ∧
            error.handlerCause? = origin.handlerCause? := by
  intro told kept
  have hsame : kept.1 = told.1 ∧ kept.2.1 = told.2 :=
    publishFrom_recorded 0 batch.length s [] batch
  have hkept : kept = _ := publishAll_eq s batch
  refine ⟨hsame, ?_⟩
  rw [← hsame.1, ← firstFailure?_eq_none_iff]
  cases hf : firstFailure? (publish token) s batch with
  | none =>
    rw [hf] at hkept
    rw [hkept]
    exact ⟨⟨fun _ => rfl, fun _ => rfl⟩, fun _ => rfl, nofun⟩
  | some failure =>
    obtain ⟨i, e⟩ := failure
    rw [hf] at hkept
    rw [hkept]
    refine ⟨⟨nofun, nofun⟩, nofun, fun error herror => ?_⟩
    obtain rfl := Except.error.inj herror
    refine ⟨i, e, firstFailure?_eq_some_iff.1 hf, rfl, rfl, fun places origin he => ?_⟩
    rw [he]
    exact ⟨Error.isCancelled_within ((i, batch.length) :: places) origin,
      Error.handlerCause?_within ((i, batch.length) :: places) origin⟩

/-- Messages for a topic that holds two. -/
def fiveMessages : List Message := ["a", "b", "c", "d", "e"].map .ofText

theorem publishAll_told_full :
    let publish := fun cancelled => Shelf.publishWithin 2 (.config "disk full") cancelled "t"
    let told := publishAll (publish false) NameMap.empty fiveMessages
    let kept := publishAll (recorded (publish false)) (NameMap.empty, []) fiveMessages
    told.1 = .error (.batch 2 5 (.config "disk full")) ∧
      FailsFirst (publish false) NameMap.empty fiveMessages 2 (.config "disk full") ∧
      kept.2.2 = ["a", "b", "c"].map .ofText ∧ told.2.messages "t" = ["a", "b"].map .ofText := by
  intro publish told kept
  have htold : told.1 = .error (.batch 2 5 (.config "disk full")) := rfl
  obtain ⟨-, -, -, hfails⟩ := publishAll_told publish false NameMap.empty fiveMessages
  obtain ⟨i, e, hfirst, he, hkept, -⟩ := hfails _ htold
  obtain ⟨rfl, -, rfl⟩ : i = 2 ∧ 5 = fiveMessages.length ∧ e = .config "disk full" := by
    simpa [eq_comm] using he
  exact ⟨htold, hfirst, congrArg Prod.snd hkept, rfl⟩

end PubSub
