import PubSub.Subscription.Basic

/-!
# The life of a subscription

What happens to a subscription is told as a history, the earliest first. `Life` says what may happen
next: the handler works on one message at a time, on none after a stop, and the result that is
captured once is all that whoever waits is told. The laws of a history follow from this alone
(`Life.Runs.lifecycle`, `Life.Runs.aborted`).
-/

namespace PubSub

/-- What happens to one subscription. -/
inductive Happening where
  /-- The handler is given a message. -/
  | begun (m : Message)
  /-- The handler is done with the message that it was given. -/
  | answered (o : Outcome)
  /-- The transport fails the subscription. -/
  | failed (e : Error)
  | ended (e : Ending)
  /-- Somebody asks it to close, or gives it up. -/
  | asked
  /-- The governing token is cancelled. -/
  | revoked
  | captured (r : Except Error Unit)
  /-- A call to wait or to close comes back. -/
  | told (r : Except Error Unit)
  /-- Somebody asks whether it is finished. -/
  | polled (finished : Bool)

namespace Happening

def isAnswer : Happening → Bool
  | .answered _ => true
  | _ => false

/-- The message that the handler is given. -/
def message? : Happening → Option Message
  | .begun m => some m
  | _ => none

/-- After these a subscription has to stop. -/
def isRequest : Happening → Bool
  | .asked | .revoked => true
  | _ => false

/-- The failure that happens to a subscription. -/
def failure? : Happening → Option Error
  | .failed e => some e
  | .answered (.flow (.abort cause)) => some (.handler cause)
  | _ => none

end Happening

/-! ## What may happen -/

/-- How far a subscription has come. -/
inductive LifeStage where
  /-- The handler has nothing to do. -/
  | idle
  /-- The handler works on a message. -/
  | busy
  | ended (e : Ending)
  | over (r : Except Error Unit)

namespace LifeStage

def isBusy : LifeStage → Bool
  | .busy => true
  | _ => false

def result? : LifeStage → Option (Except Error Unit)
  | .over r => some r
  | _ => none

end LifeStage

structure Life where
  /-- Whether the handler may be given no more messages. -/
  stopped : Bool
  /-- Whether the governing token is cancelled. -/
  revoked : Bool
  /-- The last error that stopped the subscription. -/
  failure : Option Error
  /-- The messages that the handler was given, the latest first. -/
  handled : List Message
  stage : LifeStage

namespace Life

/-- A new subscription, whose governing token may be cancelled already. -/
def start (revoked : Bool) : Life := ⟨revoked, revoked, none, [], .idle⟩

def Admits (l : Life) : Happening → Prop
  | .begun _ => l.stage = .idle ∧ l.stopped = false
  | .answered _ => l.stage = .busy
  | .failed _ | .ended _ => l.stage = .idle
  | .asked | .revoked => True
  | .captured r =>
    ∃ e, l.stage = .ended e ∧ r = Subscription.conclude l.revoked l.failure e
  | .told r => l.stage = .over r
  | .polled finished => finished = l.stage.result?.isSome

def after (l : Life) : Happening → Life
  | .begun m => { l with handled := m :: l.handled, stage := .busy }
  | .answered (.flow (.abort cause)) =>
    { l with stopped := true, failure := some (.handler cause), stage := .idle }
  | .answered (.flow .done) => { l with stopped := true, stage := .idle }
  | .answered _ => { l with stage := .idle }
  | .failed e => { l with stopped := true, failure := some e }
  | .ended e => { l with stage := .ended e }
  | .asked => { l with stopped := true }
  | .revoked => { l with stopped := true, revoked := true }
  | .captured r => { l with stage := .over r }
  | .told _ | .polled _ => l

/-- The history may happen, one thing after another. -/
def Runs (l : Life) : List Happening → Prop
  | [] => True
  | x :: t => l.Admits x ∧ (l.after x).Runs t

def afterAll (l : Life) (t : List Happening) : Life := t.foldl after l

@[simp] theorem afterAll_nil (l : Life) : l.afterAll [] = l := rfl

@[simp] theorem afterAll_cons (l : Life) (x : Happening) (t : List Happening) :
    l.afterAll (x :: t) = (l.after x).afterAll t := rfl

theorem afterAll_append (l : Life) (s t : List Happening) :
    l.afterAll (s ++ t) = (l.afterAll s).afterAll t :=
  List.foldl_append

theorem runs_append {l : Life} {s t : List Happening} :
    l.Runs (s ++ t) ↔ l.Runs s ∧ (l.afterAll s).Runs t := by
  induction s generalizing l with
  | nil => simp [Runs]
  | cons x s ih => simp [Runs, ih, and_assoc]

variable {l : Life} {t : List Happening}

/-- Whether a handler call is in flight after the history, if `before` tells it for the start. -/
def inFlight (before : Bool) (t : List Happening) : Bool :=
  t.foldl (fun b x =>
    match x with
    | .begun _ => true
    | .answered _ => false
    | _ => b) before

theorem Runs.isBusy (h : l.Runs t) : (l.afterAll t).stage.isBusy = inFlight l.stage.isBusy t := by
  induction t generalizing l with
  | nil => rfl
  | cons x t ih =>
    obtain ⟨hx, ht⟩ := h
    rw [afterAll_cons, ih ht, inFlight, inFlight, List.foldl_cons]
    congr 1
    cases x with
    | answered o => rcases o with (_ | _ | _) | _ <;> rfl
    | ended e =>
      have hidle : l.stage = .idle := hx
      rw [hidle]
      rfl
    | captured r =>
      obtain ⟨e, hended, -⟩ := hx
      rw [hended]
      rfl
    | begun | asked | revoked | told | polled | failed => rfl

/-- The messages that the handler was given are those of the history. -/
theorem handled_afterAll (l : Life) (t : List Happening) :
    (l.afterAll t).handled = (t.filterMap Happening.message?).reverse ++ l.handled := by
  induction t generalizing l with
  | nil => rfl
  | cons x t ih =>
    rw [afterAll_cons, ih]
    cases x with
    | begun m => simp [after, Happening.message?]
    | answered o => rcases o with (_ | _ | _) | _ <;> rfl
    | failed | ended | asked | revoked | captured | told | polled => rfl

/-! ## After the result -/

/-- Once the result is captured, requests may still come, and all who ask are told this result. -/
theorem Runs.over {r : Except Error Unit} (h : l.Runs t) (hr : l.stage = .over r) :
    (l.afterAll t).stage = .over r ∧
      ∀ x ∈ t, x = .asked ∨ x = .revoked ∨ x = .told r ∨ x = .polled true := by
  induction t generalizing l with
  | nil => simp [hr]
  | cons x t ih =>
    obtain ⟨hx, ht⟩ := h
    have hkind : x = .asked ∨ x = .revoked ∨ x = .told r ∨ x = .polled true := by
      cases x <;> simp_all [Admits, LifeStage.result?]
    have hstay : (l.after x).stage = .over r := by
      rcases hkind with rfl | rfl | rfl | rfl <;> exact hr
    obtain ⟨hend, hall⟩ := ih ht hstay
    exact ⟨hend, List.forall_mem_cons.2 ⟨hkind, hall⟩⟩

/-- A result comes from the history or was there before. -/
theorem captured_of_over {r : Except Error Unit} (h : (l.afterAll t).stage = .over r) :
    l.stage = .over r ∨ .captured r ∈ t := by
  induction t generalizing l with
  | nil => exact .inl h
  | cons x t ih =>
    rcases ih h with hx | hx
    · cases x with
      | answered o => rcases o with (_ | _ | _) | _ <;> simp [after] at hx
      | captured r' =>
        obtain rfl : r' = r := by simpa [after] using hx
        exact .inr List.mem_cons_self
      | begun | ended => simp [after] at hx
      | asked | revoked | told | polled | failed => exact .inl hx
    · exact .inr (List.mem_cons_of_mem _ hx)

/-- A history that begins without a result has come to one just if it was captured on the way. -/
theorem Runs.over_iff {r : Except Error Unit} (h : l.Runs t) (hl : l.stage.result? = none) :
    (l.afterAll t).stage = .over r ↔ .captured r ∈ t := by
  constructor
  · intro hover
    rcases captured_of_over hover with hr | hr
    · simp [hr, LifeStage.result?] at hl
    · exact hr
  · intro hr
    obtain ⟨pre, post, rfl⟩ := List.append_of_mem hr
    obtain ⟨-, -, hpost⟩ := runs_append.1 h
    rw [afterAll_append, afterAll_cons]
    exact (hpost.over rfl).1

/-- Whoever is told a result is told the one that was captured. -/
theorem Runs.over_of_told {r : Except Error Unit} (h : l.Runs t) (hr : .told r ∈ t) :
    (l.afterAll t).stage = .over r := by
  obtain ⟨pre, post, rfl⟩ := List.append_of_mem hr
  obtain ⟨-, htold, hpost⟩ := runs_append.1 h
  rw [afterAll_append, afterAll_cons]
  exact (hpost.over htold).1

/-! ## After a stop -/

theorem stopped_after (hl : l.stopped = true) (x : Happening) : (l.after x).stopped = true := by
  cases x with
  | answered o => rcases o with (_ | _ | _) | _ <;> simp [after, hl]
  | _ => simp [after, hl]

/-- Once it has to stop, a subscription begins no handler call, and ends at most the one that is in
flight. -/
theorem Runs.stopped (h : l.Runs t) (hl : l.stopped = true) :
    (∀ m, .begun m ∉ t) ∧ t.countP Happening.isAnswer ≤ l.stage.isBusy.toNat := by
  induction t generalizing l with
  | nil => simp
  | cons x t ih =>
    obtain ⟨hx, ht⟩ := h
    obtain ⟨hbegun, hanswers⟩ := ih ht (stopped_after hl x)
    have hfirst : ∀ m, x ≠ .begun m := by
      rintro m rfl
      simp [Admits, hl] at hx
    refine ⟨fun m hm => ?_, ?_⟩
    · rcases List.mem_cons.1 hm with hm | hm
      · exact hfirst m hm.symm
      · exact hbegun m hm
    · rw [List.countP_cons]
      cases x with
      | begun m => exact absurd rfl (hfirst m)
      | answered o =>
        have hbusy : l.stage = .busy := hx
        have hidle : (l.after (.answered o)).stage.isBusy = false := by
          rcases o with (_ | _ | _) | _ <;> rfl
        rw [hidle] at hanswers
        simpa [hbusy, LifeStage.isBusy, Happening.isAnswer] using hanswers
      | ended | captured => exact Nat.le_trans hanswers (Nat.zero_le _)
      | asked | revoked | told | polled | failed => exact hanswers

theorem stopped_of_request {x : Happening} (hx : x.isRequest = true) :
    (l.after x).stopped = true := by
  cases x with
  | asked | revoked => rfl
  | _ => simp [Happening.isRequest] at hx

/-! ## Whole lives -/

/-- What holds of the history of a subscription at every point of it. It is `revoked` from the start
if its governing token was cancelled before it began. -/
structure Lifecycle (revoked : Bool) (t : List Happening) : Prop where
  /-- The handler works on one message at a time. -/
  single : ∀ pre m post, t = pre ++ .begun m :: post → inFlight false pre = false
  /-- The result is captured once, when no handler call is in flight, and none begins afterwards. -/
  captured : ∀ pre r post, t = pre ++ .captured r :: post →
    (∀ r', .captured r' ∉ pre ∧ .captured r' ∉ post) ∧ inFlight false pre = false ∧
      ∀ m, .begun m ∉ post
  /-- Calls come back with the result that was captured, when no handler call is in flight. -/
  told : ∀ pre r post, t = pre ++ .told r :: post →
    .captured r ∈ pre ∧ inFlight false pre = false
  /-- A subscription is finished just if its result was captured. -/
  polled : ∀ pre finished post, t = pre ++ .polled finished :: post →
    (finished = true ↔ ∃ r, .captured r ∈ pre)
  /-- If its governing token was cancelled before, no handler call ever begins. -/
  revoked : revoked = true → ∀ m, .begun m ∉ t
  /-- After a request to stop no handler call begins, and at most the one in flight ends. -/
  stops : ∀ pre x post, t = pre ++ x :: post → x.isRequest = true →
    (∀ m, .begun m ∉ post) ∧ post.countP Happening.isAnswer ≤ (inFlight false pre).toNat

theorem Runs.lifecycle {revoked : Bool} (h : (start revoked).Runs t) : Lifecycle revoked t := by
  -- at each point the life so far tells what was captured and whether a call is in flight
  have hpoint : ∀ {pre x post}, t = pre ++ x :: post →
      ((start revoked).afterAll pre).Admits x ∧
      (((start revoked).afterAll pre).after x).Runs post ∧
      ((start revoked).afterAll pre).stage.isBusy = inFlight false pre ∧
      ∀ r, ((start revoked).afterAll pre).stage = .over r ↔ .captured r ∈ pre := by
    rintro pre x post rfl
    obtain ⟨hpre, hx, hpost⟩ := runs_append.1 h
    exact ⟨hx, hpost, hpre.isBusy, fun r => hpre.over_iff rfl⟩
  refine ⟨?_, ?_, ?_, ?_, fun hrevoked => (h.stopped hrevoked).1, ?_⟩
  · intro pre m post ht
    obtain ⟨⟨hidle, -⟩, -, hbusy, -⟩ := hpoint ht
    rw [← hbusy, hidle]
    rfl
  · intro pre r post ht
    obtain ⟨⟨e, hended, -⟩, hpost, hbusy, hover⟩ := hpoint ht
    have hrest := (hpost.over rfl).2
    refine ⟨fun r' => ⟨fun hr' => ?_, fun hr' => ?_⟩, ?_, fun m hm => ?_⟩
    · simp [hended] at hover
      exact hover r' hr'
    · simpa using hrest _ hr'
    · rw [← hbusy, hended]
      rfl
    · simpa using hrest _ hm
  · intro pre r post ht
    obtain ⟨hx, -, hbusy, hover⟩ := hpoint ht
    have hr : ((start revoked).afterAll pre).stage = .over r := hx
    refine ⟨(hover r).1 hr, ?_⟩
    rw [← hbusy, hr]
    rfl
  · intro pre finished post ht
    obtain ⟨hx, -, -, hover⟩ := hpoint ht
    have hf : finished = ((start revoked).afterAll pre).stage.result?.isSome := hx
    simp only [← hover, hf]
    cases ((start revoked).afterAll pre).stage <;> simp [LifeStage.result?]
  · intro pre x post ht hreq
    obtain ⟨-, hpost, hbusy, -⟩ := hpoint ht
    obtain ⟨hbegun, hanswers⟩ := hpost.stopped (stopped_of_request hreq)
    refine ⟨hbegun, ?_⟩
    rw [← hbusy]
    cases x with
    | asked | revoked => exact hanswers
    | _ => simp [Happening.isRequest] at hreq

/-! ## After an abort -/

/-- What a subscription comes to that failed with `e` and goes on with the history: the last failure,
unless its loop breaks down. -/
def fate (e : Error) : List Happening → Option (Except Error Unit)
  | [] => none
  | .failed later :: t => fate later t
  | .ended (.returned _) :: _ => some (.error e)
  | .ended (.panicked text) :: _ =>
    some (.error (.task ("task N panicked with message " ++ Quoted.quote text)))
  | _ :: t => fate e t

/-- A subscription whose loop has ended is told what was recorded then. -/
theorem Runs.ended {e : Error} {ending : Ending} {r : Except Error Unit} (h : l.Runs t)
    (hfailure : l.failure = some e) (hstage : l.stage = .ended ending) (hr : .told r ∈ t) :
    fate e [.ended ending] = some r := by
  induction t generalizing l with
  | nil => simp at hr
  | cons x t ih =>
    obtain ⟨hx, ht⟩ := h
    cases x with
    | captured r' =>
      obtain ⟨ending', hended, rfl⟩ := hx
      obtain rfl : ending = ending' := by simpa [hstage] using hended
      have htold : .told r ∈ t := by simpa using hr
      have hresult := (ht.over rfl).2 _ htold
      simp only [reduceCtorEq, Happening.told.injEq, or_false, false_or] at hresult
      rw [hresult, hfailure]
      cases ending <;> rfl
    | asked | revoked | polled => exact ih ht hfailure hstage (by simpa using hr)
    | begun | answered | failed | ended | told => simp [Admits, hstage] at hx

theorem Runs.fate {e : Error} {r : Except Error Unit} (h : l.Runs t) (hl : l.stopped = true)
    (hfailure : l.failure = some e) (hidle : l.stage = .idle) (hr : .told r ∈ t) :
    Life.fate e t = some r := by
  induction t generalizing l e with
  | nil => simp at hr
  | cons x t ih =>
    obtain ⟨hx, ht⟩ := h
    cases x with
    | failed later => exact ih ht rfl rfl hidle (by simpa using hr)
    | ended ending =>
      have hfate := ht.ended hfailure rfl (by simpa using hr)
      cases ending <;> exact hfate
    | asked | revoked => exact ih ht rfl hfailure hidle (by simpa using hr)
    | polled => exact ih ht hl hfailure hidle (by simpa using hr)
    | begun | answered | captured | told => simp [Admits, hidle, hl] at hx

/-- With no later failure and no breakdown of its loop, a subscription comes to how it failed. -/
theorem fate_calm {e : Error} {r : Except Error Unit} (hr : fate e t = some r)
    (hfailed : ∀ later, .failed later ∉ t) (hpanic : ∀ text, .ended (.panicked text) ∉ t) :
    r = .error e := by
  induction t with
  | nil => simp [fate] at hr
  | cons x t ih =>
    cases x with
    | failed later => exact absurd List.mem_cons_self (hfailed later)
    | ended ending =>
      cases ending with
      | returned q => simpa [fate, eq_comm] using hr
      | panicked text => exact absurd List.mem_cons_self (hpanic text)
    | begun | answered | asked | revoked | captured | told | polled =>
      exact ih hr (fun later h => hfailed later (List.mem_cons_of_mem _ h))
        fun text h => hpanic text (List.mem_cons_of_mem _ h)

/-- After a handler has aborted it is called no more, and whoever is told a result is told what
became of the abort. -/
theorem Runs.aborted {revoked : Bool} {pre post : List Happening} {cause : Cause}
    (h : (start revoked).Runs (pre ++ .answered (.flow (.abort cause)) :: post)) :
    (∀ m, .begun m ∉ post) ∧ (∀ o, .answered o ∉ post) ∧
      ∀ r, .told r ∈ pre ++ .answered (.flow (.abort cause)) :: post →
        Life.fate (.handler cause) post = some r := by
  obtain ⟨hpre, hbusy, hpost⟩ := runs_append.1 h
  obtain ⟨hbegun, hanswers⟩ := hpost.stopped rfl
  refine ⟨hbegun, fun o ho => ?_, fun r hr => ?_⟩
  · exact absurd rfl (List.countP_eq_zero.1 (Nat.le_zero.1 hanswers) _ ho)
  · simp only [List.mem_append, List.mem_cons, reduceCtorEq, false_or] at hr
    rcases hr with hr | hr
    · -- nobody is told a result while the handler works
      obtain ⟨before, between, rfl⟩ := List.append_of_mem hr
      obtain ⟨-, htold, hbetween⟩ := runs_append.1 hpre
      have hover : ((start revoked).afterAll before).stage = .over r := htold
      have hstay := (hbetween.over hover).1
      rw [afterAll_append, afterAll_cons] at hbusy
      simp [Admits, hstay] at hbusy
    · exact hpost.fate rfl rfl rfl hr

/-! ## Failures -/

/-- Of the failures of a history the last one counts. -/
theorem failure_afterAll (l : Life) (t : List Happening) :
    (l.afterAll t).failure = (t.filterMap Happening.failure?).getLast?.or l.failure := by
  induction t generalizing l with
  | nil => rfl
  | cons x t ih =>
    rw [afterAll_cons, ih]
    cases x with
    | failed e =>
      cases hrest : (t.filterMap Happening.failure?).getLast? <;>
        simp [Happening.failure?, List.getLast?_cons, hrest, after]
    | answered o =>
      rcases o with (_ | _ | cause) | _
      · rfl
      · rfl
      · cases hrest : (t.filterMap Happening.failure?).getLast? <;>
          simp [Happening.failure?, List.getLast?_cons, hrest, after]
      · rfl
    | begun | ended | asked | revoked | captured | told | polled => rfl

theorem ended_of_stage {e : Ending} (h : (l.afterAll t).stage = .ended e) :
    l.stage = .ended e ∨ .ended e ∈ t := by
  induction t generalizing l with
  | nil => exact .inl h
  | cons x t ih =>
    rcases ih h with hx | hx
    · cases x with
      | answered o => rcases o with (_ | _ | _) | _ <;> simp [after] at hx
      | ended e' =>
        obtain rfl : e' = e := by simpa [after] using hx
        exact .inr List.mem_cons_self
      | begun | captured => simp [after] at hx
      | asked | revoked | told | polled | failed => exact .inl hx
    · exact .inr (List.mem_cons_of_mem _ hx)

theorem revoked_afterAll (l : Life) (t : List Happening) :
    (l.afterAll t).revoked = true ↔ l.revoked = true ∨ .revoked ∈ t := by
  induction t generalizing l with
  | nil => simp
  | cons x t ih =>
    rw [afterAll_cons, ih]
    cases x with
    | answered o => rcases o with (_ | _ | _) | _ <;> simp [after]
    | revoked | begun | failed | ended | asked | captured | told | polled => simp [after]

/-- A result tells how the loop ended and the last failure of the history, and a cancellation only if
the governing token is cancelled. -/
theorem Runs.result {revoked : Bool} {r : Except Error Unit} (h : (start revoked).Runs t)
    (hr : ((start revoked).afterAll t).stage = .over r) :
    ∃ e rv, .ended e ∈ t ∧ (rv = true → ((start revoked).afterAll t).revoked = true) ∧
      r = Subscription.conclude rv (t.filterMap Happening.failure?).getLast? e := by
  obtain ⟨pre, post, rfl⟩ := List.append_of_mem ((h.over_iff rfl).1 hr)
  obtain ⟨-, ⟨e, hended, hresult⟩, hpost⟩ := runs_append.1 h
  have hin : .ended e ∈ pre := (ended_of_stage hended).resolve_left nofun
  -- nothing fails after the result
  have hnone : post.filterMap Happening.failure? = [] := by
    refine List.filterMap_eq_nil_iff.2 fun x hx => ?_
    rcases (hpost.over rfl).2 x hx with rfl | rfl | rfl | rfl <;> rfl
  have hfailures : (pre ++ Happening.captured r :: post).filterMap Happening.failure? =
      pre.filterMap Happening.failure? := by
    rw [List.filterMap_append, List.filterMap_cons_none rfl, hnone, List.append_nil]
  have hfailure := failure_afterAll (start revoked) pre
  rw [show (start revoked).failure = none from rfl, Option.or_none] at hfailure
  refine ⟨e, ((start revoked).afterAll pre).revoked, List.mem_append_left _ hin, fun hrv => ?_, ?_⟩
  · rw [afterAll_append]
    exact (revoked_afterAll _ _).2 (.inl hrv)
  · rw [hfailures, ← hfailure]
    exact hresult

end Life

end PubSub
