import PubSub.Bus
import PubSub.Proofs.Subscription.Tracking

/-!
# Chronicles

While a bus goes on, those who hold its subscriptions call on them: to wait, to close, to ask whether
they are finished. Calls overlap, repeat and come back when they can. What happens to one subscription
meanwhile is its chronicle, and it follows the rules of a life whatever the order of all this is
(`chronicle_runs`).
-/

namespace PubSub

variable {σ : Type}

/-- A bus with the calls on its subscriptions that have not come back. -/
structure Attended (σ : Type) where
  bus : Bus σ
  /-- The subscriptions that calls wait for, one entry for each call. -/
  waiting : List Nat

/-- What one party does. -/
inductive Deed (σ : Type) where
  | move (m : Move σ)
  /-- Somebody begins to wait for subscription `i`. -/
  | wait (i : Nat)
  /-- Somebody asks subscription `i` to close, and waits for it. -/
  | close (i : Nat)
  /-- One of the calls, by its place among them, comes back if it can. -/
  | comeBack (place : Nat)
  | poll (i : Nat)

/-! ## What happens to a subscription -/

namespace Bus

/-- What a move does to subscription `i` itself. -/
def doings (drive : σ → Action σ) (i : Nat) (b : Bus σ) (s : Subscription σ) :
    Move σ → List Happening
  | .loop j favoursCancel =>
    if j = i ∧ (s.advance drive favoursCancel b.world).isSome then s.doing drive b.world else []
  | .close j | .drop j => if j = i then [.asked] else []
  | _ => []

def happenings (drive : σ → Action σ) (i : Nat) (b : Bus σ) (m : Move σ) : List Happening :=
  match b.subscriptions[i]? with
  | none => []
  | some s => s.revoking b.world (b.move drive m).world ++ b.doings drive i s m

end Bus

namespace Attended

/-- A new subscription begins; it is number `a.bus.subscriptions.length`. -/
def add (a : Attended σ) (s : Subscription σ) : Attended σ := { a with bus := a.bus.add s }

/-- Subscription `i`, if somebody holds it. -/
def held? (a : Attended σ) (i : Nat) : Option (Subscription σ) :=
  a.bus.subscriptions[i]?.filter (·.held)

/-- The subscription that a call waits for, and what the call is told. -/
def reply? (a : Attended σ) (place : Nat) : Option (Nat × Except Error Unit) := do
  let i ← a.waiting[place]?
  let s ← a.bus.subscriptions[i]?
  return (i, ← s.outcome?)

def after (drive : σ → Action σ) (a : Attended σ) : Deed σ → Attended σ
  | .move m => { a with bus := a.bus.move drive m }
  | .wait i => if (a.held? i).isSome then { a with waiting := a.waiting ++ [i] } else a
  | .close i =>
    if (a.held? i).isSome then ⟨a.bus.move drive (.close i), a.waiting ++ [i]⟩ else a
  | .comeBack place =>
    if (a.reply? place).isSome then { a with waiting := a.waiting.eraseIdx place } else a
  | .poll _ => a

def happenings (drive : σ → Action σ) (i : Nat) (a : Attended σ) : Deed σ → List Happening
  | .move m => a.bus.happenings drive i m
  | .wait _ => []
  | .close j => if (a.held? j).isSome then a.bus.happenings drive i (.close j) else []
  | .comeBack place => ((a.reply? place).filter (·.1 = i)).toList.map fun reply => .told reply.2
  | .poll j => if j = i then (a.held? j).toList.map fun s => .polled s.isFinished else []

/-- What happens to subscription `i` while the parties do this. -/
def chronicle (drive : σ → Action σ) (i : Nat) (a : Attended σ) : List (Deed σ) → List Happening
  | [] => []
  | d :: ds => a.happenings drive i d ++ (a.after drive d).chronicle drive i ds

/-- The state after the parties did this. -/
def afterAll (drive : σ → Action σ) (a : Attended σ) (deeds : List (Deed σ)) : Attended σ :=
  deeds.foldl (after drive) a

end Attended

/-! ## Moves -/

variable {drive : σ → Action σ} {i : Nat} {b : Bus σ} {l : Life} {s : Subscription σ}

namespace Bus

theorem loop?_eq_some {j : Nat} {c : Bool} {b' : Bus σ} (h : b.loop? drive j c = some b') :
    ∃ x w x', b.subscriptions[j]? = some x ∧ x.advance drive c b.world = some (w, x') ∧
      b' = { b.set j x' with world := w } := by
  simp only [loop?, Option.bind_eq_bind, Option.bind_eq_some_iff, Prod.exists, Option.pure_def,
    Option.some.injEq] at h
  obtain ⟨x, hx, w, x', hadv, rfl⟩ := h
  exact ⟨x, w, x', hx, hadv, rfl⟩

theorem reader?_eq_some {j : Nat} {b' : Bus σ} (h : b.reader? j = some b') :
    ∃ x x', b.subscriptions[j]? = some x ∧ x.readAhead b.world = some x' ∧ b' = b.set j x' := by
  simp only [reader?, Option.bind_eq_bind, Option.bind_eq_some_iff, Option.pure_def,
    Option.some.injEq] at h
  obtain ⟨x, hx, x', hread, rfl⟩ := h
  exact ⟨x, x', hx, hread, rfl⟩

end Bus

theorem revoking_self (s : Subscription σ) (w : World) : s.revoking w w = [] := by
  rw [Subscription.revoking]
  cases w.isCancelled? s.options.governor <;> rfl

theorem Bus.happenings_eq (hs : b.subscriptions[i]? = some s) (m : Move σ) :
    b.happenings drive i m =
      s.revoking b.world (b.move drive m).world ++ b.doings drive i s m := by
  rw [happenings, hs]

/-- A move that only changes the shared world, as far as subscription `i` can see. -/
theorem Tracks.others {m : Move σ} {s' : Subscription σ} (h : Tracks l b.world s)
    (hs : b.subscriptions[i]? = some s) (hnone : b.doings drive i s m = [])
    (hw : b.world.cancelled ⊆ (b.move drive m).world.cancelled)
    (hsame : ∀ l w, Tracks l w s → Tracks l w s') :
    Follows l (b.happenings drive i m) (b.move drive m).world s' := by
  obtain ⟨hruns, htracks⟩ := h.world hw
  rw [Bus.happenings_eq hs, hnone, List.append_nil]
  exact ⟨hruns, hsame _ _ htracks⟩

/-- A party that has to wait changes nothing. -/
theorem Tracks.still {m : Move σ} (hs : b.subscriptions[i]? = some s) (h : Tracks l b.world s)
    (hmove : b.move drive m = b) (hnone : b.doings drive i s m = []) :
    ∃ s', (b.move drive m).subscriptions[i]? = some s' ∧
      Follows l (b.happenings drive i m) (b.move drive m).world s' := by
  refine ⟨s, by rw [hmove]; exact hs, h.others hs hnone ?_ fun _ _ h => h⟩
  rw [hmove]
  exact List.Subset.refl _

/-- A loop makes its step, and that of another subscription changes the shared world only. -/
theorem Tracks.loop (hs : b.subscriptions[i]? = some s) (h : Tracks l b.world s) (j : Nat)
    (c : Bool) :
    ∃ s', (b.move drive (.loop j c)).subscriptions[i]? = some s' ∧
      Follows l (b.happenings drive i (.loop j c)) (b.move drive (.loop j c)).world s' := by
  cases hloop : b.loop? drive j c with
  | none =>
    have hmove : b.move drive (.loop j c) = b := by simp [Bus.move, hloop]
    have hnone : b.doings drive i s (.loop j c) = [] := by
      rw [Bus.doings, if_neg]
      rintro ⟨rfl, hadv⟩
      obtain ⟨⟨w, s'⟩, hadv⟩ := Option.isSome_iff_exists.1 hadv
      simp [Bus.loop?, hs, hadv] at hloop
    exact h.still hs hmove hnone
  | some b' =>
    have hmove : b.move drive (.loop j c) = b' := by simp [Bus.move, hloop]
    obtain ⟨x, w, x', hx, hadv, rfl⟩ := Bus.loop?_eq_some hloop
    by_cases hj : j = i
    · subst hj
      obtain rfl : s = x := by simpa [hs] using hx
      have hlt : j < b.subscriptions.length := (List.getElem?_eq_some_iff.1 hs).1
      refine ⟨x', by simp [hmove, Bus.set, hlt], ?_⟩
      have hdoing : b.doings drive j s (.loop j c) = s.doing drive b.world := by
        simp [Bus.doings, hadv]
      rw [Bus.happenings_eq hs, hmove, hdoing]
      exact h.advance hadv
    · have hnone : b.doings drive i s (.loop j c) = [] := by simp [Bus.doings, hj]
      refine ⟨s, by simpa [hmove, Bus.set, hj] using hs, h.others hs hnone ?_ fun _ _ h => h⟩
      rw [hmove]
      exact cancelled_advance hadv

/-- A reader makes its step, which nobody sees. -/
theorem Tracks.reader (hs : b.subscriptions[i]? = some s) (h : Tracks l b.world s) (j : Nat) :
    ∃ s', (b.move drive (.reader j)).subscriptions[i]? = some s' ∧
      Follows l (b.happenings drive i (.reader j)) (b.move drive (.reader j)).world s' := by
  cases hreader : b.reader? j with
  | none =>
    have hmove : b.move drive (.reader j) = b := by simp [Bus.move, hreader]
    exact h.still hs hmove rfl
  | some b' =>
    have hmove : b.move drive (.reader j) = b' := by simp [Bus.move, hreader]
    obtain ⟨x, x', hx, hread, rfl⟩ := Bus.reader?_eq_some hreader
    have hw : b.world.cancelled ⊆ (b.move drive (.reader j)).world.cancelled := by
      rw [hmove]
      exact List.Subset.refl _
    by_cases hj : j = i
    · subst hj
      obtain rfl : s = x := by simpa [hs] using hx
      have hlt : j < b.subscriptions.length := (List.getElem?_eq_some_iff.1 hs).1
      obtain ⟨f, f', -, -, rfl⟩ := readAhead_eq_some hread
      refine ⟨{ s with feed := some f' }, by simp [hmove, Bus.set, hlt], ?_⟩
      exact h.others hs rfl hw fun _ _ h => h.same rfl rfl rfl rfl
    · exact ⟨s, by simpa [hmove, Bus.set, hj] using hs, h.others hs rfl hw fun _ _ h => h⟩

/-- Somebody asks subscription `j` to stop, as `f` does it. -/
theorem Tracks.asked {m : Move σ} {j : Nat} {f : Subscription σ → Subscription σ}
    (hs : b.subscriptions[i]? = some s) (h : Tracks l b.world s)
    (hmove : b.move drive m = b.change j f)
    (hdoing : b.doings drive i s m = if j = i then [.asked] else [])
    (hf : Tracks (l.after .asked) b.world (f s)) :
    ∃ s', (b.move drive m).subscriptions[i]? = some s' ∧
      Follows l (b.happenings drive i m) (b.move drive m).world s' := by
  have hworld : (b.move drive m).world = b.world := by rw [hmove]; rfl
  have hat : (b.move drive m).subscriptions[i]? = some (if j = i then f s else s) := by
    rw [hmove, Bus.change, List.getElem?_modify, hs]
    split <;> rfl
  refine ⟨_, hat, ?_⟩
  rw [Bus.happenings_eq hs, hworld, revoking_self, hdoing, List.nil_append]
  split
  · exact ⟨⟨trivial, trivial⟩, hf⟩
  · exact ⟨trivial, h⟩

/-- Whatever a party of the bus does, a subscription follows the rules of a life. -/
theorem Tracks.move (hs : b.subscriptions[i]? = some s) (h : Tracks l b.world s) (m : Move σ) :
    ∃ s', (b.move drive m).subscriptions[i]? = some s' ∧
      Follows l (b.happenings drive i m) (b.move drive m).world s' := by
  cases m with
  | loop j c => exact h.loop hs j c
  | reader j => exact h.reader hs j
  | cancel token =>
    exact ⟨s, hs, h.others hs rfl (List.subset_cons_self token _) fun _ _ h => h⟩
  | close j => exact h.asked hs rfl rfl (h.cancel true)
  | drop j => exact h.asked hs rfl rfl ((h.cancel true).same rfl rfl rfl rfl)
  | release j n =>
    have hat : (b.move drive (.release j n)).subscriptions[i]? =
        some (if j = i then s.release n else s) := by
      rw [Bus.move, Bus.change, List.getElem?_modify, hs]
      split <;> rfl
    refine ⟨_, hat, h.others hs rfl (List.Subset.refl _) fun _ _ h => ?_⟩
    split
    · exact h.same rfl rfl rfl rfl
    · exact h
  | closeSubscriber n =>
    refine ⟨s, hs, h.others hs rfl ?_ fun _ _ h => h⟩
    rw [Bus.move, World.cancelled_closeSubscriber]
    exact List.Subset.refl _
  | start x =>
    have hlt : i < b.subscriptions.length := (List.getElem?_eq_some_iff.1 hs).1
    refine ⟨s, ?_, h.others hs rfl (List.Subset.refl _) fun _ _ h => h⟩
    rw [Bus.move, Bus.add, List.getElem?_append_left hlt]
    exact hs

/-! ## Deeds -/

variable {a : Attended σ}

namespace Attended

theorem held?_eq_some {j : Nat} {x : Subscription σ} (h : a.held? j = some x) :
    a.bus.subscriptions[j]? = some x :=
  (Option.filter_eq_some_iff.1 h).1

theorem reply?_eq_some {place j : Nat} {r : Except Error Unit} (h : a.reply? place = some (j, r)) :
    ∃ x, a.bus.subscriptions[j]? = some x ∧ x.outcome? = some r := by
  simp only [reply?, Option.bind_eq_bind, Option.bind_eq_some_iff, Option.pure_def,
    Option.some.injEq, Prod.mk.injEq] at h
  obtain ⟨j', -, x, hx, r', hr', rfl, rfl⟩ := h
  exact ⟨x, hx, hr'⟩

end Attended

/-- Whatever a party does, a subscription follows the rules of a life: the calls on it tell what it
has come to. -/
theorem Tracks.deed (hs : a.bus.subscriptions[i]? = some s) (h : Tracks l a.bus.world s)
    (d : Deed σ) :
    ∃ s', (a.after drive d).bus.subscriptions[i]? = some s' ∧
      Follows l (a.happenings drive i d) (a.after drive d).bus.world s' := by
  cases d with
  | move m => exact h.move hs m
  | wait j =>
    rw [Attended.after]
    split <;> exact ⟨s, hs, trivial, h⟩
  | close j =>
    rw [Attended.after, Attended.happenings]
    split
    · exact h.move hs (.close j)
    · exact ⟨s, hs, trivial, h⟩
  | comeBack place =>
    have hsame : (a.after drive (.comeBack place)).bus = a.bus := by
      rw [Attended.after]
      split <;> rfl
    refine ⟨s, by rw [hsame]; exact hs, ?_⟩
    rw [Attended.happenings, hsame]
    cases hreply : a.reply? place with
    | none => exact ⟨trivial, h⟩
    | some reply =>
      obtain ⟨j, r⟩ := reply
      by_cases hj : j = i
      · subst hj
        obtain ⟨x, hx, hr⟩ := Attended.reply?_eq_some hreply
        obtain rfl : s = x := by simpa [hs] using hx
        have hover : l.stage = .over r := by
          have hresult : l.stage.result? = some r := h.outcome?.symm.trans hr
          cases hstage : l.stage <;> simp_all [LifeStage.result?]
        rw [Option.filter_some_pos (by simp)]
        exact ⟨⟨hover, trivial⟩, h⟩
      · rw [Option.filter_some_neg (by simpa using hj)]
        exact ⟨trivial, h⟩
  | poll j =>
    refine ⟨s, hs, ?_⟩
    rw [Attended.happenings]
    split
    · next hj =>
      subst hj
      cases hheld : a.held? j with
      | none => exact ⟨trivial, h⟩
      | some x =>
        obtain rfl : s = x := by simpa [hs] using Attended.held?_eq_some hheld
        exact ⟨⟨congrArg Option.isSome h.result, trivial⟩, h⟩
    · exact ⟨trivial, h⟩

/-- A subscription follows the rules of a life, whatever the parties do in whatever order. -/
theorem Tracks.chronicle (hs : a.bus.subscriptions[i]? = some s) (h : Tracks l a.bus.world s)
    (deeds : List (Deed σ)) :
    ∃ s', (a.afterAll drive deeds).bus.subscriptions[i]? = some s' ∧
      Follows l (a.chronicle drive i deeds) (a.afterAll drive deeds).bus.world s' := by
  induction deeds generalizing a l s with
  | nil => exact ⟨s, hs, trivial, h⟩
  | cons d deeds ih =>
    obtain ⟨s₁, hs₁, hfirst⟩ := h.deed hs d
    obtain ⟨s₂, hs₂, hrest⟩ := ih hs₁ hfirst.tracks
    exact ⟨s₂, hs₂, hfirst.append hrest⟩

/-- The history of a new subscription, whatever else is on the bus. -/
theorem chronicle_spawn (drive : σ → Action σ) (a : Attended σ) (topic : String)
    (options : SubscribeOptions) (handler : Handler) (gated : Bool) (feed : Option Feed) (st : σ)
    (deeds : List (Deed σ)) :
    let i := a.bus.subscriptions.length
    let added := a.add (.spawn topic options handler gated feed st)
    ∃ s', (added.afterAll drive deeds).bus.subscriptions[i]? = some s' ∧
      Follows (.start (a.bus.world.isCancelled? options.governor))
        (added.chronicle drive i deeds) (added.afterAll drive deeds).bus.world s' :=
  Tracks.chronicle (by simp [Attended.add, Bus.add])
    (tracks_spawn topic options handler gated feed st) deeds

end PubSub
