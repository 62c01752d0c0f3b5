import PubSub.Proofs.Subscription.Lifecycle
import PubSub.Proofs.Subscription.Queue

/-!
# Handing out pending messages

Any number of loops work on the pending messages of a subscriber. With each change of the bus, at
most one of them takes a message, gives it to its handler or puts it back (`Kept.loop_deals`), and
nobody else touches messages (`Kept.still`), except that a close forgets all that are pending
(`Kept.closing`).
-/

namespace PubSub

/-- What happens on a bus: a party makes a move, or what all share is changed otherwise, as when
names are bound, messages published and tokens cancelled. -/
inductive Change where
  | move (m : Move Loop)
  | world (w : World)

/-- Whatever happens is a step of a loop or something else. -/
theorem Change.loop_or (c : Change) :
    (∃ i favours, c = .move (.loop i favours)) ∨ ∀ i favours, c ≠ .move (.loop i favours) := by
  by_cases h : ∃ i favours, c = .move (.loop i favours)
  · exact .inl h
  · exact .inr fun i favours hc => h ⟨i, favours, hc⟩

/-- A loop makes steps in a row. -/
def Change.steps (i k : Nat) : List Change := List.replicate k (.move (.loop i true))

/-- A subscription as somebody gets it. -/
def Subscription.Fresh (s : Subscription Loop) : Prop :=
  ∃ x : Subscribing, (∃ w n, x.toSubscriber w n = .ok s) ∨
    ∃ script, s = x.spawn none (.script (.next script)) ∨
      s = { x.spawn none (.script (.next script)) with phase := .abandoned }

namespace Bus

def apply (b : Bus Loop) : Change → Bus Loop
  | .move m => b.move Loop.act m
  | .world w => { b with world := w }

/-- What may happen: subscriptions begin as somebody gets them, and only the parties change the
subscribers that are there. -/
def Admits (b : Bus Loop) : Change → Prop
  | .move (.start s) => s.Fresh
  | .move _ => True
  | .world w => b.world.subscribers <+: w.subscribers

/-- The messages of the topic that a change gives to a handler. -/
def given (n : Nat) (topic : String) (b : Bus Loop) : Change → List Message
  | .move (.loop i favoursCancel) =>
    match b.subscriptions[i]?, (b.move Loop.act (.loop i favoursCancel)).subscriptions[i]? with
    | some s, some s' => s.given n topic s'
    | _, _ => []
  | _ => []

/-- Whether a change closes subscriber `n`. -/
def closes (n : Nat) (b : Bus Loop) : Change → Bool
  | .move (.closeSubscriber k) => k = n
  | .move (.loop i favoursCancel) =>
    (b.loop? Loop.act i favoursCancel).isSome && b.subscriptions[i]?.any (·.closes n b.world)
  | _ => false

/-- All messages of the topic that are given to handlers, in the order in which these are called. -/
def handed (n : Nat) (topic : String) (b : Bus Loop) : List Change → List Message
  | [] => []
  | c :: cs => b.given n topic c ++ (b.apply c).handed n topic cs

/-- Whether one of the changes closes subscriber `n`. -/
def closesAmong (n : Nat) (b : Bus Loop) : List Change → Bool
  | [] => false
  | c :: cs => b.closes n c || (b.apply c).closesAmong n cs

/-! ## What is kept -/

def phase? (b : Bus Loop) (i : Nat) : Option (Phase Loop) := b.subscriptions[i]?.map (·.phase)

/-- The message of the topic that loop `i` has in its hands. -/
def hand (n : Nat) (topic : String) (b : Bus Loop) (i : Nat) : Option Message :=
  (b.phase? i).bind (·.held n topic)

/-- Subscriber `n` is one in memory, and what is being delivered was offered by loops. -/
structure Kept (n : Nat) (b : Bus Loop) : Prop where
  inMemory : b.world.InMemory n
  wired : ∀ i p, b.phase? i = some p → p.Wired

end Bus

theorem toSubscriber_holds {x : Subscribing} {w : World} {k : Nat} {s : Subscription Loop}
    (h : x.toSubscriber w k = .ok s) :
    ∃ l, s.phase = .running l ∧ ∀ n topic, (Phase.running l).held n topic = none := by
  obtain ⟨feed, l, horigin, rfl⟩ := toSubscriber_origin h
  cases horigin with
  | memory => exact ⟨_, rfl, fun _ _ => ite_self none⟩
  | missing => exact ⟨_, rfl, fun _ _ => rfl⟩
  | file => exact ⟨_, rfl, fun _ _ => rfl⟩

/-- A new subscription has nothing in hand. -/
theorem Subscription.Fresh.phase {s : Subscription Loop} (h : s.Fresh) :
    s.phase.Wired ∧ ∀ n topic, s.phase.held n topic = none := by
  obtain ⟨x, ⟨w, k, h⟩ | ⟨script, rfl | rfl⟩⟩ := h
  · obtain ⟨l, hl, hnone⟩ := toSubscriber_holds h
    rw [hl]
    exact ⟨trivial, hnone⟩
  · exact ⟨trivial, fun _ _ => rfl⟩
  · exact ⟨trivial, fun _ _ => rfl⟩

namespace Bus

variable {n : Nat} {topic : String} {b b' : Bus Loop} {c : Change}

theorem phase?_of_getElem? {i : Nat} {s : Subscription Loop} (h : b.subscriptions[i]? = some s) :
    b.phase? i = some s.phase := by
  rw [phase?, h, Option.map_some]

theorem phase?_set {i : Nat} (hi : i < b.subscriptions.length) (s : Subscription Loop) (w : World)
    (j : Nat) :
    ({ b.set i s with world := w } : Bus Loop).phase? j =
      if j = i then some s.phase else b.phase? j := by
  by_cases hj : j = i
  · subst hj
    rw [phase?, Bus.set, List.getElem?_set_self hi, if_pos rfl]
    rfl
  · rw [phase?, Bus.set, List.getElem?_set_ne (Ne.symm hj), if_neg hj]
    rfl

theorem phase?_change (f : Subscription Loop → Subscription Loop)
    (hf : ∀ s, (f s).phase = s.phase) (i j : Nat) : (b.change i f).phase? j = b.phase? j := by
  rw [phase?, change, List.getElem?_modify, phase?]
  cases b.subscriptions[j]? with
  | none => rfl
  | some s =>
    by_cases hij : i = j
    · simp [hij, hf]
    · simp [hij]

theorem phase?_reader (i j : Nat) :
    (b.apply (.move (.reader i))).phase? j = b.phase? j := by
  rw [apply, move]
  cases hreader : b.reader? i with
  | none => rfl
  | some b' =>
    obtain ⟨s, s', hs, hread, rfl⟩ := reader?_eq_some hreader
    obtain ⟨f, f', -, -, rfl⟩ := readAhead_eq_some hread
    have hi : i < b.subscriptions.length := (List.getElem?_eq_some_iff.1 hs).1
    have hset := phase?_set hi { s with feed := some f' } b.world j
    by_cases hj : j = i
    · subst hj
      rw [if_pos rfl] at hset
      have hphase : b.phase? j = some s.phase := by rw [phase?, hs, Option.map_some]
      exact hset.trans hphase.symm
    · rw [if_neg hj] at hset
      exact hset

/-- Nobody but loops changes the phase of a subscription, and a new one has nothing in hand. -/
theorem phase?_apply (hc : b.Admits c) (hloop : ∀ i favours, c ≠ .move (.loop i favours))
    (j : Nat) :
    (b.apply c).phase? j = b.phase? j ∨
      b.phase? j = none ∧ ∃ s : Subscription Loop, s.Fresh ∧
        (b.apply c).phase? j = some s.phase := by
  cases c with
  | world w => exact .inl rfl
  | move m =>
    cases m with
    | loop i favours => exact absurd rfl (hloop i favours)
    | reader i => exact .inl (phase?_reader i j)
    | cancel | closeSubscriber => exact .inl rfl
    | close i => exact .inl (phase?_change .cancel (fun _ => rfl) i j)
    | drop i => exact .inl (phase?_change .drop (fun _ => rfl) i j)
    | release i k => exact .inl (phase?_change (·.release k) (fun _ => rfl) i j)
    | start s =>
      have happly : (b.apply (.move (.start s))).phase? j =
          (b.subscriptions ++ [s])[j]?.map (·.phase) := rfl
      rw [happly, List.getElem?_append]
      split
      · exact .inl rfl
      · next hj =>
        have hnone : b.phase? j = none := by
          rw [phase?, List.getElem?_eq_none (Nat.le_of_not_lt hj), Option.map_none]
        cases hj' : [s][j - b.subscriptions.length]? with
        | none => exact .inl hnone.symm
        | some x =>
          obtain rfl : x = s := by simpa using List.mem_of_getElem? hj'
          exact .inr ⟨hnone, x, hc, rfl⟩

theorem inMemory_apply (hmem : b.world.InMemory n) (hc : b.Admits c) :
    (b.apply c).world.InMemory n := by
  cases c with
  | world w =>
    obtain ⟨shelf, hn⟩ := hmem
    obtain ⟨more, hmore⟩ := hc
    have hlt : n < b.world.subscribers.length := (List.getElem?_eq_some_iff.1 hn).1
    refine ⟨shelf, ?_⟩
    rw [apply, ← hmore, List.getElem?_append_left hlt, hn]
  | move m =>
    cases m with
    | loop i favours =>
      rw [apply, move]
      cases hloop : b.loop? Loop.act i favours with
      | none => exact hmem
      | some b' =>
        obtain ⟨s, w, s', -, hadv, rfl⟩ := loop?_eq_some hloop
        exact advance_inMemory hmem hadv
    | reader i =>
      rw [apply, move]
      cases hreader : b.reader? i with
      | none => exact hmem
      | some b' =>
        obtain ⟨s, s', -, -, rfl⟩ := reader?_eq_some hreader
        exact hmem
    | closeSubscriber k => exact hmem.closeSubscriber k
    | cancel | close | drop | release | start => exact hmem

/-! ## Steps of loops -/

/-- A loop that has to wait trades nothing. -/
theorem apply_waiting (n : Nat) (topic : String) {i : Nat} {favours : Bool}
    (h : b.loop? Loop.act i favours = none) :
    b.apply (.move (.loop i favours)) = b ∧ b.given n topic (.move (.loop i favours)) = [] ∧
      b.closes n (.move (.loop i favours)) = false := by
  have hsame : b.move Loop.act (.loop i favours) = b := by simp [move, h]
  refine ⟨hsame, ?_, by simp [closes, h]⟩
  rw [given, hsame]
  cases b.subscriptions[i]? with
  | none => rfl
  | some s => exact Subscription.given_of_seen rfl

/-- A step of a loop is one of its subscription. -/
theorem apply_loop (n : Nat) (topic : String) {i : Nat} {favours : Bool}
    (h : b.loop? Loop.act i favours = some b') :
    ∃ s w s', b.subscriptions[i]? = some s ∧ s.advance Loop.act favours b.world = some (w, s') ∧
      b.apply (.move (.loop i favours)) = { b.set i s' with world := w } ∧
      b.given n topic (.move (.loop i favours)) = s.given n topic s' ∧
      b.closes n (.move (.loop i favours)) = s.closes n b.world := by
  obtain ⟨s, w, s', hs, hadv, rfl⟩ := loop?_eq_some h
  have hi : i < b.subscriptions.length := (List.getElem?_eq_some_iff.1 hs).1
  have hmove : b.move Loop.act (.loop i favours) = { b.set i s' with world := w } := by
    simp [move, h]
  refine ⟨s, w, s', hs, hadv, hmove, ?_, ?_⟩
  · simp only [given, hmove, hs, Bus.set, List.getElem?_set_self hi]
  · simp [closes, h, hs]

/-- A step of a loop leaves the hands of the others alone. -/
theorem hand_apply_other {i j : Nat} (favours : Bool) (hj : j ≠ i) :
    (b.apply (.move (.loop i favours))).hand n topic j = b.hand n topic j := by
  cases hloop : b.loop? Loop.act i favours with
  | none => rw [(apply_waiting n topic hloop).1]
  | some b' =>
    obtain ⟨s, w, s', hs, -, happly, -, -⟩ := apply_loop n topic hloop
    have hi : i < b.subscriptions.length := (List.getElem?_eq_some_iff.1 hs).1
    rw [happly, hand, phase?_set hi, if_neg hj, hand]

/-- Loop `i` trades on the topic, and no other loop does. -/
structure Deals (n : Nat) (topic : String) (i : Nat) (given : List Message) (b b' : Bus Loop) :
    Prop where
  others : ∀ j, j ≠ i → b'.hand n topic j = b.hand n topic j
  trade : Trade (b.hand n topic i) (b.world.pending n topic) given (b'.hand n topic i)
    (b'.world.pending n topic)

/-- A step of a loop that closes nothing is a trade of this loop. -/
theorem Kept.loop_deals (topic : String) (hb : b.Kept n) (i : Nat) (favours : Bool)
    (hopen : b.closes n (.move (.loop i favours)) = false) :
    Deals n topic i (b.given n topic (.move (.loop i favours))) b
      (b.apply (.move (.loop i favours))) := by
  cases hloop : b.loop? Loop.act i favours with
  | none =>
    obtain ⟨hsame, hgiven, -⟩ := apply_waiting n topic hloop
    rw [hsame, hgiven]
    exact ⟨fun _ _ => rfl, .nothing _ _⟩
  | some b' =>
    obtain ⟨s, w, s', hs, hadv, happly, hgiven, hcloses⟩ :=
      apply_loop n topic hloop
    have hi : i < b.subscriptions.length := (List.getElem?_eq_some_iff.1 hs).1
    have hphase := phase?_of_getElem? hs
    rw [hcloses] at hopen
    refine ⟨fun j hj => hand_apply_other favours hj, ?_⟩
    have htrade := advance_trades topic (hb.wired i _ hphase) hb.inMemory hopen hadv
    rw [happly, hgiven, hand, hphase, hand, phase?_set hi, if_pos rfl]
    exact htrade

/-! ## Other changes -/

/-- Only loops touch messages, except that a close forgets those that are pending. -/
theorem Kept.still (topic : String) (hb : b.Kept n) (hc : b.Admits c)
    (hloop : ∀ i favours, c ≠ .move (.loop i favours)) :
    (∀ j, (b.apply c).hand n topic j = b.hand n topic j) ∧ b.given n topic c = [] ∧
      (b.closes n c = false → (b.apply c).world.pending n topic = b.world.pending n topic) := by
  refine ⟨fun j => ?_, ?_, fun hopen => ?_⟩
  · rcases phase?_apply hc hloop j with hsame | ⟨hnone, s, hfresh, hs⟩
    · rw [hand, hsame, hand]
    · rw [hand, hs, hand, hnone]
      exact hfresh.phase.2 n topic
  · cases c with
    | world w => rfl
    | move m =>
      cases m with
      | loop i favours => exact absurd rfl (hloop i favours)
      | reader | cancel | close | drop | release | closeSubscriber | start => rfl
  · cases c with
    | world w =>
      obtain ⟨shelf, hn⟩ := hb.inMemory
      obtain ⟨more, hmore⟩ := hc
      have hlt : n < b.world.subscribers.length := (List.getElem?_eq_some_iff.1 hn).1
      rw [apply, World.pending, World.pending, ← hmore, List.getElem?_append_left hlt]
    | move m =>
      cases m with
      | loop i favours => exact absurd rfl (hloop i favours)
      | reader i =>
        rw [apply, move]
        cases hreader : b.reader? i with
        | none => rfl
        | some b' =>
          obtain ⟨s, s', -, -, rfl⟩ := reader?_eq_some hreader
          rfl
      | closeSubscriber k =>
        have hk : k ≠ n := by simpa [closes] using hopen
        rw [apply, move, World.pending_closeSubscriber, if_neg hk]
      | cancel | close | drop | release | start => rfl

/-- A close forgets all that is pending, and nobody gets or gives a message meanwhile. -/
theorem Kept.closing (topic : String) (hb : b.Kept n) (hclose : b.closes n c = true) :
    b.given n topic c = [] ∧ (b.apply c).world.pending n topic = [] := by
  cases c with
  | world w => cases hclose
  | move m =>
    cases m with
    | loop i favours =>
      cases hloop : b.loop? Loop.act i favours with
      | none =>
        obtain ⟨-, -, hopen⟩ := apply_waiting n topic hloop
        rw [hopen] at hclose
        cases hclose
      | some b' =>
        obtain ⟨s, w, s', hs, hadv, happly, hgiven, hcloses⟩ := apply_loop n topic hloop
        rw [hcloses] at hclose
        obtain ⟨hpending, hnone, -⟩ :=
          advance_closes topic (hb.wired i _ (phase?_of_getElem? hs)) hclose hadv
        rw [happly, hgiven]
        exact ⟨hnone, hpending⟩
    | closeSubscriber k =>
      have hk : k = n := by simpa [closes] using hclose
      refine ⟨rfl, ?_⟩
      rw [apply, move, World.pending_closeSubscriber, if_pos hk]
    | reader | cancel | close | drop | release | start => cases hclose

/-- A loop whose handler closes the subscriber has nothing in hand then. -/
theorem Kept.closing_hand (hb : b.Kept n) {i : Nat} {favours : Bool}
    (hclose : b.closes n (.move (.loop i favours)) = true) :
    (b.apply (.move (.loop i favours))).hand n topic i = none := by
  cases hloop : b.loop? Loop.act i favours with
  | none =>
    obtain ⟨-, -, hopen⟩ := apply_waiting n topic hloop
    rw [hopen] at hclose
    cases hclose
  | some b' =>
    obtain ⟨s, w, s', hs, hadv, happly, -, hcloses⟩ := apply_loop n topic hloop
    rw [hcloses] at hclose
    obtain ⟨-, -, hheld⟩ :=
      advance_closes topic (hb.wired i _ (phase?_of_getElem? hs)) hclose hadv
    have hi : i < b.subscriptions.length := (List.getElem?_eq_some_iff.1 hs).1
    rw [happly, hand, phase?_set hi, if_pos rfl]
    exact hheld

theorem start_kept {w : World} (h : w.InMemory n) : (Bus.start w).Kept n :=
  ⟨h, fun _ _ hp => by cases hp⟩

/-- Whatever happens is kept. -/
theorem Kept.apply (hb : b.Kept n) (hc : b.Admits c) : (b.apply c).Kept n := by
  refine ⟨inMemory_apply hb.inMemory hc, fun j p hp => ?_⟩
  rcases c.loop_or with ⟨i, favours, rfl⟩ | hloop
  · cases hstep : b.loop? Loop.act i favours with
    | none =>
      rw [(apply_waiting n "" hstep).1] at hp
      exact hb.wired j p hp
    | some b' =>
      obtain ⟨s, w, s', hs, hadv, happly, -, -⟩ := apply_loop n "" hstep
      have hi : i < b.subscriptions.length := (List.getElem?_eq_some_iff.1 hs).1
      rw [happly, phase?_set hi] at hp
      split at hp
      · obtain rfl := Option.some.inj hp
        exact advance_wired (hb.wired i _ (phase?_of_getElem? hs)) hadv
      · exact hb.wired j p hp
  · rcases phase?_apply hc hloop j with hsame | ⟨-, s, hs, hj⟩
    · exact hb.wired j p (hsame ▸ hp)
    · obtain rfl : s.phase = p := Option.some.inj (hj.symm.trans hp)
      exact hs.phase.1

end Bus

end PubSub
