import PubSub.Proofs.Bus.Handing
import PubSub.Session

/-!
# Loops on one thread

On one thread a loop goes on until it waits or lets others go first. Then at most one loop has a
message in hand, and until the first close the messages that a subscriber was seeded with are those
that handlers were given, in this order, followed by those that are pending. After a close there is
none of either (`fifo_conserved`).
-/

namespace PubSub

/-- Whether the action waits for something that may take its time. -/
def Action.waits : Action Loop → Bool
  | .receive _ | .awaitCancel _ => true
  | _ => false

/-- Whether a loop is at a point where it waits: for its handler, for a record or a token, or for
nothing any more. It does not wait before its handler is called, as it has a dispatcher of its own
and nobody else is in there. -/
def Phase.waits : Phase Loop → Bool
  | .running l => l.act.waits
  | .called _ _ => false
  | .handling _ _ | .ended _ | .over | .abandoned => true

/-- A bus whose loops run on one thread. -/
structure Thread where
  bus : Bus Loop
  /-- The loop that has the thread and goes on. -/
  busy : Option Nat

namespace Thread

open Change (steps)

def start (w : World) : Thread := ⟨.start w, none⟩

/-- What may happen: while a loop has the thread, nobody else does anything but readers, which have
threads of their own. -/
def Admits (t : Thread) : Change → Prop
  | .move (.loop i _) => t.busy = none ∨ t.busy = some i
  | .move (.reader _) => True
  | c => t.busy = none ∧ t.bus.Admits c

/-- Who has the thread after a change: a loop that made a step keeps it, unless it lets others go
first or waits now. -/
def busyAfter (t : Thread) : Change → Option Nat
  | .move (.loop i favours) =>
    let p := (t.bus.apply (.move (.loop i favours))).phase? i
    if t.bus.givesWay Loop.act i || p.all (·.waits) then none else some i
  | _ => t.busy

def after (t : Thread) (c : Change) : Thread := ⟨t.bus.apply c, t.busyAfter c⟩

/-- The changes lead from one state of the thread to another. -/
inductive Runs : Thread → List Change → Thread → Prop
  | rest (t : Thread) : Runs t [] t
  | step {t t' : Thread} {c : Change} {cs : List Change} :
      t.Admits c → Runs (t.after c) cs t' → Runs t (c :: cs) t'

/-! ## One loop at most has a message -/

/-- Only the loop that has the thread may have a message in hand. -/
structure Orderly (n : Nat) (t : Thread) : Prop where
  kept : t.bus.Kept n
  idle : ∀ i topic, t.busy ≠ some i → t.bus.hand n topic i = none

/-- The messages of the topic that are left: the one in hand, and those that are pending. -/
def left (n : Nat) (topic : String) (t : Thread) : List Message :=
  (t.busy.bind (t.bus.hand n topic)).toList ++ t.bus.world.pending n topic

variable {n : Nat} {topic : String} {t t' : Thread} {c : Change} {cs : List Change}

theorem held_of_waits {p : Phase Loop} (h : p.waits = true) : p.held n topic = none := by
  cases p with
  | running l =>
    cases l with
    | memory l =>
      obtain ⟨k, t, p⟩ := l
      cases p <;> cases h
    | replay | script => rfl
  | called => cases h
  | handling | ended | «over» | abandoned => rfl

/-- A loop that lets others go first goes on with nothing in hand. -/
theorem advance_pause {s : Subscription Loop} (hpause : s.givesWay Loop.act = true) (favours : Bool)
    (w : World) :
    ∃ next, s.advance Loop.act favours w = some (w, s.goOn next) ∧
      ∀ n topic, (Phase.running next).held n topic = none := by
  rw [Subscription.givesWay] at hpause
  rw [Subscription.advance]
  cases hphase : s.phase with
  | running l =>
    simp only [hphase] at hpause
    cases hact : l.act with
    | pause next =>
      refine ⟨next, by simp only [hact, Subscription.perform], ?_⟩
      cases l with
      | memory l =>
        obtain ⟨k, t, p⟩ := l
        cases p with
        | rest =>
          cases hact
          exact fun _ _ => ite_self none
        | look | take | offer | putBack | stop => cases hact
      | replay l =>
        have hl := elsewhere_replay l
        rw [hact] at hl
        exact fun n topic => held_of_not_draws (hl.leads next rfl n topic)
      | script l =>
        have hl := elsewhere_script l
        rw [hact] at hl
        exact fun n topic => held_of_not_draws (hl.leads next rfl n topic)
    | check | dispatch | fail | cancel | cancelOwn | awaitCancel | take | putBack | receive | report
    | log | finish | panic => simp [hact, Action.isPause] at hpause
  | called | handling | ended | «over» | abandoned => simp [hphase] at hpause

/-- A loop that gives up the thread with its step has nothing in hand. -/
theorem hand_of_freed {i : Nat} {favours : Bool}
    (h : t.busyAfter (.move (.loop i favours)) = none) :
    (t.bus.apply (.move (.loop i favours))).hand n topic i = none := by
  rw [busyAfter] at h
  split at h
  · next hfree =>
    rcases Bool.or_eq_true_iff.1 hfree with hpause | hwaits
    · cases hs : t.bus.subscriptions[i]? with
      | none => simp [Bus.givesWay, hs] at hpause
      | some s =>
        have hpause' : s.givesWay Loop.act = true := by simpa [Bus.givesWay, hs] using hpause
        obtain ⟨next, hadv, hnone⟩ := advance_pause hpause' favours t.bus.world
        have hloop : t.bus.loop? Loop.act i favours =
            some { t.bus.set i (s.goOn next) with world := t.bus.world } := by
          simp [Bus.loop?, hs, hadv]
        have happly : t.bus.apply (.move (.loop i favours)) =
            { t.bus.set i (s.goOn next) with world := t.bus.world } := by
          simp [Bus.apply, Bus.move, hloop]
        have hi : i < t.bus.subscriptions.length := (List.getElem?_eq_some_iff.1 hs).1
        rw [happly, Bus.hand, Bus.phase?_set hi, if_pos rfl]
        exact hnone n topic
    · rw [Bus.hand]
      cases hp : (t.bus.apply (.move (.loop i favours))).phase? i with
      | none => rfl
      | some p =>
        rw [hp] at hwaits
        exact held_of_waits hwaits
  · cases h

theorem admits_bus (h : t.Admits c) : t.bus.Admits c := by
  cases c with
  | world w => exact h.2
  | move m =>
    cases m with
    | start s => exact h.2
    | loop | reader | cancel | close | drop | release | closeSubscriber => trivial

/-- A step of a loop leaves the thread to nobody else. -/
theorem busyAfter_loop (t : Thread) (i : Nat) (favours : Bool) :
    t.busyAfter (.move (.loop i favours)) = none ∨
      t.busyAfter (.move (.loop i favours)) = some i := by
  rw [busyAfter]
  split
  · exact .inl rfl
  · exact .inr rfl

theorem busyAfter_of_not_loop (hloop : ∀ i favours, c ≠ .move (.loop i favours)) :
    t.busyAfter c = t.busy := by
  cases c with
  | world w => rfl
  | move m =>
    cases m with
    | loop i favours => exact absurd rfl (hloop i favours)
    | reader | cancel | close | drop | release | closeSubscriber | start => rfl

/-- With one loop that may have the thread, what is left is what it has in hand and what is
pending. -/
theorem Orderly.left_eq (ht : t.Orderly n) {i : Nat} (h : t.busy = none ∨ t.busy = some i) :
    t.left n topic = (t.bus.hand n topic i).toList ++ t.bus.world.pending n topic := by
  rcases h with h | h
  · rw [left, h, ht.idle i topic (by simp [h])]
    rfl
  · rw [left, h, Option.bind_some]

/-! ## Steps -/

/-- Whatever happens on the thread, at most one loop has a message in hand. -/
theorem Orderly.after (ht : t.Orderly n) (hc : t.Admits c) : (t.after c).Orderly n := by
  refine ⟨ht.kept.apply (admits_bus hc), fun j topic hj => ?_⟩
  rcases c.loop_or with ⟨i, favours, rfl⟩ | hnot
  · -- the loop that made the step has the thread or gave it up; the others had nothing before
    by_cases hji : j = i
    · subst hji
      rcases busyAfter_loop t j favours with hfree | hkeeps
      · exact hand_of_freed hfree
      · exact absurd hkeeps hj
    · have hother : t.busy ≠ some j := by
        rcases hc with hbusy | hbusy
        · simp [hbusy]
        · simp [hbusy, Ne.symm hji]
      exact (Bus.hand_apply_other favours hji).trans (ht.idle j topic hother)
  · have hbusy : (t.after c).busy = t.busy := busyAfter_of_not_loop hnot
    rw [hbusy] at hj
    exact ((ht.kept.still topic (admits_bus hc) hnot).1 j).trans (ht.idle j topic hj)

/-- What is left before a change that closes nothing is what it gives to a handler, and what is
left after it. -/
theorem Orderly.left_after (ht : t.Orderly n) (hc : t.Admits c) (hopen : t.bus.closes n c = false) :
    t.left n topic = t.bus.given n topic c ++ (t.after c).left n topic := by
  have ht' := ht.after hc
  rcases c.loop_or with ⟨i, favours, rfl⟩ | hnot
  · have htrade := (ht.kept.loop_deals topic i favours hopen).trade
    rw [ht.left_eq hc, ht'.left_eq (busyAfter_loop t i favours)]
    exact htrade.conserves
  · have hbusy : (t.after c).busy = t.busy := busyAfter_of_not_loop hnot
    obtain ⟨hhand, hgiven, hpending⟩ := ht.kept.still topic (admits_bus hc) hnot
    have hhands : (t.after c).bus.hand n topic = t.bus.hand n topic := funext hhand
    rw [hgiven, left, left, hbusy, hhands]
    exact congrArg _ (hpending hopen).symm

/-- A close leaves nothing. -/
theorem Orderly.left_closed (ht : t.Orderly n) (hc : t.Admits c)
    (hclose : t.bus.closes n c = true) :
    t.bus.given n topic c = [] ∧ (t.after c).left n topic = [] := by
  obtain ⟨hgiven, hpending⟩ := ht.kept.closing topic hclose
  refine ⟨hgiven, ?_⟩
  -- either nobody has the thread, or the loop whose handler closes the subscriber
  have hnobody : (t.after c).busy.bind ((t.after c).bus.hand n topic) = none := by
    rcases c.loop_or with ⟨i, favours, rfl⟩ | hnot
    · rcases busyAfter_loop t i favours with hfree | hkeeps
      · exact congrArg (Option.bind · _) hfree
      · have hbusy : (t.after (.move (.loop i favours))).busy = some i := hkeeps
        rw [hbusy]
        exact ht.kept.closing_hand hclose
    · cases c with
      | world w => cases hclose
      | move m =>
        cases m with
        | loop i favours => exact absurd rfl (hnot i favours)
        | closeSubscriber k => exact congrArg (Option.bind · _) hc.1
        | reader | cancel | close | drop | release | start => cases hclose
  rw [left, hnobody]
  exact hpending

/-! ## Runs -/

theorem Runs.orderly (ht : t.Orderly n) (h : Runs t cs t') : t'.Orderly n := by
  induction h with
  | rest t => exact ht
  | step hc _ ih => exact ih (ht.after hc)

/-- Until the first close, what was left at first is what handlers were given, and what is left. -/
theorem Runs.left_eq (ht : t.Orderly n) (h : Runs t cs t')
    (hopen : t.bus.closesAmong n cs = false) :
    t.left n topic = t.bus.handed n topic cs ++ t'.left n topic := by
  -- by induction on the run, with `Orderly` as what all its states have in common
  induction h with
  | rest t => rfl
  | step hc hrun ih =>
    obtain ⟨hfirst, hlater⟩ := Bool.or_eq_false_iff.1 hopen
    rw [ht.left_after hc hfirst, ih (ht.after hc) hlater, Bus.handed, List.append_assoc]
    rfl

/-- Where nothing is left, nothing comes any more. -/
theorem Runs.silent (ht : t.Orderly n) (h : Runs t cs t') (hnone : t.left n topic = []) :
    t.bus.handed n topic cs = [] ∧ t'.left n topic = [] := by
  induction h with
  | rest t => exact ⟨rfl, hnone⟩
  | @step t t' c cs hc hrun ih =>
    have hstep : t.bus.given n topic c = [] ∧ (t.after c).left n topic = [] := by
      cases hclose : t.bus.closes n c with
      | true => exact ht.left_closed hc hclose
      | false => exact List.append_eq_nil_iff.1 ((ht.left_after hc hclose).symm.trans hnone)
    obtain ⟨hlater, hend⟩ := ih (ht.after hc) hstep.2
    refine ⟨?_, hend⟩
    rw [Bus.handed, hstep.1]
    exact hlater

/-- After a close nothing is left. -/
theorem Runs.left_closed (ht : t.Orderly n) (h : Runs t cs t')
    (hclosed : t.bus.closesAmong n cs = true) : t'.left n topic = [] := by
  induction h with
  | rest t => cases hclosed
  | @step t t' c cs hc hrun ih =>
    -- the first close empties the topic, and what comes after it keeps it empty
    cases hfirst : t.bus.closes n c with
    | true => exact (hrun.silent (ht.after hc) (ht.left_closed hc hfirst).2).2
    | false =>
      have hlater : (t.bus.apply c).closesAmong n cs = true := by
        rw [Bus.closesAmong, hfirst] at hclosed
        exact hclosed
      exact ih (ht.after hc) hlater

/-- Where no loop has the thread, what is left is pending. -/
theorem left_of_free (h : t.busy = none) : t.left n topic = t.bus.world.pending n topic := by
  rw [left, h]
  rfl

theorem orderly_start {w : World} (h : w.InMemory n) : (start w).Orderly n :=
  ⟨Bus.start_kept h, fun _ _ _ => rfl⟩

/-! ## Seeds -/

/-- Whoever asks for the number of pending messages, by any name of the subscriber, is told `k`. -/
def CountsTo (n : Nat) (topic : String) (b : Bus Loop) (k : Nat) : Prop :=
  ∀ (s : Session) (name : String), s.bus = b → s.world.subscriberNames.get? name = some n →
    (s.runSubscriber (.pending name topic)).1 = .count k

theorem countsTo_pending (n : Nat) (topic : String) (b : Bus Loop) :
    CountsTo n topic b (b.world.pending n topic).length := by
  rintro s name rfl hname
  rw [Session.runSubscriber, hname]
  rfl

/-- Until the first close, the messages with which a subscriber was seeded are those that handlers
were given, in this order, followed by those that are pending. After a close nothing is pending, and
no handler is given a message any more. -/
theorem fifo_conserved {w : World} {shelf : Shelf} (hn : w.subscribers[n]? = some (.memory shelf))
    (hrun : Runs (start w) cs t) (topic : String) :
    let handed := (Bus.start w).handed n topic cs
    ((Bus.start w).closesAmong n cs = false → t.busy = none →
      shelf.messages topic = handed ++ t.bus.world.pending n topic ∧
        CountsTo n topic t.bus ((shelf.messages topic).length - handed.length)) ∧
      ((Bus.start w).closesAmong n cs = true → ∀ cs' t', Runs t cs' t' →
        t.bus.handed n topic cs' = [] ∧ t'.bus.world.pending n topic = [] ∧
          CountsTo n topic t'.bus 0) := by
  intro handed
  have hstart : (start w).Orderly n := orderly_start ⟨shelf, hn⟩
  refine ⟨fun hopen hfree => ?_, fun hclosed cs' t' hlater => ?_⟩
  · have hseeds : (start w).left n topic = shelf.messages topic := by
      rw [left_of_free rfl, World.pending, start, Bus.start, hn]
    have hall : shelf.messages topic = handed ++ t.bus.world.pending n topic := by
      rw [← hseeds, hrun.left_eq hstart hopen, left_of_free hfree]
      rfl
    refine ⟨hall, ?_⟩
    have hcount : (shelf.messages topic).length - handed.length =
        (t.bus.world.pending n topic).length := by
      rw [hall, List.length_append]
      omega
    rw [hcount]
    exact countsTo_pending n topic t.bus
  · have hnone : t.left n topic = [] := hrun.left_closed hstart hclosed
    obtain ⟨hsilent, hend⟩ := hlater.silent (hrun.orderly hstart) hnone
    have hpending : t'.bus.world.pending n topic = [] := (List.append_eq_nil_iff.1 hend).2
    have hcounts := countsTo_pending n topic t'.bus
    rw [hpending] at hcounts
    exact ⟨hsilent, hpending, hcounts⟩

/-! ## Two loops on one topic -/

theorem Runs.append {t'' : Thread} {cs' : List Change} (h : Runs t cs t') (h' : Runs t' cs' t'') :
    Runs t (cs ++ cs') t'' := by
  induction h with
  | rest t => exact h'
  | step hc _ ih => exact .step hc (ih h')

theorem runs_steps (i k : Nat) (t : Thread) (h : t.busy = none ∨ t.busy = some i) :
    Runs t (steps i k) ((steps i k).foldl after t) := by
  induction k generalizing t with
  | zero => exact .rest t
  | succ k ih => exact .step h (ih (t.after (.move (.loop i true))) (busyAfter_loop t i true))

/-- A subscriber under two names that holds four messages of a topic. -/
def fourPending : World :=
  let w := (World.start ⟨[], [], fun _ _ => none⟩).addSubscriber "m"
    (.memory (NameMap.empty.insert "t" [.ofText "a", .ofText "b", .ofText "c", .ofText "d"]))
  { w with subscriberNames := w.subscriberNames.insert "twin" 0 }

/-- A handler that waits for a permit and is done with its first message. -/
def patient : Subscribing :=
  ⟨"t", ⟨none, none, true⟩, fun _ _ => ⟨[], .flow .done⟩, true⟩

/-- A handler that closes the subscriber, by its other name, with its second message. -/
def closing : Subscribing :=
  ⟨"t", ⟨none, none, true⟩,
    .scripted [(2, ⟨[.closeSubscriber "twin"], .flow .continue⟩)] .continue, false⟩

def begins (x : Subscribing) : Change :=
  .move (.start (x.spawn none (.memory (.start 0 x.topic))))

/-- The second loop handles a message while the first one waits for its handler, and has given
another to its own handler then. -/
def overtaken : List Change :=
  begins patient :: steps 0 4 ++ begins closing :: steps 1 10

/-- The second loop closes the subscriber and ends, and so does the first one. -/
def thenClosed : List Change :=
  steps 1 8 ++ .move (.release 0 1) :: steps 0 4

theorem begins_fresh {x : Subscribing} (hstart : x.options.start = none) :
    Subscription.Fresh (x.spawn none (.memory (.start 0 x.topic))) := by
  refine ⟨x, .inl ⟨.start ⟨[], [], fun _ _ => none⟩, 0, ?_⟩⟩
  rw [Subscribing.toSubscriber, Subscribing.toMemory, SubscribeOptions.resolveStart, hstart]
  rfl

theorem runs_overtaken :
    Runs (start fourPending) overtaken (overtaken.foldl after (start fourPending)) := by
  rw [overtaken, List.cons_append, List.foldl_cons, List.foldl_append, List.foldl_cons]
  have hfirst : (start fourPending).Admits (begins patient) := ⟨rfl, begins_fresh rfl⟩
  have hloop := runs_steps 0 4 ((start fourPending).after (begins patient))
    (.inl (by decide +kernel))
  have hsecond : ((steps 0 4).foldl after ((start fourPending).after (begins patient))).Admits
      (begins closing) := ⟨by decide +kernel, begins_fresh rfl⟩
  exact .step hfirst (hloop.append (.step hsecond (runs_steps 1 10 _ (.inl (by decide +kernel)))))

theorem runs_thenClosed :
    Runs (overtaken.foldl after (start fourPending)) thenClosed
      ((overtaken ++ thenClosed).foldl after (start fourPending)) := by
  rw [List.foldl_append, thenClosed, List.foldl_append, List.foldl_cons]
  have hloop := runs_steps 1 8 (overtaken.foldl after (start fourPending))
    (.inl (by decide +kernel))
  have hrelease : ((steps 1 8).foldl after (overtaken.foldl after (start fourPending))).Admits
      (.move (.release 0 1)) := ⟨by decide +kernel, trivial⟩
  exact hloop.append (.step hrelease (runs_steps 0 4 _ (.inl (by decide +kernel))))

/-- A message that a waiting handler has, one that is handled and one that is given next, while the
fourth is pending; the close forgets the fourth. -/
theorem fifo_conserved_twoLoops :
    let t := overtaken.foldl after (start fourPending)
    let t' := (overtaken ++ thenClosed).foldl after (start fourPending)
    Runs (start fourPending) overtaken t ∧ t.busy = none ∧
      (Bus.start fourPending).handed 0 "t" overtaken = [.ofText "a", .ofText "b", .ofText "c"] ∧
      t.bus.world.pending 0 "t" = [.ofText "d"] ∧ CountsTo 0 "t" t.bus 1 ∧
      Runs (start fourPending) (overtaken ++ thenClosed) t' ∧
      (Bus.start fourPending).closesAmong 0 (overtaken ++ thenClosed) = true ∧
      t'.bus.world.pending 0 "t" = [] ∧ CountsTo 0 "t" t'.bus 0 := by
  intro t t'
  have hrun := runs_overtaken
  have hall := hrun.append runs_thenClosed
  have hopen : (Bus.start fourPending).closesAmong 0 overtaken = false := by decide +kernel
  have hfree : t.busy = none := by decide +kernel
  have hclosed : (Bus.start fourPending).closesAmong 0 (overtaken ++ thenClosed) = true := by
    decide +kernel
  have hhanded : (Bus.start fourPending).handed 0 "t" overtaken =
      [.ofText "a", .ofText "b", .ofText "c"] := by decide +kernel
  obtain ⟨hseeds, hcount⟩ := (fifo_conserved rfl hrun "t").1 hopen hfree
  obtain ⟨-, hnone, hzero⟩ := (fifo_conserved rfl hall "t").2 hclosed [] t' (.rest t')
  rw [hhanded] at hseeds hcount
  have hpending : t.bus.world.pending 0 "t" = [.ofText "d"] := by
    have hfour : Shelf.messages (NameMap.empty.insert "t"
        [.ofText "a", .ofText "b", .ofText "c", .ofText "d"]) "t" =
          [.ofText "a", .ofText "b", .ofText "c"] ++ [.ofText "d"] := rfl
    exact (List.append_cancel_left (hfour.symm.trans hseeds)).symm
  exact ⟨hrun, hfree, hhanded, hpending, hcount, hall, hclosed, hnone, hzero⟩

end Thread

end PubSub
