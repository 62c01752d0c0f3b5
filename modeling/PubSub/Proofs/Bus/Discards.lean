import PubSub.Proofs.Bus.Handing

/-!
# Messages that are put back

Where loops run on many threads, several of them can have a message in hand at a time. Then no
message is lost and none comes twice (`handed_perm`), and as long as there is at most one in hand
the order stays (`handed_of_alone`). With two in hand the order in which they are put back decides,
so that discarded messages may change places (`discards_swap`).
-/

namespace PubSub.Bus

open Change (steps)

variable {n : Nat} {topic : String} {b b' : Bus Loop} {c : Change} {cs : List Change}

/-- The changes lead from one state of the bus to another, with `P` in all states on the way. -/
inductive Runs (P : Bus Loop → Prop) : Bus Loop → List Change → Bus Loop → Prop
  | rest {b : Bus Loop} : P b → Runs P b [] b
  | step {b b' : Bus Loop} {c : Change} {cs : List Change} :
      P b → b.Admits c → Runs P (b.apply c) cs b' → Runs P b (c :: cs) b'

/-- The messages of the topic that loops have in hand. -/
def inHand (n : Nat) (topic : String) (b : Bus Loop) : List Message :=
  b.subscriptions.filterMap fun s => s.phase.held n topic

/-! ## Hands -/

theorem filterMap_cons_toList {α β : Type} (f : α → Option β) (x : α) (l : List α) :
    (x :: l).filterMap f = (f x).toList ++ l.filterMap f := by
  rw [List.filterMap_cons]
  cases f x <;> rfl

/-- An element that is replaced gives way to the new one. -/
theorem filterMap_set_perm {α β : Type} (f : α → Option β) {l : List α} {i : Nat} {x : α}
    (h : l[i]? = some x) (y : α) :
    ((f x).toList ++ (l.set i y).filterMap f).Perm ((f y).toList ++ l.filterMap f) := by
  induction l generalizing i with
  | nil => cases h
  | cons a l ih =>
    cases i with
    | zero =>
      obtain rfl : a = x := Option.some.inj h
      rw [List.set_cons_zero, filterMap_cons_toList, filterMap_cons_toList]
      exact List.perm_append_comm_assoc _ _ _
    | succ i =>
      rw [List.set_cons_succ, filterMap_cons_toList, filterMap_cons_toList]
      have hswap := List.perm_append_comm_assoc (f x).toList (f a).toList ((l.set i y).filterMap f)
      have hback := List.perm_append_comm_assoc (f a).toList (f y).toList (l.filterMap f)
      exact hswap.trans (((ih h).append_left _).trans hback)

theorem filterMap_congr_getElem? {α β : Type} {f : α → Option β} {l l' : List α}
    (h : ∀ i : Nat, l[i]?.bind f = l'[i]?.bind f) : l.filterMap f = l'.filterMap f := by
  induction l generalizing l' with
  | nil =>
    have hnone : ∀ x ∈ l', f x = none := by
      intro x hx
      obtain ⟨i, hi⟩ := List.mem_iff_getElem?.1 hx
      have hat := h i
      rw [hi] at hat
      exact hat.symm
    rw [List.filterMap_nil, List.filterMap_eq_nil_iff.2 hnone]
  | cons a l ih =>
    cases l' with
    | nil =>
      have hnone : ∀ x ∈ a :: l, f x = none := by
        intro x hx
        obtain ⟨i, hi⟩ := List.mem_iff_getElem?.1 hx
        have hat := h i
        rw [hi] at hat
        exact hat
      rw [List.filterMap_nil, List.filterMap_eq_nil_iff.2 hnone]
    | cons a' l' =>
      have hhead : f a = f a' := h 0
      rw [filterMap_cons_toList, filterMap_cons_toList, hhead, ih fun i => h (i + 1)]

/-- What other parties do changes nothing of what is in hand. -/
theorem Kept.inHand_still (hb : b.Kept n) (hc : b.Admits c)
    (hloop : ∀ i favours, c ≠ .move (.loop i favours)) :
    (b.apply c).inHand n topic = b.inHand n topic := by
  refine filterMap_congr_getElem? fun i => ?_
  have hhand := (hb.still topic hc hloop).1 i
  simp only [hand, phase?, Option.bind_map] at hhand
  exact hhand

/-- With a step of loop `i`, what it had in hand gives way to what it has in hand now. -/
theorem inHand_loop (n : Nat) (topic : String) (b : Bus Loop) (i : Nat) (favours : Bool) :
    ((b.hand n topic i).toList ++ (b.apply (.move (.loop i favours))).inHand n topic).Perm
      (((b.apply (.move (.loop i favours))).hand n topic i).toList ++ b.inHand n topic) := by
  cases hloop : b.loop? Loop.act i favours with
  | none => rw [(apply_waiting n topic hloop).1]
  | some b' =>
    obtain ⟨s, w, s', hs, -, happly, -, -⟩ := apply_loop n topic hloop
    have hi : i < b.subscriptions.length := (List.getElem?_eq_some_iff.1 hs).1
    have hbefore : b.hand n topic i = s.phase.held n topic := by
      rw [hand, phase?_of_getElem? hs, Option.bind_some]
    have hafter : (b.apply (.move (.loop i favours))).hand n topic i = s'.phase.held n topic := by
      rw [happly, hand, phase?_set hi, if_pos rfl, Option.bind_some]
    rw [hbefore, hafter, happly]
    exact filterMap_set_perm (fun s : Subscription Loop => s.phase.held n topic) hs s'

/-! ## Steps -/

/-- With one message at most in anybody's hands, a trade keeps their order. -/
theorem trade_keeps_order {h h' : Option Message} {ms ms' given l l' : List Message}
    (htrade : Trade h ms given h' ms') (hhands : (h.toList ++ l').Perm (h'.toList ++ l))
    (hl : l.length ≤ 1) (hl' : l'.length ≤ 1) : l ++ ms = given ++ (l' ++ ms') := by
  have hlength := hhands.length_eq
  cases htrade with
  | nothing =>
    have hsame : l'.Perm l := (List.perm_append_left_iff h.toList).1 hhands
    cases l with
    | nil =>
      rw [hsame.eq_nil]
      rfl
    | cons m rest =>
      obtain rfl : rest = [] := List.eq_nil_of_length_eq_zero (by simpa using hl)
      rw [List.perm_singleton.1 hsame, List.nil_append]
  | take m =>
    simp only [Option.toList_none, Option.toList_some, List.nil_append, List.length_append,
      List.length_singleton] at hlength hhands
    obtain rfl : l = [] := List.eq_nil_of_length_eq_zero (by omega)
    rw [List.perm_singleton.1 hhands]
    rfl
  | give m =>
    simp only [Option.toList_none, Option.toList_some, List.nil_append, List.length_append,
      List.length_singleton] at hlength hhands
    obtain rfl : l' = [] := List.eq_nil_of_length_eq_zero (by omega)
    rw [List.perm_singleton.1 hhands.symm]
    rfl
  | putBack m =>
    simp only [Option.toList_none, Option.toList_some, List.nil_append, List.length_append,
      List.length_singleton] at hlength hhands
    obtain rfl : l' = [] := List.eq_nil_of_length_eq_zero (by omega)
    rw [List.perm_singleton.1 hhands.symm]
    rfl

/-- A change that closes nothing neither makes nor loses messages. -/
theorem Kept.perm_apply (topic : String) (hb : b.Kept n) (hc : b.Admits c)
    (hopen : b.closes n c = false) :
    (b.inHand n topic ++ b.world.pending n topic).Perm
      (b.given n topic c ++ ((b.apply c).inHand n topic ++ (b.apply c).world.pending n topic)) := by
  rcases c.loop_or with ⟨i, favours, rfl⟩ | hnot
  · have hhands := inHand_loop n topic b i favours
    have htrade := (hb.loop_deals topic i favours hopen).trade.conserves
    refine List.perm_iff_count.2 fun m => ?_
    have hhand := hhands.count_eq m
    have htraded := congrArg (List.count m) htrade
    simp only [List.count_append] at hhand htraded ⊢
    omega
  · obtain ⟨-, hgiven, hpending⟩ := hb.still topic hc hnot
    rw [hgiven, hb.inHand_still hc hnot, hpending hopen]
    exact .refl _

/-- As long as one message at most is in hand, a change that closes nothing keeps the order. -/
theorem Kept.eq_apply (topic : String) (hb : b.Kept n) (hc : b.Admits c)
    (hopen : b.closes n c = false) (hbefore : (b.inHand n topic).length ≤ 1)
    (hafter : ((b.apply c).inHand n topic).length ≤ 1) :
    b.inHand n topic ++ b.world.pending n topic =
      b.given n topic c ++ ((b.apply c).inHand n topic ++ (b.apply c).world.pending n topic) := by
  rcases c.loop_or with ⟨i, favours, rfl⟩ | hnot
  · exact trade_keeps_order (hb.loop_deals topic i favours hopen).trade
      (inHand_loop n topic b i favours) hbefore hafter
  · obtain ⟨-, hgiven, hpending⟩ := hb.still topic hc hnot
    rw [hgiven, hb.inHand_still hc hnot, hpending hopen]
    rfl

/-! ## Runs -/

theorem Runs.here {P : Bus Loop → Prop} (h : Runs P b cs b') : P b := by
  cases h with
  | rest hP => exact hP
  | step hP => exact hP

theorem Runs.perm {P : Bus Loop → Prop} (topic : String) (hb : b.Kept n) (h : Runs P b cs b')
    (hopen : b.closesAmong n cs = false) :
    (b.inHand n topic ++ b.world.pending n topic).Perm
      (b.handed n topic cs ++ (b'.inHand n topic ++ b'.world.pending n topic)) := by
  induction h with
  | rest => exact .refl _
  | step _ hc _ ih =>
    obtain ⟨hfirst, hlater⟩ := Bool.or_eq_false_iff.1 hopen
    have hstep := hb.perm_apply topic hc hfirst
    have hrest := ih (hb.apply hc) hlater
    rw [handed, List.append_assoc]
    exact hstep.trans (hrest.append_left _)

theorem Runs.eq_of_alone (hb : b.Kept n)
    (h : Runs (fun b => (b.inHand n topic).length ≤ 1) b cs b')
    (hopen : b.closesAmong n cs = false) :
    b.inHand n topic ++ b.world.pending n topic =
      b.handed n topic cs ++ (b'.inHand n topic ++ b'.world.pending n topic) := by
  induction h with
  | rest => rfl
  | step hbefore hc hrun ih =>
    obtain ⟨hfirst, hlater⟩ := Bool.or_eq_false_iff.1 hopen
    rw [handed, List.append_assoc, ← ih (hb.apply hc) hlater]
    exact hb.eq_apply topic hc hfirst hbefore hrun.here

variable {w : World} {shelf : Shelf}

theorem start_left (hn : w.subscribers[n]? = some (.memory shelf)) (topic : String) :
    inHand n topic (Bus.start w) ++ w.pending n topic = shelf.messages topic := by
  rw [World.pending, hn]
  rfl

/-- In whatever order loops make their steps, until the first close no message of a topic is lost
and none comes twice. -/
theorem handed_perm (hn : w.subscribers[n]? = some (.memory shelf))
    (h : Runs (fun _ => True) (Bus.start w) cs b)
    (hopen : (Bus.start w).closesAmong n cs = false) (topic : String) :
    (shelf.messages topic).Perm
      ((Bus.start w).handed n topic cs ++ (b.inHand n topic ++ b.world.pending n topic)) := by
  rw [← start_left hn topic]
  exact h.perm topic (start_kept ⟨shelf, hn⟩) hopen

/-- If two loops never have messages of a topic in hand at a time, its messages keep their order,
however often they are put back. -/
theorem handed_of_alone (hn : w.subscribers[n]? = some (.memory shelf)) {topic : String}
    (h : Runs (fun b => (b.inHand n topic).length ≤ 1) (Bus.start w) cs b)
    (hopen : (Bus.start w).closesAmong n cs = false) :
    shelf.messages topic =
      (Bus.start w).handed n topic cs ++ (b.inHand n topic ++ b.world.pending n topic) := by
  rw [← start_left hn topic]
  exact h.eq_of_alone (start_kept ⟨shelf, hn⟩) hopen

/-! ## Two messages in hand -/

/-- A subscriber that holds three messages of a topic. -/
def threePending : World :=
  (World.start ⟨[], [], fun _ _ => none⟩).addSubscriber "m"
    (.memory (NameMap.empty.insert "t" [.ofText "a", .ofText "b", .ofText "c"]))

/-- A subscription with the governing token `g`, or with none. -/
def listener (governor : Option String) : Subscription Loop :=
  (⟨"t", ⟨none, governor, true⟩, fun _ _ => .continue, false⟩ : Subscribing).spawn none
    (.memory (.start 0 "t"))

/-- Two loops take a message each, their token is cancelled, and the one that took first puts back
first. Another loop gets what is pending then. -/
def bothPutBack : List Change :=
  [.move (.start (listener (some "g"))), .move (.start (listener (some "g")))] ++
    steps 0 2 ++ steps 1 2 ++ [.move (.cancel "g")] ++ steps 0 2 ++ steps 1 2

def thenAnother : List Change := .move (.start (listener none)) :: steps 2 24

theorem listener_fresh (governor : Option String) : (listener governor).Fresh :=
  ⟨⟨"t", ⟨none, governor, true⟩, fun _ _ => .continue, false⟩,
    .inl ⟨.start ⟨[], [], fun _ _ => none⟩, 0, rfl⟩⟩

theorem runs_all (h : ∀ c ∈ cs, ∀ b : Bus Loop, b.Admits c) (b : Bus Loop) :
    Runs (fun _ => True) b cs (cs.foldl apply b) := by
  induction cs generalizing b with
  | nil => exact .rest trivial
  | cons c cs ih =>
    have hrest : ∀ c' ∈ cs, ∀ b : Bus Loop, b.Admits c' :=
      fun c' hc' => h c' (List.mem_cons_of_mem c hc')
    exact .step trivial (h c List.mem_cons_self b) (ih hrest (b.apply c))

theorem bothPutBack_admits : ∀ c ∈ bothPutBack, ∀ b : Bus Loop, b.Admits c := by
  intro c hc b
  simp only [bothPutBack, steps, List.mem_append, List.mem_cons, List.mem_replicate,
    List.not_mem_nil, or_false] at hc
  rcases hc with (((((rfl | rfl) | ⟨-, rfl⟩) | ⟨-, rfl⟩) | rfl) | ⟨-, rfl⟩) | ⟨-, rfl⟩
  · exact listener_fresh (some "g")
  · exact listener_fresh (some "g")
  · trivial
  · trivial
  · trivial
  · trivial
  · trivial

theorem thenAnother_admits : ∀ c ∈ thenAnother, ∀ b : Bus Loop, b.Admits c := by
  intro c hc b
  simp only [thenAnother, steps, List.mem_cons, List.mem_replicate] at hc
  rcases hc with rfl | ⟨-, rfl⟩
  · exact listener_fresh none
  · trivial

/-- Two messages that were discarded have changed places, and the next subscription gets them in
the new order. -/
theorem discards_swap :
    ∃ b b', Runs (fun _ => True) (Bus.start threePending) bothPutBack b ∧
      (Bus.start threePending).handed 0 "t" bothPutBack = [] ∧ b.inHand 0 "t" = [] ∧
      b.world.pending 0 "t" = [.ofText "b", .ofText "a", .ofText "c"] ∧
      ¬ (b.world.pending 0 "t").Sublist (threePending.pending 0 "t") ∧
      Runs (fun _ => True) b thenAnother b' ∧
      b.handed 0 "t" thenAnother = [.ofText "b", .ofText "a", .ofText "c"] := by
  refine ⟨_, _, runs_all bothPutBack_admits _, by decide +kernel, by decide +kernel,
    by decide +kernel, by decide +kernel, runs_all thenAnother_admits _, by decide +kernel⟩

end PubSub.Bus
