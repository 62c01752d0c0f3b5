import PubSub.Proofs.Bus.Influence
import PubSub.Proofs.Subscription.Files
import PubSub.Proofs.Subscription.Lifecycle

/-!
# Subscriptions that are revoked from the start

A subscription whose governing token is cancelled already handles nothing and takes nothing
(`revoked_stops`). In memory, and on a file that begins with a message, it comes to the
cancellation. A file that is not there is not waited for, and a file without a message may be read
to its end before the token is looked at.
-/

namespace PubSub

/-- What a replay comes to that finds no message where a file begins. -/
def Files.endAtOnce? (f : Files) (node : Nat) : Option (Except Error Unit) :=
  match f.read node with
  | .error e => some (.error (.codec ⟨.unreadable e, none⟩))
  | .ok content =>
    match Record.next .start content with
    | .finished => some (.ok ())
    | .broken e => some (if e.isEnd then .ok () else .error (.codec e))
    | .message _ _ _ => none

variable {R : Except Error Unit → Prop} {node k : Nat} {w w' : World} {s s' : Subscription Loop}
  {f f' : Feed}

/-! ## A feed of which nothing was taken -/

/-- A record that was read first is a message, or is broken, and `R` is told what comes of it. -/
def First (R : Except Error Unit → Prop) : Except DecodeError Message → Prop
  | .ok _ => True
  | .error e => R (if e.isEnd then .ok () else .error (.codec e))

/-- All records that were read, the earliest first, if none was taken. -/
def Feed.read (f : Feed) : List (Except DecodeError Message) := f.queued ++ f.held.toList

inductive Untaken (R : Except Error Unit → Prop) (node : Nat) (f : Feed) : Prop
  | unread : f = .start node → Untaken R node f
  | empty : f.read = [] → f.ended = true → R (.ok ()) → Untaken R node f
  | begun (r : Except DecodeError Message) : f.read.head? = some r → First R r → Untaken R node f

/-- What is read later comes behind what was read. -/
theorem Feed.read_head? {content : Except SystemError Bytes} {r : Except DecodeError Message}
    (h : f.read? content = some f') (hr : f.read.head? = some r) : f'.read.head? = some r := by
  rw [Feed.read?] at h
  split at h
  · next r' hheld =>
    split at h
    · cases h
      simpa [Feed.read, hheld] using hr
    · cases h
  · next hheld =>
    split at h
    · cases h
    · cases h
      rw [Feed.read, hheld] at hr
      rw [Feed.read, Feed.decode_queued]
      cases hq : f.queued with
      | nil => simp [hq] at hr
      | cons x queue => simpa [hq] using hr

theorem Untaken.read (h : Untaken R node f) {files : Files}
    (hR : ∀ r, files.endAtOnce? node = some r → R r)
    (hread : f.read? (files.read f.node) = some f') : Untaken R node f' := by
  cases h with
  | unread hf =>
    subst hf
    have hdecode : f' = (Feed.start node).decode (files.read node) := by
      simpa [Feed.read?, Feed.start, eq_comm] using hread
    subst hdecode
    cases hcontent : files.read node with
    | error e =>
      simp only [Files.endAtOnce?, hcontent] at hR
      exact .begun (.error ⟨.unreadable e, none⟩) rfl (hR _ rfl)
    | ok content =>
      have hall : (Feed.start node).buffer ++ content.drop (Feed.start node).offset = content := rfl
      have hplace : (Feed.start node).place = .start := rfl
      simp only [Files.endAtOnce?, hcontent] at hR
      rw [Feed.decode]
      simp only [hall, hplace]
      cases hnext : Record.next .start content with
      | finished =>
        simp only [hnext] at hR
        exact .empty rfl rfl (hR _ rfl)
      | broken e =>
        simp only [hnext] at hR
        exact .begun (.error e) rfl (hR _ rfl)
      | message m place rest => exact .begun (.ok m) (by simp [Feed.read]; rfl) trivial
  | empty hnone hended hempty =>
    have hheld : f.held = none := by
      rw [Feed.read, List.append_eq_nil_iff] at hnone
      cases hh : f.held with
      | none => rfl
      | some r => simp [hh] at hnone
    simp [Feed.read?, hheld, hended] at hread
  | begun r hr hfirst => exact .begun r (Feed.read_head? hread hr) hfirst

/-- A feed from which nothing was taken and nothing will come is that of a file without records. -/
theorem Untaken.of_isDry (h : Untaken R node f) (hdry : f.isDry = true) : R (.ok ()) := by
  simp only [Feed.isDry, Bool.and_eq_true, List.isEmpty_iff, Option.isNone_iff_eq_none] at hdry
  obtain ⟨⟨hqueued, hheld⟩, hended⟩ := hdry
  cases h with
  | unread hf =>
    rw [hf] at hended
    cases hended
  | empty hnone _ hok => exact hok
  | begun r hr => simp [Feed.read, hqueued, hheld] at hr

/-! ## A revoked subscription -/

variable {source : Option Nat}

/-- A loop that only has to come to its end, which is one of `R`, and how many steps that may take.
It is in no state in which it holds a message that it took. -/
inductive Retreats (R : Except Error Unit → Prop) (source : Option Nat) :
    Phase Loop → Option Feed → Option (Except Error Unit) → Nat → Prop
  | look {n : Nat} {topic : String} {feed : Option Feed} : R (.error .cancelled) →
      Retreats R source (.running (.memory ⟨n, topic, .look⟩)) feed none 3
  | wait {node : Nat} {f : Feed} : source = some node → R (.error .cancelled) → Untaken R node f →
      Retreats R source (.running (.replay .wait)) (some f) none 5
  | check {m : Message} {feed : Option Feed} : R (.error .cancelled) →
      Retreats R source (.running (.replay (.look m))) feed none 3
  | note {e : DecodeError} {feed : Option Feed} : R (.ok ()) →
      Retreats R source (.running (.replay (.note e))) feed none 4
  | tell {e : DecodeError} {feed : Option Feed} : R (.ok ()) →
      Retreats R source (.running (.replay (.tell e))) feed none 3
  | stop {l : Loop} {r : Except Error Unit} {feed : Option Feed} : l.act = .finish r → R r →
      Retreats R source (.running l) feed none 2
  | ended {r : Except Error Unit} {feed : Option Feed} : R r →
      Retreats R source (.ended (.returned r)) feed none 1
  | gone {r : Except Error Unit} {feed : Option Feed} : R r →
      Retreats R source .over feed (some r) 0

/-- The reader may go on, but what it reads first matters only while nothing was taken. -/
theorem Retreats.read {p : Phase Loop} {result : Option (Except Error Unit)} {files : Files}
    (h : Retreats R source p (some f) result k)
    (hR : ∀ node, source = some node → ∀ r, files.endAtOnce? node = some r → R r)
    (hf : f.read? (files.read f.node) = some f') : Retreats R source p (some f') result k := by
  cases h with
  | look hr => exact .look hr
  | @wait node _ hsource hr huntaken =>
    exact .wait hsource hr (huntaken.read (hR node hsource) hf)
  | check hr => exact .check hr
  | note hr => exact .note hr
  | tell hr => exact .tell hr
  | stop hact hr => exact .stop hact hr
  | ended hr => exact .ended hr
  | gone hr => exact .gone hr

/-- A subscription whose governing token is cancelled and that has not failed. -/
structure Revoked (R : Except Error Unit → Prop) (source : Option Nat) (w : World)
    (s : Subscription Loop) (k : Nat) : Prop where
  governor : w.isCancelled? s.options.governor = true
  unfailed : s.dispatcher.failure = none
  retreats : Retreats R source s.phase s.feed s.result k

namespace Revoked

theorem isCancelled (h : Revoked R source w s k) : s.isCancelled w = true := by
  rw [Subscription.isCancelled, h.governor, Bool.or_true]

theorem world (h : Revoked R source w s k) (hw : w.cancelled ⊆ w'.cancelled) :
    Revoked R source w' s k :=
  ⟨World.isCancelled?_of_subset hw h.governor, h.unfailed, h.retreats⟩

/-- What came of a loop that waited for its first record. -/
theorem received {next : Received → Loop} {f : Feed} (hnext : next = fun r => .replay (match r with
      | .message m => .look m
      | .broken e => if e.isEnd then .note e else .stop (.error (.codec e))
      | .finished => .stop (.ok ())
      | .cancelled => .stop (.error .cancelled)))
    (hg : w.isCancelled? s.options.governor = true) (hu : s.dispatcher.failure = none)
    (hresult : s.result = none) (hfeed : s.feed = some f) (hf : Untaken R node f)
    (hr : R (.error .cancelled)) (h : Receives w s next s') : ∃ k < 5, Revoked R source w s' k := by
  subst hnext
  -- what is in the queue is what was read first
  have hfirst : ∀ {r queue}, f.queued = r :: queue → First R r := by
    intro r queue hq
    cases hf with
    | unread hstart =>
      subst hstart
      cases hq
    | empty hnone => simp [Feed.read, hq] at hnone
    | begun r' hhead hfirst =>
      rw [Feed.read, hq] at hhead
      cases hhead
      exact hfirst
  cases h with
  | cancelled =>
    refine ⟨2, by decide, hg, hu, ?_⟩
    rw [Subscription.goOn, hresult]
    exact .stop rfl hr
  | finished f' hf' hdry =>
    obtain rfl : f = f' := Option.some.inj (hfeed.symm.trans hf')
    have hok := hf.of_isDry hdry
    exact ⟨2, by decide, hg, hu, by rw [Subscription.goOn, hresult]; exact .stop rfl hok⟩
  | message f' m queue hf' hq =>
    exact ⟨3, by decide, hg, hu, by rw [Subscription.goOn, hresult]; exact .check hr⟩
  | broken f' e queue hf' hq =>
    obtain rfl : f = f' := Option.some.inj (hfeed.symm.trans hf')
    have hbroken : R (if e.isEnd then .ok () else .error (.codec e)) := hfirst hq
    by_cases hend : e.isEnd = true
    · rw [if_pos hend] at hbroken
      refine ⟨4, by decide, hg, hu, ?_⟩
      simp only [Subscription.goOn, hresult, hend, if_true]
      exact .note hbroken
    · rw [if_neg hend] at hbroken
      refine ⟨2, by decide, hg, hu, ?_⟩
      simp only [Subscription.goOn, hresult, hend]
      exact .stop rfl hbroken

/-- A step of a revoked loop brings it nearer to its end, and changes neither files nor what is
pending. -/
theorem advance {c : Bool} (h : Revoked R source w s k)
    (hadv : s.advance Loop.act c w = some (w', s')) :
    (∃ k' < k, Revoked R source w' s' k') ∧ w'.files = w.files ∧
      w'.subscribers = w.subscribers := by
  have hc := h.isCancelled
  obtain ⟨hg, hu, hretreats⟩ := h
  rw [Subscription.advance] at hadv
  obtain ⟨topic, options, handler, gated, permits, dispatcher, feed, phase, seen, deliveries,
    reported, result, held⟩ := s
  cases hretreats with
  | look hr =>
    simp only [Loop.act, MemoryLoop.act, Action.map, Subscription.perform, hc, if_true,
      Option.some.injEq, Prod.mk.injEq] at hadv
    obtain ⟨rfl, rfl⟩ := hadv
    exact ⟨⟨2, by decide, hg, hu, .stop rfl hr⟩, rfl, rfl⟩
  | wait hsource hr hf =>
    simp only [Loop.act, ReplayLoop.act, Action.map, Subscription.perform, Option.map_eq_some_iff,
      Prod.mk.injEq] at hadv
    obtain ⟨s₁, hs₁, rfl, rfl⟩ := hadv
    exact ⟨received rfl hg hu rfl rfl hf hr (receives hs₁), rfl, rfl⟩
  | check hr =>
    simp only [Loop.act, ReplayLoop.act, Action.map, Subscription.perform, hc, if_true,
      Option.some.injEq, Prod.mk.injEq] at hadv
    obtain ⟨rfl, rfl⟩ := hadv
    exact ⟨⟨2, by decide, hg, hu, .stop rfl hr⟩, rfl, rfl⟩
  | note hr =>
    simp only [Loop.act, ReplayLoop.act, Action.map, Subscription.perform, Option.some.injEq,
      Prod.mk.injEq] at hadv
    obtain ⟨rfl, rfl⟩ := hadv
    exact ⟨⟨3, by decide, hg, hu, .tell hr⟩, rfl, rfl⟩
  | tell hr =>
    simp only [Loop.act, ReplayLoop.act, Action.map, Subscription.perform, Option.some.injEq,
      Prod.mk.injEq] at hadv
    obtain ⟨rfl, rfl⟩ := hadv
    exact ⟨⟨2, by decide, hg, hu, .stop rfl hr⟩, rfl, rfl⟩
  | stop hact hr =>
    simp only [hact, Subscription.perform, Option.some.injEq, Prod.mk.injEq] at hadv
    obtain ⟨rfl, rfl⟩ := hadv
    exact ⟨⟨1, by decide, hg, hu, .ended hr⟩, rfl, rfl⟩
  | @ended r feed hr =>
    simp only [Option.some.injEq, Prod.mk.injEq] at hadv
    obtain ⟨rfl, rfl⟩ := hadv
    have hconclude : Subscription.conclude (w.isCancelled? options.governor) dispatcher.failure
        (.returned r) = r := by
      have hg' : w.isCancelled? options.governor = true := hg
      have hu' : dispatcher.failure = none := hu
      rw [hg', hu']
      cases r with
      | ok u => rfl
      | error e => cases e <;> rfl
    exact ⟨⟨0, by decide, hg, hu, by rw [hconclude]; exact .gone hr⟩, rfl, rfl⟩
  | gone hr => cases hadv

theorem receive_of_isCancelled (hc : s.isCancelled w = true) (c : Bool) (next : Received → Loop) :
    ∃ s', s.receive c w next = some s' := by
  rw [Subscription.receive, hc]
  simp only [if_true]
  split
  · exact ⟨_, rfl⟩
  · split
    · exact ⟨_, rfl⟩
    · split
      · split
        · exact ⟨_, rfl⟩
        · exact ⟨_, rfl⟩
      · split
        · exact ⟨_, rfl⟩
        · exact ⟨_, rfl⟩

/-- A revoked loop never has to wait. -/
theorem goes_on (h : Revoked R source w s k) (hk : 0 < k) (c : Bool) :
    ∃ w' s', s.advance Loop.act c w = some (w', s') := by
  have hc := h.isCancelled
  obtain ⟨hg, hu, hretreats⟩ := h
  rw [Subscription.advance]
  obtain ⟨topic, options, handler, gated, permits, dispatcher, feed, phase, seen, deliveries,
    reported, result, held⟩ := s
  cases hretreats with
  | look | check | note | tell | ended => exact ⟨_, _, rfl⟩
  | wait hsource hr hf =>
    obtain ⟨s', hs'⟩ := receive_of_isCancelled hc c fun r => Loop.replay (match r with
      | .message m => .look m
      | .broken e => if e.isEnd then .note e else .stop (.error (.codec e))
      | .finished => .stop (.ok ())
      | .cancelled => .stop (.error .cancelled))
    exact ⟨w, s', congrArg (Option.map fun s => (w, s)) hs'⟩
  | stop hact hr =>
    simp only [hact, Subscription.perform]
    exact ⟨_, _, rfl⟩
  | gone => exact absurd hk (Nat.lt_irrefl 0)

/-- Whatever reaches a revoked subscription, it comes no further from its end. -/
theorem influence (h : Revoked R source w s k)
    (hR : ∀ node, source = some node → ∀ r, w.files.endAtOnce? node = some r → R r)
    (hi : Influence Loop.act w s w' s') :
    ∃ k' ≤ k, Revoked R source w' s' k' := by
  cases hi with
  | others hw => exact ⟨k, Nat.le_refl k, h.world hw⟩
  | loop hadv =>
    obtain ⟨⟨k', hk', h'⟩, -⟩ := h.advance hadv
    exact ⟨k', Nat.le_of_lt hk', h'⟩
  | reader hread =>
    obtain ⟨f, f', hfeed, hf, rfl⟩ := readAhead_eq_some hread
    refine ⟨k, Nat.le_refl k, h.governor, h.unfailed, ?_⟩
    have hretreats := h.retreats
    rw [hfeed] at hretreats
    exact hretreats.read hR hf
  | asked => exact ⟨k, Nat.le_refl k, h.governor, h.unfailed, h.retreats⟩
  | dropped => exact ⟨k, Nat.le_refl k, h.governor, h.unfailed, h.retreats⟩
  | released n => exact ⟨k, Nat.le_refl k, h.governor, h.unfailed, h.retreats⟩

variable {a : Attended Loop} {i : Nat}

/-- Whatever a party does, a revoked subscription comes no further from its end, and nearer with
each step of its own loop. -/
theorem deed (hs : a.bus.subscriptions[i]? = some s) (h : Revoked R source a.bus.world s k)
    (hR : ∀ node, source = some node → ∀ r, a.bus.world.files.endAtOnce? node = some r → R r)
    (d : Deed Loop) :
    ∃ s' k', (a.after Loop.act d).bus.subscriptions[i]? = some s' ∧
      Revoked R source (a.after Loop.act d).bus.world s' k' ∧ k' ≤ k - (d.isStepOf i).toNat := by
  by_cases hown : d.isStepOf i = true ∧ 0 < k
  · obtain ⟨hstep, hk⟩ := hown
    cases d with
    | move m =>
      cases m with
      | loop j c =>
        obtain rfl : j = i := by simpa [Deed.isStepOf] using hstep
        obtain ⟨w', s', hadv⟩ := h.goes_on hk c
        obtain ⟨⟨k', hk', h'⟩, -⟩ := h.advance hadv
        have hlt : j < a.bus.subscriptions.length := (List.getElem?_eq_some_iff.1 hs).1
        rw [Attended.after, Bus.move_loop hs hadv, hstep]
        refine ⟨s', k', ?_, h', Nat.le_sub_one_of_lt hk'⟩
        simp [Bus.set, hlt]
      | _ => cases hstep
    | _ => cases hstep
  · obtain ⟨s', hs', hi⟩ := Attended.influence Loop.act hs d
    obtain ⟨k', hk', h'⟩ := h.influence hR hi
    refine ⟨s', k', hs', h', ?_⟩
    cases hstep : d.isStepOf i with
    | false => exact hk'
    | true =>
      have hzero : k = 0 := Nat.eq_zero_of_not_pos fun hk => hown ⟨hstep, hk⟩
      rw [hzero] at hk' ⊢
      exact hk'

theorem deeds (hs : a.bus.subscriptions[i]? = some s) (h : Revoked R source a.bus.world s k)
    {ds : List (Deed Loop)} (hR : ∀ pre, pre <+: ds → ∀ node, source = some node → ∀ r,
      (a.afterAll Loop.act pre).bus.world.files.endAtOnce? node = some r → R r) :
    ∃ s' k', (a.afterAll Loop.act ds).bus.subscriptions[i]? = some s' ∧
      Revoked R source (a.afterAll Loop.act ds).bus.world s' k' ∧
      k' ≤ k - ds.countP (·.isStepOf i) := by
  induction ds generalizing a s k with
  | nil => exact ⟨s, k, hs, h, Nat.le_refl k⟩
  | cons d ds ih =>
    obtain ⟨s₁, k₁, hs₁, h₁, hk₁⟩ := h.deed hs (hR [] List.nil_prefix) d
    obtain ⟨s₂, k₂, hs₂, h₂, hk₂⟩ := ih hs₁ h₁ fun pre hpre =>
      hR (d :: pre) (List.prefix_cons_inj d |>.2 hpre)
    refine ⟨s₂, k₂, hs₂, h₂, Nat.le_trans hk₂ ?_⟩
    rw [List.countP_cons]
    cases hstep : d.isStepOf i with
    | false =>
      rw [hstep] at hk₁
      simp at hk₁ ⊢
      omega
    | true =>
      rw [hstep] at hk₁
      simp at hk₁ ⊢
      omega

end Revoked

theorem Revoked.of_result {r : Except Error Unit} (h : Revoked R source w s k)
    (hr : s.result = some r) : R r := by
  have hretreats := h.retreats
  rw [hr] at hretreats
  generalize s.phase = phase at hretreats
  generalize s.feed = feed at hretreats
  cases hretreats with
  | gone hr => exact hr

/-! ## From the start -/

/-- A subscription with a cancelled governing token begins at most five steps before its end. -/
theorem revoked_spawn {x : Subscribing} {n : Nat} {feed : Option Feed} {l : Loop}
    (h : Origin w x n feed l) (hrevoked : w.isCancelled? x.options.governor = true)
    (hmissing : feed = none → l = .replay (.stop (.ok ())) → R (.ok ()))
    (hlooks : l ≠ .replay (.stop (.ok ())) → R (.error .cancelled)) :
    ∃ k ≤ 5, Revoked R (feed.map (·.node)) w (x.spawn feed l) k := by
  cases h with
  | memory => exact ⟨3, by decide, hrevoked, rfl, .look (hlooks (by simp))⟩
  | missing => exact ⟨2, by decide, hrevoked, rfl, .stop rfl (hmissing rfl rfl)⟩
  | file => exact ⟨5, by decide, hrevoked, rfl, .wait rfl (hlooks (by simp)) (.unread rfl)⟩

/-- The result that calls on a subscription are told is the one that it has in the end. -/
theorem result_of_told {a : Attended Loop} {x : Subscribing} {feed : Option Feed} {l : Loop}
    {ds : List (Deed Loop)} {r : Except Error Unit} {s' : Subscription Loop}
    (hs' : ((a.add (x.spawn feed l)).afterAll Loop.act ds).bus.subscriptions[
      a.bus.subscriptions.length]? = some s')
    (h : .told r ∈ (a.add (x.spawn feed l)).chronicle Loop.act a.bus.subscriptions.length ds) :
    s'.result = some r := by
  obtain ⟨s'', hs'', hfollows⟩ :=
    chronicle_spawn Loop.act a x.topic x.options x.handler x.gated feed l ds
  obtain rfl : s'' = s' := Option.some.inj (hs''.symm.trans hs')
  obtain ⟨pre, post, hsplit⟩ := List.append_of_mem h
  obtain ⟨hcaptured, -⟩ := hfollows.runs.lifecycle.told pre r post hsplit
  refine (hfollows.matches.result r).2 ?_
  change _ ∈ (a.add (x.spawn feed l)).chronicle Loop.act a.bus.subscriptions.length ds
  rw [hsplit]
  exact List.mem_append_left _ hcaptured

/-- Once it has made its steps, a revoked subscription has its result. -/
theorem Revoked.outcome (h : Revoked R source w s 0) : ∃ r, s.outcome? = some r := by
  have hretreats := h.retreats
  generalize hphase : s.phase = phase at hretreats
  generalize hresult : s.result = result at hretreats
  generalize s.feed = feed at hretreats
  cases hretreats with
  | @gone r feed hr => exact ⟨r, by rw [Subscription.outcome?, hresult]⟩

/-- The steps of a revoked subscription leave files and pending messages alone. -/
theorem Revoked.spares {b : Bus Loop} {i : Nat} {m : Move Loop}
    (h : Revoked R source b.world s k) (hs : b.subscriptions[i]? = some s)
    (hm : m = .reader i ∨ ∃ c, m = .loop i c) :
    (b.move Loop.act m).world.files = b.world.files ∧
      (b.move Loop.act m).world.subscribers = b.world.subscribers := by
  rcases hm with rfl | ⟨c, rfl⟩
  · cases hreader : b.reader? i with
    | none =>
      rw [Bus.move, hreader]
      exact ⟨rfl, rfl⟩
    | some b' =>
      obtain ⟨x, x', -, -, rfl⟩ := Bus.reader?_eq_some hreader
      rw [Bus.move, hreader]
      exact ⟨rfl, rfl⟩
  · cases hloop : b.loop? Loop.act i c with
    | none =>
      rw [Bus.move, hloop]
      exact ⟨rfl, rfl⟩
    | some b' =>
      obtain ⟨x, w, x', hx, hadv, rfl⟩ := Bus.loop?_eq_some hloop
      obtain rfl : s = x := Option.some.inj (hs.symm.trans hx)
      rw [Bus.move, hloop]
      exact (h.advance hadv).2

/-- A subscription of either backend whose governing token is cancelled already never calls its
handler, and its own steps change neither files nor what is pending. After five of them all who wait
for it are told. That is the cancellation in memory, and for a file too unless, at some time, the
file began with no message: then it may be what a replay of it comes to. For a file that was not
there it is `.ok ()`. -/
theorem revoked_stops {a : Attended Loop} {x : Subscribing} {n : Nat} {s : Subscription Loop}
    (hs : x.toSubscriber a.bus.world n = .ok s)
    (hrevoked : a.bus.world.isCancelled? x.options.governor = true) (ds : List (Deed Loop)) :
    let i := a.bus.subscriptions.length
    let now := (a.add s).afterAll Loop.act ds
    let history := (a.add s).chronicle Loop.act i ds
    (∀ m, .begun m ∉ history) ∧
      (∀ m, m = .reader i ∨ (∃ c, m = .loop i c) →
        (now.after Loop.act (.move m)).bus.world.files = now.bus.world.files ∧
          (now.after Loop.act (.move m)).bus.world.subscribers = now.bus.world.subscribers) ∧
      (5 ≤ ds.countP (·.isStepOf i) → ∀ place, now.waiting[place]? = some i →
        ∃ r, now.reply? place = some (i, r)) ∧
      ((∀ root, a.bus.world.subscribers[n]? ≠ some (.files root)) →
        ∀ r, .told r ∈ history → r = .error .cancelled) ∧
      ∀ root, a.bus.world.subscribers[n]? = some (.files root) →
        match a.bus.world.files.locate (Path.join root (Utf8.ofText x.topic)) with
        | .error _ => ∀ r, .told r ∈ history → r = .ok ()
        | .ok node => ∀ r, .told r ∈ history → r = .error .cancelled ∨ ∃ pre, pre <+: ds ∧
            ((a.add s).afterAll Loop.act pre).bus.world.files.endAtOnce? node = some r := by
  intro i now history
  obtain ⟨feed, l, horigin, rfl⟩ := toSubscriber_origin hs
  have hspawned : (a.add (x.spawn feed l)).bus.subscriptions[i]? = some (x.spawn feed l) := by
    simp [i, Attended.add, Bus.add]
  -- what it comes to is one of `R`, if that holds of all that it can read
  have hcomes : ∀ R : Except Error Unit → Prop,
      (feed = none → l = .replay (.stop (.ok ())) → R (.ok ())) →
      (l ≠ .replay (.stop (.ok ())) → R (.error .cancelled)) →
      (∀ pre, pre <+: ds → ∀ node, feed.map (·.node) = some node → ∀ r,
        ((a.add (x.spawn feed l)).afterAll Loop.act pre).bus.world.files.endAtOnce? node = some r →
          R r) →
      ∃ s' k, now.bus.subscriptions[i]? = some s' ∧
        Revoked R (feed.map (·.node)) now.bus.world s' k ∧
        k ≤ 5 - ds.countP (·.isStepOf i) ∧ ∀ r, .told r ∈ history → R r := by
    intro R hmissing hlooks hR
    obtain ⟨k, hk, hstart⟩ := revoked_spawn horigin hrevoked hmissing hlooks
    obtain ⟨s', k', hs', hend, hk'⟩ := Revoked.deeds hspawned hstart hR
    refine ⟨s', k', hs', hend, by omega, fun r hr => ?_⟩
    exact hend.of_result (result_of_told hs' hr)
  obtain ⟨s', k, hs', hend, hk, -⟩ := hcomes (fun _ => True) (fun _ _ => trivial)
    (fun _ => trivial) fun _ _ _ _ _ _ => trivial
  refine ⟨?_, fun m hm => hend.spares hs' hm, ?_, ?_, ?_⟩
  · obtain ⟨_, _, hfollows⟩ :=
      chronicle_spawn Loop.act a x.topic x.options x.handler x.gated feed l ds
    exact hfollows.runs.lifecycle.revoked hrevoked
  · intro hfive place hplace
    obtain rfl : k = 0 := by omega
    obtain ⟨r, hr⟩ := hend.outcome
    exact ⟨r, by simp [Attended.reply?, hplace, hs', hr]⟩
  · intro hmemory
    cases horigin with
    | memory =>
      obtain ⟨-, -, -, -, -, htold⟩ := hcomes (· = .error .cancelled) (by simp) (fun _ => rfl)
        (by simp)
      exact htold
    | missing hroot => exact absurd hroot (hmemory _)
    | file hroot => exact absurd hroot (hmemory _)
  · intro root hroot
    cases horigin with
    | memory hmemory => exact absurd hroot (hmemory root)
    | @missing root' hroot' hlocate =>
      obtain rfl : root' = root := by simpa [hroot] using hroot'.symm
      obtain ⟨-, -, -, -, -, htold⟩ := hcomes (· = .ok ()) (fun _ _ => rfl) (by simp) (by simp)
      rw [hlocate]
      exact htold
    | @file root' node hroot' hlocate =>
      obtain rfl : root' = root := by simpa [hroot] using hroot'.symm
      obtain ⟨-, -, -, -, -, htold⟩ := hcomes
        (fun r => r = .error .cancelled ∨ ∃ pre, pre <+: ds ∧ ((a.add
          (x.spawn (some (.start node)) (.replay .wait))).afterAll Loop.act
            pre).bus.world.files.endAtOnce? node = some r) (by simp) (fun _ => .inl rfl) (by
          intro pre hpre node' hnode r hr
          obtain rfl : node = node' := Option.some.inj hnode
          exact .inr ⟨pre, hpre, hr⟩)
      rw [hlocate]
      exact htold

/-! ## Files with and without messages -/

/-- A bus on which nothing has begun, with a subscriber on the root folder and the token `g`
cancelled. -/
def alreadyRevoked (files : Files) : Attended Loop :=
  ⟨.start (((World.start files).addSubscriber "f" (.files [47])).cancel "g"), []⟩

/-- Somebody waits and somebody closes; the reader comes first, and what it has read comes before
the token. -/
def readFirst : List (Deed Loop) :=
  [.wait 0, .close 0, .move (.reader 0), .move (.reader 0)] ++
    List.replicate 5 (.move (.loop 0 false)) ++ [.comeBack 0, .comeBack 0]

/-- What the calls on a subscription are told: an error, or none. -/
def toldErrors (t : List Happening) : List (Option Error) :=
  t.filterMap fun
    | .told (.error e) => some (some e)
    | .told (.ok ()) => some none
    | _ => none

/-- A file with a message is not handed out, even if the message was read. -/
theorem revoked_stops_oneRecord :
    let a := alreadyRevoked (.single [116] (Record.logText twoRecords))
    ∃ s, Subscribing.waiting.toSubscriber a.bus.world 0 = .ok s ∧
      let history := (a.add s).chronicle Loop.act 0 readFirst
      (∀ m, .begun m ∉ history) ∧ toldErrors history = [some .cancelled, some .cancelled] := by
  intro a
  refine ⟨Subscribing.waiting.spawn (some (.start 1)) (.replay .wait), rfl, ?_⟩
  intro history
  obtain ⟨hbegun, -⟩ := revoked_stops (a := a) (x := .waiting) (n := 0) rfl rfl readFirst
  exact ⟨hbegun, by decide +kernel⟩

/-- Without a file the cancellation is not told, and neither need it be told of an empty file. -/
theorem revoked_told_ok :
    let missing := alreadyRevoked ⟨[.folder []], [0], fun _ _ => none⟩
    let empty := alreadyRevoked (.single [116] [])
    missing.bus.world.isCancelled? Subscribing.waiting.options.governor = true ∧
      empty.bus.world.isCancelled? Subscribing.waiting.options.governor = true ∧
      (∃ s, Subscribing.waiting.toSubscriber missing.bus.world 0 = .ok s ∧
        toldErrors ((missing.add s).chronicle Loop.act 0 readFirst) = [none, none]) ∧
      ∃ s, Subscribing.waiting.toSubscriber empty.bus.world 0 = .ok s ∧
        toldErrors ((empty.add s).chronicle Loop.act 0 readFirst) = [none, none] :=
  ⟨rfl, rfl, ⟨Subscribing.waiting.spawn none (.replay (.stop (.ok ()))), rfl, rfl⟩,
    Subscribing.waiting.spawn (some (.start 1)) (.replay .wait), rfl, rfl⟩

end PubSub
