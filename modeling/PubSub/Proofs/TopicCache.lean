import Mathlib.Data.List.DropRight
import PubSub.Proofs.NameMap
import PubSub.TopicCache.Shared

/-!
# One handle for each name

However the calls of several tasks on one cache come between each other, their effects are those of
calls that are made one at a time on a map that is written once for each name and emptied now and
then (`Follows.run`). From this alone it follows that between two drains all who ask for a name get
one handle, which is made once; that no handle is lost or given out by two drains; and, for the moves
themselves, that a request whose handle cannot be made leaves no trace in what other calls come to
(`cache_gives_one_handle`).
-/

namespace PubSub

variable {τ α : Type}

namespace CacheEffect

/-- The handle that a call got for the name. -/
def handle? (name : String) : CacheEffect τ α → Option (Handle α)
  | .found _ n h | .made _ n h => if n = name then some h else none
  | _ => none

/-- What a request for the name, or a look at it, came to. -/
def answer? (name : String) : CacheEffect τ α → Option (Except String (Handle α))
  | .found _ n h | .made _ n h => if n = name then some (.ok h) else none
  | .failed _ n text => if n = name then some (.error text) else none
  | _ => none

/-- The handle that was made, with its name. -/
def creation? : CacheEffect τ α → Option (String × Handle α)
  | .made _ n h => some (n, h)
  | _ => none

/-- What a drain returned. -/
def drain? : CacheEffect τ α → Option (List (String × Handle α))
  | .drained _ entries => some entries
  | _ => none

end CacheEffect

/-! ## Histories -/

/-- A history of a cache, the earliest effect first. -/
abbrev CacheHistory (τ α : Type) := List (CacheEffect τ α)

namespace CacheHistory

/-- The handles that calls got for a name. -/
def handles (t : CacheHistory τ α) (name : String) : List (Handle α) := t.filterMap (·.handle? name)

/-- All handles that were made, with their names. -/
def created (t : CacheHistory τ α) : List (String × Handle α) := t.filterMap (·.creation?)

/-- What drains returned, one list for each of them. -/
def drains (t : CacheHistory τ α) : List (List (String × Handle α)) := t.filterMap (·.drain?)

/-- Nothing was drained. -/
def IsEra (t : CacheHistory τ α) : Prop := ∀ e ∈ t, e.isDrain = false

/-- What came after the latest drain. -/
def sinceDrain (t : CacheHistory τ α) : CacheHistory τ α := t.rtakeWhile (!·.isDrain)

theorem created_append (s t : CacheHistory τ α) : created (s ++ t) = created s ++ created t :=
  List.filterMap_append

end CacheHistory

open CacheHistory

/-- What a cache holds, and how many handles were made for it. -/
structure CacheState (α : Type) where
  held : NameMap (Handle α)
  made : Nat

namespace CacheState

def start : CacheState α := ⟨NameMap.empty, 0⟩

/-- A call that is made alone can come to this. -/
def Admits (m : CacheState α) : CacheEffect τ α → Prop
  | .found _ name h => m.held.get? name = some h
  | .made _ name h => m.held.get? name = none ∧ h.number = m.made
  | .failed _ name _ | .missed _ name => m.held.get? name = none
  | .listed _ names => names = m.held.names
  | .drained _ entries => entries = m.held.entries

def after (m : CacheState α) : CacheEffect τ α → CacheState α
  | .made _ name h => ⟨m.held.insert name h, m.made + 1⟩
  | .drained _ _ => ⟨NameMap.empty, m.made⟩
  | _ => m

def Runs (m : CacheState α) : CacheHistory τ α → Prop
  | [] => True
  | e :: t => m.Admits e ∧ (m.after e).Runs t

def afterAll (m : CacheState α) (t : CacheHistory τ α) : CacheState α := t.foldl after m

theorem afterAll_append (m : CacheState α) (s t : CacheHistory τ α) :
    m.afterAll (s ++ t) = (m.afterAll s).afterAll t :=
  List.foldl_append

theorem runs_append {m : CacheState α} {s t : CacheHistory τ α} :
    m.Runs (s ++ t) ↔ m.Runs s ∧ (m.afterAll s).Runs t := by
  induction s generalizing m with
  | nil => simp [Runs, afterAll]
  | cons e s ih =>
    rw [List.cons_append, Runs, Runs, ih, and_assoc]
    rfl

variable {m : CacheState α} {t : CacheHistory τ α} {name : String}

/-! ## Between two drains -/

/-- While a handle is held nobody gets another one for its name, and none is made. -/
theorem Runs.kept (h : m.Runs t) (hera : IsEra t) {a : Handle α} (ha : m.held.get? name = some a) :
    (∀ b ∈ handles t name, b = a) ∧ name ∉ (created t).map (·.1) := by
  induction t generalizing m with
  | nil => simp [handles, created]
  | cons e t ih =>
    obtain ⟨he, ht⟩ := h
    obtain ⟨hfirst, hrest⟩ := List.forall_mem_cons.1 hera
    have hstay : (m.after e).held.get? name = some a := by
      cases e with
      | made c n b =>
        rw [after, NameMap.get?_insert, if_neg]
        · exact ha
        · rintro rfl
          rw [he.1] at ha
          cases ha
      | drained c entries => cases hfirst
      | found | failed | missed | listed => exact ha
    obtain ⟨hsame, hnone⟩ := ih ht hrest hstay
    constructor
    · intro b hb
      rcases List.mem_filterMap.1 hb with ⟨x, hx, hxb⟩
      rcases List.mem_cons.1 hx with rfl | hx
      · cases x with
        | found c n b' =>
          obtain ⟨rfl, rfl⟩ : n = name ∧ b' = b := by simpa [CacheEffect.handle?] using hxb
          exact Option.some.inj (he.symm.trans ha)
        | made c n b' =>
          obtain ⟨rfl, rfl⟩ : n = name ∧ b' = b := by simpa [CacheEffect.handle?] using hxb
          rw [he.1] at ha
          cases ha
        | failed | missed | listed | drained => cases hxb
      · exact hsame b (List.mem_filterMap.2 ⟨x, hx, hxb⟩)
    · cases e with
      | made c n b =>
        have hne : name ≠ n := by
          rintro rfl
          rw [he.1] at ha
          cases ha
        exact fun hmem => (List.mem_cons.1 hmem).elim hne hnone
      | found | failed | missed | listed | drained => exact hnone

/-- Between two drains a name has one handle, and it is made once at most. -/
theorem Runs.one (h : m.Runs t) (hera : IsEra t) (name : String) :
    (∀ a ∈ handles t name, ∀ b ∈ handles t name, a = b) ∧ ((created t).map (·.1)).count name ≤ 1 := by
  induction t generalizing m with
  | nil => simp [handles, created]
  | cons e t ih =>
    obtain ⟨he, ht⟩ := h
    obtain ⟨hfirst, hrest⟩ := List.forall_mem_cons.1 hera
    have hothers := ih ht hrest
    -- the first effect either gives the handle of the name, which then stays, or tells nothing of it
    cases hh : e.handle? name with
    | none =>
      have hhandles : handles (e :: t) name = handles t name := by
        simp [handles, hh]
      refine ⟨by rw [hhandles]; exact hothers.1, ?_⟩
      cases e with
      | made c n b =>
        have hne : n ≠ name := by
          rintro rfl
          simp [CacheEffect.handle?] at hh
        have hcount : ((created (.made c n b :: t)).map (·.1)).count name =
            ((created t).map (·.1)).count name := List.count_cons_of_ne hne
        rw [hcount]
        exact hothers.2
      | found | failed | missed | listed | drained => exact hothers.2
    | some a =>
      have hheld : (m.after e).held.get? name = some a := by
        cases e with
        | found c n b =>
          obtain ⟨rfl, rfl⟩ : n = name ∧ b = a := by simpa [CacheEffect.handle?] using hh
          exact he
        | made c n b =>
          obtain ⟨rfl, rfl⟩ : n = name ∧ b = a := by simpa [CacheEffect.handle?] using hh
          rw [after, NameMap.get?_insert, if_pos rfl]
        | failed | missed | listed | drained => cases hh
      obtain ⟨hsame, hnone⟩ := ht.kept hrest hheld
      have hall : ∀ b ∈ handles (e :: t) name, b = a := by
        intro b hb
        have hcons : handles (e :: t) name = a :: handles t name := by
          simp [handles, hh]
        rw [hcons] at hb
        rcases List.mem_cons.1 hb with rfl | hb
        · rfl
        · exact hsame b hb
      refine ⟨fun b hb b' hb' => (hall b hb).trans (hall b' hb').symm, ?_⟩
      have hzero : ((created t).map (·.1)).count name = 0 := List.count_eq_zero.2 hnone
      cases e with
      | made c n b =>
        have hcons : (created (.made c n b :: t)).map (·.1) =
            n :: (created t).map (·.1) := rfl
        rw [hcons, List.count_cons, hzero]
        split <;> omega
      | found | failed | missed | listed | drained => exact Nat.le_trans (Nat.le_of_eq hzero) (by omega)

/-- A cache that started empty holds what was made since the latest drain. -/
theorem Runs.held (h : (start : CacheState α).Runs t) :
    (start.afterAll t).held.entries.Perm (created (sinceDrain t)) := by
  induction t using List.reverseRecOn with
  | nil => exact .refl _
  | append_singleton t e ih =>
    obtain ⟨ht, he, -⟩ := runs_append.1 h
    have hbefore := ih ht
    rw [afterAll_append]
    cases e with
    | made c n b =>
      have hsince : created (sinceDrain (t ++ [.made c n b])) = created (sinceDrain t) ++ [(n, b)] := by
        rw [sinceDrain, List.rtakeWhile_concat_pos _ _ _ rfl, created_append]
        rfl
      have hinsert : (((start.afterAll t).held.insert n b).entries).Perm
          ((n, b) :: (start.afterAll t).held.entries) :=
        NameMap.insertEntry_perm b (NameMap.get?_eq_none_iff.1 he.1)
      rw [hsince]
      exact hinsert.trans ((hbefore.cons (n, b)).trans (List.perm_append_singleton _ _).symm)
    | drained c entries =>
      have hsince : sinceDrain (t ++ [.drained c entries]) = [] :=
        List.rtakeWhile_concat_neg _ _ _ Bool.false_ne_true
      rw [hsince]
      exact .refl _
    | found | failed | missed | listed =>
      rw [sinceDrain, List.rtakeWhile_concat_pos _ _ _ rfl, created_append]
      exact hbefore.trans (.of_eq (List.append_nil _).symm)

/-! ## All handles -/

/-- What was held before or made since is still held or was drained. -/
theorem Runs.conserved (h : m.Runs t) :
    (m.held.entries ++ created t).Perm ((m.afterAll t).held.entries ++ (drains t).flatten) := by
  induction t generalizing m with
  | nil => exact .refl _
  | cons e t ih =>
    obtain ⟨he, ht⟩ := h
    have hrest := ih ht
    cases e with
    | made c n b =>
      have hinsert : ((m.held.insert n b).entries).Perm ((n, b) :: m.held.entries) :=
        NameMap.insertEntry_perm b (NameMap.get?_eq_none_iff.1 he.1)
      have hmoved : (m.held.entries ++ (n, b) :: created t).Perm
          ((m.held.insert n b).entries ++ created t) :=
        List.perm_middle.trans (hinsert.symm.append_right (created t))
      exact hmoved.trans hrest
    | drained c entries =>
      obtain rfl : entries = m.held.entries := he
      have hout : (m.held.entries ++ created t).Perm
          (m.held.entries ++ (((m.after (.drained c m.held.entries)).afterAll t).held.entries ++
            (drains t).flatten)) := hrest.append_left m.held.entries
      exact hout.trans (List.perm_append_comm_assoc _ _ _)
    | found | failed | missed | listed => exact hrest

/-- Handles are numbered in the order in which they are made. -/
theorem Runs.numbers (h : m.Runs t) :
    (created t).map (·.2.number) = List.range' m.made (created t).length := by
  induction t generalizing m with
  | nil => rfl
  | cons e t ih =>
    obtain ⟨he, ht⟩ := h
    have hrest := ih ht
    cases e with
    | made c n b =>
      have hcons : created (.made c n b :: t) = (n, b) :: created t := rfl
      rw [hcons, List.map_cons, List.length_cons, List.range'_succ, hrest, he.2]
      rfl
    | found | failed | missed | listed | drained => exact hrest

end CacheState

/-! ## Runs of the shared cache -/

namespace SharedCache

/-- What the cache holds, as far as calls can see. -/
def view (d : SharedCache τ α) : CacheState α := ⟨d.cache.held, d.made⟩

/-- A move either lets a request wait or makes one effect, as if its call were alone. -/
inductive Steps (d : SharedCache τ α) : SharedCache τ α → Prop
  | silent (waiting : List (τ × String)) : Steps d { d with waiting := waiting }
  | effect {e : CacheEffect τ α} {d' : SharedCache τ α} : d.view.Admits e →
      d'.view = d.view.after e → d'.effects = e :: d.effects → Steps d d'

/-- The effects so far are those of calls made one at a time, which led to this cache. -/
structure Follows (d : SharedCache τ α) : Prop where
  runs : CacheState.start.Runs d.effects.reverse
  view : CacheState.start.afterAll d.effects.reverse = d.view

theorem follows_start : (start : SharedCache τ α).Follows := ⟨trivial, rfl⟩

theorem Follows.step {d d' : SharedCache τ α} (h : d.Follows) (hs : Steps d d') : d'.Follows := by
  cases hs with
  | silent waiting => exact ⟨h.runs, h.view⟩
  | @effect e d' hadmits hview heffects =>
    have hrev : d'.effects.reverse = d.effects.reverse ++ [e] := by rw [heffects, List.reverse_cons]
    constructor
    · rw [hrev, CacheState.runs_append, h.view]
      exact ⟨h.runs, hadmits, trivial⟩
    · rw [hrev, CacheState.afterAll_append, h.view, hview]
      rfl

theorem Steps.effects_suffix {d d' : SharedCache τ α} (hs : Steps d d') :
    d.effects <:+ d'.effects := by
  cases hs with
  | silent waiting => exact List.suffix_refl _
  | effect hadmits hview heffects =>
    rw [heffects]
    exact List.suffix_cons _ _

variable [DecidableEq τ] {d : SharedCache τ α}

/-! What the lock of the writer comes to, as there was a handle by then or not. -/

theorem settle_found {name : String} {h : Handle α} (hget : d.cache.held.get? name = some h)
    (call : τ) (make : Except String α) :
    d.settle call name make = { d with waiting := d.waiting.eraseP (·.1 = call) }.record
      (.found call name h) d.cache := by
  simp only [settle, TopicCache.get?, TopicCache.settle, hget]

theorem settle_made {name : String} (hget : d.cache.held.get? name = none) (call : τ) (a : α) :
    d.settle call name (.ok a) =
      { d with waiting := d.waiting.eraseP (·.1 = call), made := d.made + 1 }.record
        (.made call name ⟨d.made, a⟩) ⟨d.cache.held.insert name ⟨d.made, a⟩, d.cache.poisoned⟩ := by
  simp only [settle, TopicCache.get?, TopicCache.settle, hget, Except.map]

theorem settle_failed {name : String} (hget : d.cache.held.get? name = none) (call : τ)
    (text : String) :
    d.settle call name (.error text) = { d with waiting := d.waiting.eraseP (·.1 = call) }.record
      (.failed call name text) ⟨d.cache.held, true⟩ := by
  simp only [settle, TopicCache.get?, TopicCache.settle, hget, Except.map]

theorem settle_steps (d : SharedCache τ α) (call : τ) (name : String) (make : Except String α) :
    Steps d (d.settle call name make) := by
  cases hget : d.cache.held.get? name with
  | some h =>
    rw [settle_found hget]
    exact .effect (e := .found call name h) hget rfl rfl
  | none =>
    cases make with
    | error text =>
      rw [settle_failed hget]
      exact .effect (e := .failed call name text) hget rfl rfl
    | ok a =>
      rw [settle_made hget]
      exact .effect (e := .made call name ⟨d.made, a⟩) ⟨hget, rfl⟩ rfl rfl

theorem move_steps (d : SharedCache τ α) (m : CacheMove τ α) : Steps d (d.move m) := by
  cases m with
  | request call name =>
    rw [move]
    cases hget : d.cache.get? name with
    | some h => exact .effect (e := .found call name h) hget rfl rfl
    | none => exact .silent _
  | settle call make =>
    rw [move]
    cases d.waiting.find? (·.1 = call) with
    | none => exact .silent d.waiting
    | some w => exact settle_steps d call w.2 make
  | get call name =>
    rw [move]
    cases hget : d.cache.get? name with
    | some h => exact .effect (e := .found call name h) hget rfl rfl
    | none => exact .effect (e := .missed call name) hget rfl rfl
  | names call => exact .effect (e := .listed call d.cache.names) rfl rfl rfl
  | drain call => exact .effect (e := .drained call d.cache.held.entries) rfl rfl rfl

theorem Follows.run (h : d.Follows) (moves : List (CacheMove τ α)) : (d.run moves).Follows := by
  induction moves generalizing d with
  | nil => exact h
  | cons m moves ih => exact ih (h.step (move_steps d m))

theorem run_effects_suffix (d : SharedCache τ α) (moves : List (CacheMove τ α)) :
    d.effects <:+ (d.run moves).effects := by
  induction moves generalizing d with
  | nil => exact List.suffix_refl _
  | cons m moves ih => exact (move_steps d m).effects_suffix.trans (ih (d.move m))

/-! ## Requests in one piece -/

/-- A request that nobody comes between is one whole request of the cache. -/
theorem request_settle (d : SharedCache τ α) (call : τ) (name : String) (make : Except String α)
    (hnew : d.waiting.find? (·.1 = call) = none) :
    let whole := d.cache.getOrCreate name (make.map (Handle.mk d.made))
    let d' := (d.move (.request call name)).move (.settle call make)
    d'.cache = whole.2.1 ∧ ∃ e, d'.effects = e :: d.effects ∧ e.call = call ∧
      e.answer? name = some whole.1 := by
  cases hget : d.cache.get? name with
  | some h =>
    have hmiss : d.move (.request call name) = d.record (.found call name h) d.cache := by
      simp only [move, hget]
    have hrest : (d.record (.found call name h) d.cache).move (.settle call make) =
        d.record (.found call name h) d.cache := by
      simp only [move, record, hnew]
    rw [hmiss, hrest]
    simp only [TopicCache.getOrCreate, hget]
    exact ⟨rfl, _, rfl, rfl, if_pos rfl⟩
  | none =>
    have hwait : d.move (.request call name) = { d with waiting := d.waiting ++ [(call, name)] } := by
      simp only [move, hget]
    have hfind : (d.waiting ++ [(call, name)]).find? (·.1 = call) = some (call, name) := by
      rw [List.find?_append, hnew]
      simp
    have hheld : d.cache.held.get? name = none := hget
    have hsettle : ({ d with waiting := d.waiting ++ [(call, name)] } : SharedCache τ α).move
        (.settle call make) =
          ({ d with waiting := d.waiting ++ [(call, name)] } : SharedCache τ α).settle call name
            make := by
      simp only [move, hfind]
    rw [hwait, hsettle]
    cases make with
    | error text =>
      rw [settle_failed (d := { d with waiting := d.waiting ++ [(call, name)] }) hheld]
      simp only [TopicCache.getOrCreate, TopicCache.settle, hget, hheld, Except.map]
      exact ⟨rfl, _, rfl, rfl, if_pos rfl⟩
    | ok a =>
      rw [settle_made (d := { d with waiting := d.waiting ++ [(call, name)] }) hheld]
      simp only [TopicCache.getOrCreate, TopicCache.settle, hget, hheld, Except.map]
      exact ⟨rfl, _, rfl, rfl, if_pos rfl⟩

/-! ## Requests whose handles cannot be made -/

/-- `d'` is `d` but for one call, which left no trace. -/
structure Unnoticed (call : τ) (d d' : SharedCache τ α) : Prop where
  view : d'.view = d.view
  waiting : d'.waiting = d.waiting.filter (·.1 ≠ call)
  effects : d'.effects = d.effects.filter (·.call ≠ call)

namespace Unnoticed

variable {call other : τ} {d' : SharedCache τ α}

theorem held (h : Unnoticed call d d') : d'.cache.held = d.cache.held := congrArg CacheState.held h.view

theorem made (h : Unnoticed call d d') : d'.made = d.made := congrArg CacheState.made h.view

theorem recorded (h : Unnoticed call d d') (e : CacheEffect τ α) (he : e.call ≠ call)
    {c c' : TopicCache (Handle α)} (hc : c'.held = c.held) :
    Unnoticed call (d.record e c) (d'.record e c') where
  view := by
    show CacheState.mk c'.held d'.made = CacheState.mk c.held d.made
    rw [hc, h.made]
  waiting := h.waiting
  effects := by
    show e :: d'.effects = (e :: d.effects).filter (·.call ≠ call)
    rw [h.effects]
    exact (List.filter_cons_of_pos (by simpa using he)).symm

theorem counted (h : Unnoticed call d d') :
    Unnoticed call { d with made := d.made + 1 } { d' with made := d'.made + 1 } where
  view := by
    show CacheState.mk d'.cache.held (d'.made + 1) = CacheState.mk d.cache.held (d.made + 1)
    rw [h.held, h.made]
  waiting := h.waiting
  effects := h.effects

theorem unqueued (h : Unnoticed call d d') (ho : other ≠ call) :
    Unnoticed call { d with waiting := d.waiting.eraseP (·.1 = other) }
      { d' with waiting := d'.waiting.eraseP (·.1 = other) } where
  view := h.view
  waiting := by
    have hmine : ∀ w : τ × String,
        (decide (w.1 = other) && decide (w.1 ≠ call)) = decide (w.1 = other) := by
      intro w
      by_cases hw : w.1 = other
      · simp [hw, ho]
      · simp [hw]
    show d'.waiting.eraseP _ = _
    rw [h.waiting, List.eraseP_filter]
    simp only [hmine]
  effects := h.effects

theorem settled (h : Unnoticed call d d') (ho : other ≠ call) (name : String) (make : Except String α) :
    Unnoticed call (d.settle other name make) (d'.settle other name make) := by
  have hsame : d'.cache.held.get? name = d.cache.held.get? name := by rw [h.held]
  cases hget : d.cache.held.get? name with
  | some a =>
    rw [settle_found hget, settle_found (hsame.trans hget)]
    exact (h.unqueued ho).recorded (.found other name a) ho h.held
  | none =>
    cases make with
    | error text =>
      rw [settle_failed hget, settle_failed (hsame.trans hget)]
      exact (h.unqueued ho).recorded (.failed other name text) ho h.held
    | ok a =>
      have hhandle : Handle.mk d'.made a = ⟨d.made, a⟩ := by rw [h.made]
      have hheld : d'.cache.held.insert name ⟨d.made, a⟩ = d.cache.held.insert name ⟨d.made, a⟩ := by
        rw [h.held]
      rw [settle_made hget, settle_made (hsame.trans hget), hhandle]
      exact (h.unqueued ho).counted.recorded (.made other name ⟨d.made, a⟩) ho hheld

/-- The others make the same moves. -/
theorem theirs (h : Unnoticed call d d') {m : CacheMove τ α} (hm : m.call ≠ call) :
    Unnoticed call (d.move m) (d'.move m) := by
  have hsame : ∀ name, d'.cache.get? name = d.cache.get? name := by
    intro name
    rw [TopicCache.get?, h.held, TopicCache.get?]
  cases m with
  | request other name =>
    simp only [move, hsame]
    cases d.cache.get? name with
    | some a => exact h.recorded (.found other name a) hm h.held
    | none =>
      have hne : other ≠ call := hm
      refine ⟨h.view, ?_, h.effects⟩
      show d'.waiting ++ [(other, name)] = (d.waiting ++ [(other, name)]).filter (·.1 ≠ call)
      rw [List.filter_append, h.waiting]
      congr 1
      simp [hne]
  | settle other make =>
    have hfind : d'.waiting.find? (·.1 = other) = d.waiting.find? (·.1 = other) := by
      rw [h.waiting, List.find?_filter]
      congr 1
      funext w
      by_cases hw : w.1 = other
      · have hne : other ≠ call := hm
        simp [hw, hne]
      · simp [hw]
    simp only [move, hfind]
    cases d.waiting.find? (·.1 = other) with
    | none => exact h
    | some w => exact h.settled hm w.2 make
  | get other name =>
    simp only [move, hsame]
    cases d.cache.get? name with
    | some a => exact h.recorded (.found other name a) hm h.held
    | none => exact h.recorded (.missed other name) hm h.held
  | names other =>
    have hnames : d'.cache.names = d.cache.names := by rw [TopicCache.names, h.held, TopicCache.names]
    simp only [move, hnames]
    exact h.recorded (.listed other d.cache.names) hm h.held
  | drain other =>
    simp only [move, TopicCache.drain, h.held]
    exact h.recorded (.drained other d.cache.held.entries) hm rfl

theorem waiting_eraseP (call : τ) (ws : List (τ × String)) :
    (ws.eraseP (·.1 = call)).filter (·.1 ≠ call) = ws.filter (·.1 ≠ call) := by
  rcases List.exists_or_eq_self_of_eraseP (·.1 = call) ws with heq | ⟨w, before, after, -, hw, hws, heq⟩
  · rw [heq]
  · have hout : (w :: after).filter (·.1 ≠ call) = after.filter (·.1 ≠ call) :=
      List.filter_cons_of_neg (by simpa using hw)
    rw [heq, hws, List.filter_append, List.filter_append, hout]

/-- The call itself fails. -/
theorem failed (h : Unnoticed call d d') {ws : List (τ × String)}
    (hws : ws.filter (·.1 ≠ call) = d.waiting.filter (·.1 ≠ call)) (name text : String)
    {c : TopicCache (Handle α)} (hc : c.held = d.cache.held) :
    Unnoticed call ({ d with waiting := ws }.record (.failed call name text) c) d' where
  view := by
    show d'.view = CacheState.mk c.held d.made
    rw [h.view, hc]
    rfl
  waiting := h.waiting.trans hws.symm
  effects := by
    rw [h.effects]
    exact (List.filter_cons_of_neg (by simp [CacheEffect.call])).symm

/-- The call itself only waits or fails. -/
theorem mine (h : Unnoticed call d d') {m : CacheMove τ α} (hm : m.call = call)
    (hfails : ∀ e ∈ (d.move m).effects, e.call = call → e.isFailure) :
    Unnoticed call (d.move m) d' := by
  -- an effect that is no failure is refused by `hfails`
  have hno : ∀ {e : CacheEffect τ α} {c : TopicCache (Handle α)} {x : SharedCache τ α},
      d.move m = x.record e c → e.call = call → e.isFailure = true := by
    intro e c x hx he
    refine hfails e ?_ he
    rw [hx]
    exact List.mem_cons_self
  cases m with
  | request other name =>
    obtain rfl : other = call := hm
    cases hget : d.cache.get? name with
    | some a =>
      have hmove : d.move (.request other name) = d.record (.found other name a) d.cache := by
        simp only [move, hget]
      exact absurd (hno hmove rfl) Bool.false_ne_true
    | none =>
      have hout : (d.waiting ++ [(other, name)]).filter (·.1 ≠ other) =
          d.waiting.filter (·.1 ≠ other) := by
        rw [List.filter_append]
        simp
      simp only [move, hget]
      exact ⟨h.view, h.waiting.trans hout.symm, h.effects⟩
  | settle other make =>
    obtain rfl : other = call := hm
    cases hfind : d.waiting.find? (·.1 = other) with
    | none =>
      simp only [move, hfind]
      exact h
    | some w =>
      have hmove : d.move (.settle other make) = d.settle other w.2 make := by
        simp only [move, hfind]
      cases hget : d.cache.held.get? w.2 with
      | some a => exact absurd (hno (hmove.trans (settle_found hget other make)) rfl) Bool.false_ne_true
      | none =>
        cases make with
        | ok a => exact absurd (hno (hmove.trans (settle_made hget other a)) rfl) Bool.false_ne_true
        | error text =>
          rw [hmove, settle_failed hget]
          exact h.failed (waiting_eraseP other d.waiting) w.2 text rfl
  | get other name =>
    obtain rfl : other = call := hm
    cases hget : d.cache.get? name with
    | some a =>
      have hmove : d.move (.get other name) = d.record (.found other name a) d.cache := by
        simp only [move, hget]
      exact absurd (hno hmove rfl) Bool.false_ne_true
    | none =>
      have hmove : d.move (.get other name) = d.record (.missed other name) d.cache := by
        simp only [move, hget]
      exact absurd (hno hmove rfl) Bool.false_ne_true
  | names other => exact absurd (hno (e := .listed other d.cache.names) rfl hm) Bool.false_ne_true
  | drain other =>
    exact absurd (hno (e := .drained other d.cache.held.entries) rfl hm) Bool.false_ne_true

/-- A call that comes to nothing but failures may as well not be made. -/
theorem run (h : Unnoticed call d d') (moves : List (CacheMove τ α))
    (hfails : ∀ e ∈ (d.run moves).effects, e.call = call → e.isFailure) :
    Unnoticed call (d.run moves) (d'.run (moves.filter (·.call ≠ call))) := by
  induction moves generalizing d d' with
  | nil => exact h
  | cons m moves ih =>
    by_cases hm : m.call = call
    · have hstep := h.mine hm fun e he hcall =>
        hfails e ((run_effects_suffix (d.move m) moves).mem he) hcall
      rw [List.filter_cons_of_neg (by simpa using hm)]
      exact ih hstep hfails
    · rw [List.filter_cons_of_pos (by simpa using hm)]
      exact ih (h.theirs hm) hfails

end Unnoticed

/-- Between two drains a name has one handle, made once at most; a call that only fails leaves no
trace; lists and drains tell what was made since the latest drain, and no handle that was made is lost
or given out by two drains. -/
theorem cache_gives_one_handle (moves : List (CacheMove τ α)) :
    let d := start.run moves
    let history := d.effects.reverse
    (∀ before era after, history = before ++ era ++ after → IsEra era → ∀ name,
      (∀ a ∈ handles era name, ∀ b ∈ handles era name, a = b) ∧
        ((created era).map (·.1)).count name ≤ 1) ∧
    (∀ call, (∀ e ∈ history, e.call = call → e.isFailure) →
      Unnoticed call d (start.run (moves.filter (·.call ≠ call)))) ∧
    (∀ before call names after, history = before ++ .listed call names :: after →
      names.Pairwise (· < ·) ∧ names.Perm ((created (sinceDrain before)).map (·.1))) ∧
    (∀ before call entries after, history = before ++ .drained call entries :: after →
      entries.Perm (created (sinceDrain before))) ∧
    d.cache.held.entries.Perm (created (sinceDrain history)) ∧
    (created history).Perm (d.cache.held.entries ++ (drains history).flatten) ∧
    ((created history).map (·.2.number)).Nodup := by
  intro d history
  have hfollows : d.Follows := follows_start.run moves
  have hheld : (CacheState.start.afterAll history).held = d.cache.held :=
    congrArg CacheState.held hfollows.view
  -- what an effect tells of the cache is told of what was held when it came
  have hthen : ∀ {before : CacheHistory τ α} {e : CacheEffect τ α} {after : CacheHistory τ α},
      history = before ++ e :: after → (CacheState.start : CacheState α).Runs before ∧
        (CacheState.start.afterAll before).Admits e := by
    intro before e after hsplit
    have hruns := hfollows.runs
    rw [show d.effects.reverse = before ++ e :: after from hsplit, CacheState.runs_append] at hruns
    exact ⟨hruns.1, hruns.2.1⟩
  refine ⟨?eras, ?failures, ?lists, ?drained, ?held, ?kept, ?numbered⟩
  case eras =>
    intro before era after hsplit hera name
    have hruns := hfollows.runs
    rw [show d.effects.reverse = before ++ era ++ after from hsplit, CacheState.runs_append,
      CacheState.runs_append] at hruns
    exact hruns.1.2.one hera name
  case failures =>
    intro call hfails
    exact Unnoticed.run ⟨rfl, rfl, rfl⟩ moves fun e he => hfails e (List.mem_reverse.2 he)
  case lists =>
    intro before call names after hsplit
    obtain ⟨hruns, hlisted⟩ := hthen hsplit
    obtain rfl : names = (CacheState.start.afterAll before).held.names := hlisted
    exact ⟨NameMap.names_increasing _, hruns.held.map _⟩
  case drained =>
    intro before call entries after hsplit
    obtain ⟨hruns, hdrained⟩ := hthen hsplit
    obtain rfl : entries = (CacheState.start.afterAll before).held.entries := hdrained
    exact hruns.held
  case held =>
    rw [← hheld]
    exact hfollows.runs.held
  case kept =>
    rw [← hheld]
    exact hfollows.runs.conserved
  case numbered =>
    have hnumbers : (created history).map (·.2.number) = List.range' 0 (created history).length :=
      hfollows.runs.numbers
    rw [hnumbers]
    exact List.nodup_range'

/-- Two tasks race for a handle while a third cannot make it. -/
def racing : List (CacheMove Nat Nat) :=
  [.request 1 "a", .request 2 "a", .request 3 "a", .settle 2 (.error "no room"), .settle 3 (.ok 7),
    .settle 1 (.ok 8), .names 4, .drain 5, .get 6 "a"]

theorem cache_gives_one_handle_racing :
    (start.run racing).effects.reverse =
        [.failed 2 "a" "no room", .made 3 "a" ⟨0, 7⟩, .found 1 "a" ⟨0, 7⟩, .listed 4 ["a"],
          .drained 5 [("a", ⟨0, 7⟩)], .missed 6 "a"] ∧
      Unnoticed 2 (start.run racing) (start.run (racing.filter (·.call ≠ 2))) ∧
      [("a", (⟨0, 7⟩ : Handle Nat))].Perm (created (sinceDrain ([.failed 2 "a" "no room",
        .made 3 "a" ⟨0, 7⟩, .found 1 "a" ⟨0, 7⟩, .listed 4 ["a"]] : CacheHistory Nat Nat))) := by
  have hrun : (start.run racing).effects.reverse =
      [.failed 2 "a" "no room", .made 3 "a" ⟨0, 7⟩, .found 1 "a" ⟨0, 7⟩, .listed 4 ["a"],
        .drained 5 [("a", ⟨0, 7⟩)], .missed 6 "a"] := by decide
  obtain ⟨-, hfailures, -, hdrained, -⟩ := cache_gives_one_handle racing
  refine ⟨hrun, hfailures 2 ?_, hdrained _ 5 _ [.missed 6 "a"] hrun⟩
  rw [hrun]
  decide

end SharedCache

end PubSub
