import PubSub.Files.Folders
import PubSub.Proofs.Files.Path

/-!
# Trees that grow

Appending and making files takes nothing away: all names lead where they led before. So a folder
stays where it is while logs are written in it.
-/

namespace PubSub.Files

variable {f g : Files}

/-! ## Nodes -/

theorem entries?_eq_some {n : Nat} {es : List (Bytes × Nat)} :
    f.entries? n = some es ↔ f.node? n = some (.folder es) := by
  rw [entries?]
  split
  · next es' h => simp [h]
  · next h =>
    constructor
    · intro hn
      cases hn
    · intro hn
      exact absurd hn (h es)

theorem node?_lt {n : Nat} {x : Node} (h : f.node? n = some x) : n < f.nodes.length := by
  rw [node?] at h
  exact (List.getElem?_eq_some_iff.1 h).1

theorem node?_setNode {n m : Nat} {x : Node} (h : n < f.nodes.length) :
    (f.setNode n x).node? m = if m = n then some x else f.node? m := by
  rw [node?, setNode, node?]
  simp only
  by_cases hm : m = n
  · subst hm
    rw [if_pos rfl, List.getElem?_set_self h]
  · rw [if_neg hm, List.getElem?_set_ne (Ne.symm hm)]

theorem node?_addNode {d m : Nat} {es : List (Bytes × Nat)} {name : Bytes} {x : Node}
    (h : d < f.nodes.length) :
    (f.addNode d es name x).node? m =
      if m = d then some (.folder (es ++ [(name, f.nodes.length)]))
      else if m = f.nodes.length then some x else f.node? m := by
  rw [node?, addNode, node?]
  simp only
  by_cases hm : m = d
  · subst hm
    rw [if_pos rfl, List.getElem?_append_left (by simpa using h), List.getElem?_set_self h]
  · rw [if_neg hm]
    by_cases hnew : m = f.nodes.length
    · subst hnew
      rw [if_pos rfl, List.getElem?_append_right (by simp)]
      simp
    · rw [if_neg hnew]
      by_cases hlt : m < f.nodes.length
      · rw [List.getElem?_append_left (by simpa using hlt), List.getElem?_set_ne (Ne.symm hm)]
      · rw [List.getElem?_eq_none (by simp; omega), List.getElem?_eq_none (by omega)]

/-! ## Growing -/

/-- All folders keep their entries, which may be followed by others. -/
structure Grows (f g : Files) : Prop where
  home : g.home = f.home
  entries : ∀ {n : Nat} {es : List (Bytes × Nat)}, f.entries? n = some es →
    ∃ more, g.entries? n = some (es ++ more)

theorem Grows.refl (f : Files) : Grows f f :=
  ⟨rfl, fun h => ⟨[], by rw [h, List.append_nil]⟩⟩

theorem Grows.trans {h : Files} (hfg : Grows f g) (hgh : Grows g h) : Grows f h := by
  refine ⟨hgh.home.trans hfg.home, fun he => ?_⟩
  obtain ⟨more, hmore⟩ := hfg.entries he
  obtain ⟨rest, hrest⟩ := hgh.entries hmore
  exact ⟨more ++ rest, by rw [hrest, List.append_assoc]⟩

theorem grows_addNode {d : Nat} {es : List (Bytes × Nat)} (name : Bytes) (x : Node)
    (h : f.entries? d = some es) : Grows f (f.addNode d es name x) := by
  have hd := node?_lt (entries?_eq_some.1 h)
  refine ⟨rfl, ?_⟩
  intro n ns hn
  by_cases hnd : n = d
  · subst hnd
    rw [h] at hn
    cases hn
    exact ⟨[(name, f.nodes.length)], entries?_eq_some.2 (by rw [node?_addNode hd, if_pos rfl])⟩
  · have hlt := node?_lt (entries?_eq_some.1 hn)
    refine ⟨[], entries?_eq_some.2 ?_⟩
    rw [node?_addNode hd, if_neg hnd, if_neg (Nat.ne_of_lt hlt), List.append_nil]
    exact entries?_eq_some.1 hn

theorem lookup_append_of_some {es more : List (Bytes × Nat)} {name : Bytes} {n : Nat}
    (h : es.lookup name = some n) : (es ++ more).lookup name = some n := by
  rw [List.lookup_append, h, Option.some_or]

theorem enter_grows (hg : Grows f g) {trail t : List Nat} {name : Bytes}
    (h : f.enter trail name = .ok t) : g.enter trail name = .ok t := by
  cases trail with
  | nil => simp [enter] at h
  | cons folder up =>
    rw [enter] at h ⊢
    cases he : f.entries? folder with
    | none => simp [he] at h
    | some es =>
      obtain ⟨more, hmore⟩ := hg.entries he
      simp only [he] at h
      simp only [hmore]
      split
      · next hn => simpa [hn] using h
      · next hn =>
        rw [if_neg hn] at h
        split
        · next ha => simpa [ha] using h
        · next ha =>
          rw [if_neg ha] at h
          split
          · next hl => simp [hl] at h
          · next hl =>
            rw [if_neg hl] at h
            cases hlook : es.lookup name with
            | none => simp [hlook] at h
            | some n =>
              simp only [hlook] at h
              simp only [lookup_append_of_some hlook]
              exact h

theorem walk_grows (hg : Grows f g) {trail t : List Nat} {names : List Bytes}
    (h : f.walk trail names = .ok t) : g.walk trail names = .ok t := by
  induction names generalizing trail with
  | nil => exact h
  | cons name names ih =>
    rw [walk, List.foldlM_cons] at h ⊢
    cases he : f.enter trail name with
    | error e =>
      rw [he] at h
      cases h
    | ok t' =>
      rw [he] at h
      rw [enter_grows hg he]
      exact ih h

theorem origin_grows (hg : Grows f g) (path : Bytes) : g.origin path = f.origin path := by
  rw [origin, origin, hg.home]

end PubSub.Files
