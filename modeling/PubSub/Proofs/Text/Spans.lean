import PubSub.Text.Printable

/-!
# Where a span ends

A span of characters of one kind ends where the first other character stands, and a text without its
surrounding blanks is what stands between them (`Trimmed.trimBlanks_eq`).
-/

namespace PubSub

section Spans

variable {α : Type} {p : α → Bool} {l r : List α}

theorem takeWhile_span (inside : ∀ a ∈ l, p a = true) (stop : ∀ a ∈ r.head?, p a = false) :
    (l ++ r).takeWhile p = l := by
  rw [List.takeWhile_append_of_pos inside]
  cases r with
  | nil => simp
  | cons a r => simp [stop a rfl]

theorem dropWhile_span (inside : ∀ a ∈ l, p a = true) (stop : ∀ a ∈ r.head?, p a = false) :
    (l ++ r).dropWhile p = r := by
  rw [List.dropWhile_append_of_pos inside]
  cases r with
  | nil => simp
  | cons a r => simp [stop a rfl]

/-- What is dropped at the front does not depend on what stands behind a character that stays. -/
theorem dropWhile_append_stop (stop : ∀ a ∈ r.head?, p a = false) :
    (l ++ r).dropWhile p = l.dropWhile p ++ r := by
  rw [List.dropWhile_append]
  split
  · next h =>
    rw [List.isEmpty_iff.1 h, List.nil_append]
    exact dropWhile_span (l := []) (by simp) stop
  · rfl

/-- A span does not depend on what stands behind a character that ends it. -/
theorem takeWhile_append_stop (stop : ∀ a ∈ r.head?, p a = false) :
    (l ++ r).takeWhile p = l.takeWhile p := by
  rw [List.takeWhile_append]
  split
  · next h =>
    have hr : r.takeWhile p = [] := takeWhile_span (l := []) (by simp) stop
    rw [hr, List.append_nil]
    exact (List.takeWhile_prefix p).eq_of_length h |>.symm
  · rfl

/-- The first place of a mark divides a list in one way only. -/
theorem eq_of_append_cons_eq {a : α} {l₁ l₂ r₁ r₂ : List α} (h₁ : a ∉ l₁) (h₂ : a ∉ l₂)
    (h : l₁ ++ a :: r₁ = l₂ ++ a :: r₂) : l₁ = l₂ ∧ r₁ = r₂ := by
  rcases List.append_eq_append_iff.1 h with ⟨m, hl, hr⟩ | ⟨m, hl, hr⟩
  · cases m with
    | nil => simp_all
    | cons x m =>
      rw [List.cons_append, List.cons.injEq] at hr
      exact absurd (hl ▸ List.mem_append_right _ (hr.1 ▸ List.mem_cons_self)) h₂
  · cases m with
    | nil => simp_all
    | cons x m =>
      rw [List.cons_append, List.cons.injEq] at hr
      exact absurd (hl ▸ List.mem_append_right _ (hr.1 ▸ List.mem_cons_self)) h₁

end Spans

/-! ## Joined pieces -/

section Pieces

variable {α : Type} {a : α} {sep p : List α} {ps : List (List α)}

theorem mem_intercalate_of_mem (hp : p ∈ ps) (ha : a ∈ p) : a ∈ sep.intercalate ps := by
  induction ps with
  | nil => simp at hp
  | cons q ps ih =>
    cases ps with
    | nil =>
      rw [List.mem_singleton.1 hp] at ha
      rwa [List.intercalate_singleton]
    | cons q' ps =>
      rw [List.intercalate_cons_cons]
      rcases List.mem_cons.1 hp with rfl | htail
      · exact List.mem_append_left _ (List.mem_append_left _ ha)
      · exact List.mem_append_right _ (ih htail)

theorem mem_or_of_mem_intercalate (h : a ∈ sep.intercalate ps) : a ∈ sep ∨ ∃ p ∈ ps, a ∈ p := by
  induction ps with
  | nil => simp [List.intercalate_nil] at h
  | cons q ps ih =>
    cases ps with
    | nil =>
      rw [List.intercalate_singleton] at h
      exact .inr ⟨q, List.mem_cons_self, h⟩
    | cons q' ps =>
      rw [List.intercalate_cons_cons, List.mem_append, List.mem_append] at h
      rcases h with (hq | hsep) | htail
      · exact .inr ⟨q, List.mem_cons_self, hq⟩
      · exact .inl hsep
      · rcases ih htail with hsep | ⟨p, hp, ha⟩
        · exact .inl hsep
        · exact .inr ⟨p, List.mem_cons_of_mem _ hp, ha⟩

end Pieces

/-! ## Blanks around a text -/

/-- `e` is `p` without the blanks around it. -/
structure Trimmed (p e : List Char) : Prop where
  padded : ∃ before after, p = before ++ e ++ after ∧ ∀ c ∈ before ++ after, isBlank c = true
  begins : ∀ c ∈ e.head?, isBlank c = false
  ends : ∀ c ∈ e.getLast?, isBlank c = false

theorem trimmed_self {e : List Char} (h : ∀ c ∈ e, isBlank c = false) : Trimmed e e :=
  ⟨⟨[], [], by simp, by simp⟩, fun c hc => h c (List.mem_of_mem_head? hc),
    fun c hc => h c (List.mem_of_mem_getLast? hc)⟩

theorem Trimmed.trimBlanks_eq {p e : List Char} (h : Trimmed p e) : trimBlanks p = e := by
  obtain ⟨before, after, rfl, hblank⟩ := h.padded
  have hfront : ∀ c ∈ before, isBlank c = true := fun c hc => hblank c (List.mem_append_left _ hc)
  have hrear : ∀ c ∈ after, isBlank c = true := fun c hc => hblank c (List.mem_append_right _ hc)
  rw [trimBlanks, List.append_assoc, List.dropWhile_append_of_pos hfront]
  -- An empty text has no first character at which the blanks in front would end.
  cases e with
  | nil =>
    have hnone : (after ++ []).dropWhile isBlank = [] := dropWhile_span hrear (by simp)
    rw [List.append_nil] at hnone
    rw [List.nil_append, hnone]
    rfl
  | cons c e =>
    have hhead : (c :: e ++ after).dropWhile isBlank = c :: e ++ after :=
      List.dropWhile_cons_of_neg (by simp [h.begins c rfl])
    rw [hhead, List.reverse_append, dropWhile_span (fun a ha => hrear a (List.mem_reverse.1 ha)),
      List.reverse_reverse]
    intro a ha
    rw [List.head?_reverse] at ha
    exact h.ends a ha

theorem trimmed_trimBlanks (p : List Char) : Trimmed p (trimBlanks p) := by
  have hrear : p.dropWhile isBlank =
      trimBlanks p ++ ((p.dropWhile isBlank).reverse.takeWhile isBlank).reverse := by
    rw [trimBlanks, ← List.reverse_append, List.takeWhile_append_dropWhile, List.reverse_reverse]
  constructor
  · refine ⟨p.takeWhile isBlank, ((p.dropWhile isBlank).reverse.takeWhile isBlank).reverse, ?_,
      fun c hc => ?_⟩
    · rw [List.append_assoc, ← hrear, List.takeWhile_append_dropWhile]
    · rcases List.mem_append.1 hc with hfront | hback
      · exact List.all_eq_true.1 List.all_takeWhile c hfront
      · exact List.all_eq_true.1 List.all_takeWhile c (List.mem_reverse.1 hback)
  · intro c hc
    have hfirst := List.head?_dropWhile_not isBlank p
    rw [hrear, List.head?_append, Option.mem_def.1 hc] at hfirst
    simpa using hfirst
  · intro c hc
    have hlast := List.head?_dropWhile_not isBlank (p.dropWhile isBlank).reverse
    rw [trimBlanks, List.getLast?_reverse] at hc
    rw [Option.mem_def.1 hc] at hlast
    simpa using hlast

end PubSub
