import PubSub.Json.Skip
import PubSub.Proofs.Json.Reading

/-!
# What reading some bytes says of reading more

A reader that has read its bytes reads the same when more bytes follow, and one that found them
wrong finds them wrong then too. Only what ended too early is open. A number is the exception, since
nothing but the next byte shows where it ends: one that reaches to the end of the bytes may go on,
and one that lacks a digit there may still get it. `Outlook` lists these cases, `Outlook.bind` says
what they are for two readers in a row.
-/

namespace PubSub.Json

/-- What the flaws of a text say about its end: whether it came too early, and which flaw a number
has that lacks a digit. -/
class EndFlaws (κ : Type) where
  isEnd : κ → Bool
  lacksDigit : κ

instance : EndFlaws Flaw := ⟨Flaw.isEnd, .invalidNumber⟩

/-- Two flaws say the same about the end of the text. -/
structure Alike {κ ι : Type} [EndFlaws κ] [EndFlaws ι] (c : κ) (d : ι) : Prop where
  isEnd : EndFlaws.isEnd c = true → EndFlaws.isEnd d = true
  lacksDigit : c = EndFlaws.lacksDigit → d = EndFlaws.lacksDigit

theorem Alike.refl {κ : Type} [EndFlaws κ] (c : κ) : Alike c c := ⟨id, id⟩

/-- Brackets and braces that close lists and objects. -/
def Closing (k : Bytes) : Prop := ∀ b ∈ k, b = 93 ∨ b = 125

theorem closing_nil : Closing [] := by
  intro b hb
  cases hb

theorem Closing.append {k l : Bytes} (hk : Closing k) (hl : Closing l) : Closing (k ++ l) := by
  intro b hb
  exact (List.mem_append.1 hb).elim (hk b) (hl b)

variable {κ ι α γ β δ : Type} [EndFlaws κ] [EndFlaws ι]

/-- What the reader `f` says of `s`, and so of all that begins with `s`. What it returns is `put`
together from a value and the bytes left. If `bare`, a value may end with the bytes only because
these do; one that lacks a digit is complete with a zero, closing brackets and any bytes that may
come `next`. -/
inductive Outlook (bare : Prop) (next : Bytes → Prop) (put : α → Bytes → β)
    (f : Bytes → Except (Failure κ) β) (s : Bytes) : Prop
  | read (a : α) (r : Bytes) (h : ∀ t, f (s ++ t) = .ok (put a (r ++ t)))
  | refused (h : ∀ t, ∃ e, f (s ++ t) = .error e)
  | ended (e : Failure κ) (h : f s = .error e) (hend : EndFlaws.isEnd e.cause = true)
  | used (hbare : bare) (a : α) (h : f s = .ok (put a []))
  | lacking (e : Failure κ) (h : f s = .error e) (hcause : e.cause = EndFlaws.lacksDigit)
      (k : Bytes) (a : α) (hk : Closing k) (hnext : ∃ t, next t)
      (hgoes : ∀ t, next t → f (s ++ 48 :: (k ++ t)) = .ok (put a t))

/-- The outlook of a reader that no number can leave open. -/
abbrev Firm (put : α → Bytes → β) (f : Bytes → Except (Failure κ) β) (s : Bytes) : Prop :=
  Outlook False (fun _ => False) put f s

/-- The outlook of a reader whose last part may be a number. -/
abbrev Loose (put : α → Bytes → β) (f : Bytes → Except (Failure κ) β) (s : Bytes) : Prop :=
  Outlook True Stops put f s

theorem skipSpace_append {s r : Bytes} {b : UInt8} (h : skipSpace s = b :: r) (t : Bytes) :
    skipSpace (s ++ t) = b :: (r ++ t) := by
  rw [skipSpace] at h
  rw [skipSpace, List.dropWhile_append, h]
  rfl

namespace Outlook

variable {bare bare' : Prop} {next next' : Bytes → Prop} {put : α → Bytes → β}
  {put' : γ → Bytes → δ} {f g : Bytes → Except (Failure κ) β} {s r : Bytes}

/-! ## One reader -/

theorem done (put : α → Bytes → β) (a : α) (s : Bytes) :
    Outlook bare next put (fun t => (.ok (put a t) : Except (Failure κ) β)) s :=
  .read a s fun _ => rfl

theorem failed (h : ∀ t, ∃ e, f t = .error e) : Outlook bare next put f s :=
  .refused fun t => h (s ++ t)

theorem goOn (hg : Outlook bare next put g r) (h : ∀ t, f (s ++ t) = g (r ++ t)) :
    Outlook bare next put f s := by
  have hs : f s = g r := by simpa using h []
  cases hg with
  | read a u hu => exact .read a u fun t => (h t).trans (hu t)
  | refused hu => exact .refused fun t => by rw [h t]; exact hu t
  | ended e he hend => exact .ended e (hs.trans he) hend
  | used hbare a ha => exact .used hbare a (hs.trans ha)
  | lacking e he hcause k a hk hnext hgoes =>
    exact .lacking e (hs.trans he) hcause k a hk hnext fun t ht => (h _).trans (hgoes t ht)

theorem congr (hg : Outlook bare next put g s) (h : ∀ t, f t = g t) : Outlook bare next put f s :=
  hg.goOn fun _ => h _

theorem choose {p : Prop} [Decidable p] (hf : p → Outlook bare next put f s)
    (hg : ¬p → Outlook bare next put g s) :
    Outlook bare next put (fun t => if p then f t else g t) s := by
  by_cases h : p
  · simpa only [if_pos h] using hf h
  · simpa only [if_neg h] using hg h

/-- A firm outlook is one in any case. -/
theorem of_firm (h : Firm put f s) : Outlook bare next put f s := by
  cases h with
  | read a r h => exact .read a r h
  | refused h => exact .refused h
  | ended e h hend => exact .ended e h hend
  | used hbare => exact hbare.elim
  | lacking _ _ _ _ _ _ hnext => exact (hnext.elim fun _ => False.elim)

/-! ## Marks -/

/-- A reader that goes by the next byte. -/
theorem byte {k : UInt8 → Bytes → Except (Failure κ) β}
    (ends : ∃ e, f [] = .error e ∧ EndFlaws.isEnd e.cause = true)
    (goes : ∀ b t, f (b :: t) = k b t)
    (rest : ∀ b r, s = b :: r → Outlook bare next put (k b) r) : Outlook bare next put f s := by
  cases s with
  | nil =>
    obtain ⟨e, he, hend⟩ := ends
    exact .ended e he hend
  | cons b r => exact (rest b r rfl).goOn fun t => goes b (r ++ t)

/-- A reader that goes by the next byte that is no white space. -/
theorem mark {k : UInt8 → Bytes → Except (Failure κ) β}
    (ends : ∀ t, skipSpace t = [] → ∃ e, f t = .error e ∧ EndFlaws.isEnd e.cause = true)
    (goes : ∀ t b r, skipSpace t = b :: r → f t = k b r)
    (rest : ∀ b r, skipSpace s = b :: r → Outlook bare next put (k b) r) :
    Outlook bare next put f s := by
  cases hs : skipSpace s with
  | nil =>
    obtain ⟨e, he, hend⟩ := ends s hs
    exact .ended e he hend
  | cons b r => exact (rest b r hs).goOn fun t => goes (s ++ t) b (r ++ t) (skipSpace_append hs t)

/-! ## Readers in a row -/

/-- A reader that begins as `g` does and goes on with what `g` read. Where `g` may be open at its
end, it must be said what comes of the end and of the brackets that close it. -/
theorem bind {g : Bytes → Except (Failure ι) δ} {k : γ → Bytes → Except (Failure κ) β}
    (first : Outlook bare' next' put' g s)
    (fails : ∀ t e, g t = .error e → ∃ d, f t = .error d ∧ Alike e.cause d.cause)
    (goes : ∀ t a r, g t = .ok (put' a r) → f t = k a r)
    (rest : ∀ a r, g s = .ok (put' a r) → Outlook bare next put (k a) r)
    (atEnd : bare' → ∀ a, (∃ e, k a [] = .error e ∧ EndFlaws.isEnd e.cause = true) ∨
      bare ∧ ∃ c, k a [] = .ok (put c []))
    (closes : (∃ t, next' t) → ∀ a, ∃ u c, Closing u ∧ (∃ t, next t) ∧
      ∀ t, next t → next' (u ++ t) ∧ k a (u ++ t) = .ok (put c t)) :
    Outlook bare next put f s := by
  cases first with
  | read a r h =>
    have hs : g s = .ok (put' a r) := by simpa using h []
    exact (rest a r hs).goOn fun t => goes _ a _ (h t)
  | refused h =>
    refine .refused fun t => ?_
    obtain ⟨e, he⟩ := h t
    obtain ⟨d, hd, -⟩ := fails _ e he
    exact ⟨d, hd⟩
  | ended e h hend =>
    obtain ⟨d, hd, halike⟩ := fails s e h
    exact .ended d hd (halike.isEnd hend)
  | used hbare a h =>
    have hs : f s = k a [] := goes s a [] h
    rcases atEnd hbare a with ⟨e, he, hend⟩ | ⟨hbare, c, hc⟩
    · exact .ended e (hs.trans he) hend
    · exact .used hbare c (hs.trans hc)
  | lacking e h hcause u a hu hnext hgoes =>
    obtain ⟨d, hd, halike⟩ := fails s e h
    obtain ⟨v, c, hv, hnext, hclose⟩ := closes hnext a
    refine .lacking d hd (halike.lacksDigit hcause) (u ++ v) c (hu.append hv) hnext fun t ht => ?_
    obtain ⟨hfits, hk⟩ := hclose t ht
    rw [List.append_assoc, goes _ a _ (hgoes _ hfits), hk]

/-- After a reader with a firm outlook there is nothing to be said of its end. -/
theorem bindFirm {g : Bytes → Except (Failure ι) δ} {k : γ → Bytes → Except (Failure κ) β}
    (first : Firm put' g s)
    (fails : ∀ t e, g t = .error e → ∃ d, f t = .error d ∧ Alike e.cause d.cause)
    (goes : ∀ t a r, g t = .ok (put' a r) → f t = k a r)
    (rest : ∀ a r, g s = .ok (put' a r) → Outlook bare next put (k a) r) :
    Outlook bare next put f s :=
  first.bind fails goes rest False.elim fun hnext => (hnext.elim fun _ => False.elim)

section

variable {g : Bytes → Except (Failure κ) δ} {k : γ → Bytes → Except (Failure κ) β}

theorem andThen (first : Firm put' g s) (fails : ∀ t e, g t = .error e → f t = .error e)
    (goes : ∀ t a r, g t = .ok (put' a r) → f t = k a r)
    (rest : ∀ a r, g s = .ok (put' a r) → Outlook bare next put (k a) r) :
    Outlook bare next put f s :=
  first.bindFirm (fun t e h => ⟨e, fails t e h, .refl _⟩) goes rest

/-- How to go on may depend on what was read first. -/
theorem andThenBy (first : Firm put' g s) (fails : ∀ t e, g t = .error e → f t = .error e)
    (rest : ∀ a r, g s = .ok (put' a r) →
      ∃ k, (∀ t u, g t = .ok (put' a u) → f t = k u) ∧ Outlook bare next put k r) :
    Outlook bare next put f s := by
  cases first with
  | read a r h =>
    obtain ⟨k, hk, hr⟩ := rest a r (by simpa using h [])
    exact hr.goOn fun t => hk _ _ (h t)
  | refused h =>
    refine .refused fun t => ?_
    obtain ⟨e, he⟩ := h t
    exact ⟨e, fails _ e he⟩
  | ended e h hend => exact .ended e (fails s e h) hend
  | used hbare => exact hbare.elim
  | lacking _ _ _ _ _ _ hnext => exact hnext.elim fun _ => False.elim

/-- After a number comes nothing that must be there. -/
theorem andLast (first : Loose put' g s) (fails : ∀ t e, g t = .error e → f t = .error e)
    (goes : ∀ t a r, g t = .ok (put' a r) → f t = k a r)
    (rest : ∀ a r, g s = .ok (put' a r) → Loose put (k a) r)
    (last : ∀ a, ∃ c, ∀ t, Stops t → k a t = .ok (put c t)) : Loose put f s := by
  refine first.bind (fun t e h => ⟨e, fails t e h, .refl _⟩) goes rest (fun _ a => ?_) fun _ a => ?_
  · obtain ⟨c, hc⟩ := last a
    exact .inr ⟨trivial, c, hc [] stops_nil⟩
  · obtain ⟨c, hc⟩ := last a
    exact ⟨[], c, closing_nil, ⟨[], stops_nil⟩, fun t ht => ⟨ht, hc t ht⟩⟩

end

end Outlook

end PubSub.Json
