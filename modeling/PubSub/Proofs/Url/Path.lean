import Mathlib.Data.Bool.AllAny
import PubSub.Url.Path
import PubSub.Proofs.Text.Spans
import PubSub.Proofs.Url.Percent

/-!
# Paths of plain segments

A plain segment is neither a dot segment nor a drive letter nor escaped, and holds no separator.
Segments like that are only added to a path, so that the path which is read is what was written,
percent encoded (`addSegments_plain`), behind one slash (`readPath_plain`).
-/

namespace PubSub.Url

/-! ## Single segments -/

/-- A segment that a path of a file keeps. -/
structure Plain (s : List Char) : Prop where
  fits : ∀ c ∈ s, c ∉ ['/', '\\', '?', '#', '%', ':', '|']
  ne_dot : s ≠ ['.']
  ne_dots : s ≠ ['.', '.']

instance (s : List Char) : Decidable (Plain s) :=
  decidable_of_iff
    (s.all (· ∉ ['/', '\\', '?', '#', '%', ':', '|']) = true ∧ s ≠ ['.'] ∧ s ≠ ['.', '.'])
    ⟨fun h => ⟨List.all_iff_forall_prop.1 h.1, h.2.1, h.2.2⟩,
      fun h => ⟨List.all_iff_forall_prop.2 h.fits, h.ne_dot, h.ne_dots⟩⟩

theorem plain_nil : Plain [] := ⟨by simp, by simp, by simp⟩

theorem plainDots_eq_self {s : List Char} (h : '%' ∉ s) : plainDots s = s := by
  induction s with
  | nil => rfl
  | cons c s ih =>
    have hc : c ≠ '%' := fun hc => h (hc ▸ List.mem_cons_self)
    rw [plainDots, ih fun hs => h (List.mem_cons_of_mem _ hs)]
    · exact fun _ h _ => absurd h hc
    · exact fun _ h _ => absurd h hc

theorem upper_not_mark : ∀ n < 16, Hex.upper n ≠ ':' ∧ Hex.upper n ≠ '|' := by
  decide

/-- What makes a drive letter is not written by the encoding. -/
theorem Plain.not_drive {s : List Char} (h : Plain s) (set : Char → Bool) :
    isDriveLetter (Percent.encode set s) = false := by
  have hmark : ∀ c ∈ Percent.encode set s, c ≠ ':' ∧ c ≠ '|' := by
    intro c hc
    rcases Percent.mem_encode hc with hs | rfl | ⟨n, hn, rfl⟩
    · have hfits := h.fits c hs
      simp only [List.mem_cons, not_or] at hfits
      exact ⟨hfits.2.2.2.2.2.1, hfits.2.2.2.2.2.2.1⟩
    · decide
    · exact upper_not_mark n hn
  unfold isDriveLetter
  split
  · next a b heq =>
    obtain ⟨hcolon, hbar⟩ := hmark b (heq ▸ by simp)
    simp [hcolon, hbar]
  · rfl

theorem addSegment_plain (p : PathDraft) {s : List Char} (h : Plain s) (slash : Bool) :
    addSegment .file p s slash =
      ⟨(if slash then ['/'] else []) ++ (Percent.encode Percent.inPath s).reverse ++ p.reversed,
        p.dropsHost⟩ := by
  have hsign : '%' ∉ s := fun hin => h.fits _ hin (by simp)
  have hdots : plainDots s = s := plainDots_eq_self hsign
  have hdrive : ¬ (SchemeKind.file = .file ∧ p.reversed.length = 1 ∧
      isDriveLetter (Percent.encode Percent.inPath s) = true) := fun hd => by
    rw [h.not_drive] at hd
    exact Bool.false_ne_true hd.2.2
  rw [addSegment, hdots, if_neg h.ne_dots, if_neg h.ne_dot]
  dsimp only
  rw [if_neg hdrive]
  cases slash <;> simp

/-! ## All segments -/

/-- A segment goes on to the next separator or to the end of the path. -/
def endsSegment (kind : SchemeKind) (c : Char) : Bool := isSeparator kind c || endsPath c

theorem Plain.inside {s : List Char} (h : Plain s) :
    ∀ c ∈ s, (!endsSegment .file c) = true := by
  intro c hc
  have hfits := h.fits c hc
  simp only [List.mem_cons, not_or] at hfits
  simp [endsSegment, isSeparator, endsPath, hfits]

theorem addSegments_last (p : PathDraft) {s t : List Char} (h : Plain s)
    (ends : ∀ c ∈ t.head?, endsPath c = true) :
    addSegments .file p (s ++ t) = (addSegment .file p s false, t) := by
  have hstop : ∀ c ∈ t.head?, (!endsSegment .file c) = false := fun c hc => by
    rw [endsSegment, ends c hc, Bool.or_true]
    rfl
  have hdrop : (s ++ t).dropWhile (!endsSegment .file ·) = t := dropWhile_span h.inside hstop
  have htake : (s ++ t).takeWhile (!endsSegment .file ·) = s := takeWhile_span h.inside hstop
  rw [addSegments]
  split
  · next heq =>
    obtain rfl : t = [] := hdrop.symm.trans heq
    exact congrArg (addSegment .file p · false, []) htake
  · next c r heq =>
    obtain rfl : t = c :: r := hdrop.symm.trans heq
    have hpath : isSeparator .file c = false := by
      have hend := ends c rfl
      simp only [endsPath, Bool.or_eq_true, decide_eq_true_eq] at hend
      rcases hend with rfl | rfl <;> rfl
    rw [hpath]
    exact congrArg (addSegment .file p · false, c :: r) htake

theorem addSegments_slash (p : PathDraft) {s : List Char} (h : Plain s) (r : List Char) :
    addSegments .file p (s ++ '/' :: r) = addSegments .file (addSegment .file p s true) r := by
  have hstop : ∀ c ∈ ('/' :: r).head?, (!endsSegment .file c) = false := by
    rintro _ ⟨⟩
    rfl
  have hdrop : (s ++ '/' :: r).dropWhile (!endsSegment .file ·) = '/' :: r :=
    dropWhile_span h.inside hstop
  have htake : (s ++ '/' :: r).takeWhile (!endsSegment .file ·) = s := takeWhile_span h.inside hstop
  rw [addSegments]
  split
  · next heq => cases hdrop.symm.trans heq
  · next c t heq =>
    obtain ⟨rfl, rfl⟩ : '/' = c ∧ r = t := by simpa using hdrop.symm.trans heq
    exact congrArg (fun segment => addSegments .file (addSegment .file p segment true) r) htake

theorem addSegments_plain (p : PathDraft) {segments : List (List Char)} {t : List Char}
    (ne : segments ≠ []) (plain : ∀ s ∈ segments, Plain s)
    (ends : ∀ c ∈ t.head?, endsPath c = true) :
    addSegments .file p (['/'].intercalate segments ++ t) =
      (⟨(Percent.encode Percent.inPath (['/'].intercalate segments)).reverse ++ p.reversed,
        p.dropsHost⟩, t) := by
  induction segments generalizing p with
  | nil => exact absurd rfl ne
  | cons s segments ih =>
    have hs : Plain s := plain s List.mem_cons_self
    cases segments with
    | nil =>
      rw [List.intercalate_singleton, addSegments_last p hs ends, addSegment_plain p hs]
      rfl
    | cons s' segments =>
      have hslash : Percent.encode Percent.inPath ['/'] = ['/'] := by decide
      rw [List.intercalate_cons_cons, List.append_assoc, List.append_assoc, List.singleton_append,
        addSegments_slash p hs, ih _ (by simp) fun x hx => plain x (List.mem_cons_of_mem _ hx),
        addSegment_plain p hs, Percent.encode_append, Percent.encode_append, hslash]
      simp

/-- The path of a file begins with one slash. -/
theorem readPath_plain {segments : List (List Char)} {t : List Char} (ne : segments ≠ [])
    (plain : ∀ s ∈ segments, Plain s) (ends : ∀ c ∈ t.head?, endsPath c = true) :
    readPath .file ['/'] (['/'].intercalate segments ++ t) =
      (String.ofList ('/' :: (Percent.encode Percent.inPath (['/'].intercalate segments)).dropWhile
        (· = '/')), false, t) := by
  rw [readPath]
  simp [addSegments_plain _ ne plain ends]

end PubSub.Url
