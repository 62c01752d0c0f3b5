import Mathlib.Data.Bool.AllAny
import Mathlib.Data.List.Basic
import PubSub.Url.Parse
import PubSub.Proofs.Error
import PubSub.Proofs.Text.Spans

/-!
# Where a URL begins

Blanks are lost around a text and line spaces everywhere, and all else stays (`clean_append`). The
scheme ends at the first colon (`scheme?_of_colon`), what follows is read as its kind asks
(`parse_of_scheme?`), and two slashes behind it are those of an authority (`parse_placed`).
-/

namespace PubSub.Url

/-! ## Cleaning -/

theorem isBlank_of_isLineSpace {c : Char} (h : isLineSpace c = true) : isBlank c = true := by
  simp only [isLineSpace, Bool.or_eq_true, decide_eq_true_eq] at h
  rcases h with (rfl | rfl) | rfl <;> decide

/-- A kind of characters that leaves out the first ones has no blank. -/
theorem isBlank_eq_false {p : Char → Bool} (low : ∀ n < 0x21, p (Char.ofNat n) = false) {c : Char}
    (h : p c = true) : isBlank c = false := by
  refine Bool.eq_false_iff.2 fun hblank => ?_
  have hlow : c.toNat ≤ 0x20 := by simpa [isBlank] using hblank
  have hnot := low c.toNat (Nat.lt_succ_of_le hlow)
  rw [Char.ofNat_toNat, h] at hnot
  cases hnot

/-- What is left of a text that stands in front of others. -/
def cleanFront (s : List Char) : List Char := (s.dropWhile isBlank).filter (!isLineSpace ·)

/-- What is left of a text that stands behind others. -/
def cleanRear (s : List Char) : List Char :=
  ((s.reverse.dropWhile isBlank).reverse).filter (!isLineSpace ·)

theorem cleanFront_nil : cleanFront [] = [] := rfl

theorem cleanRear_nil : cleanRear [] = [] := rfl

theorem cleanRear_append (l r : List Char) {m : List Char} (hm : m ≠ [])
    (solid : ∀ c ∈ m, isBlank c = false) :
    cleanRear (l ++ m ++ r) = l.filter (!isLineSpace ·) ++ m ++ cleanRear r := by
  have hrear : (r.reverse ++ (m.reverse ++ l.reverse)).dropWhile isBlank =
      r.reverse.dropWhile isBlank ++ (m.reverse ++ l.reverse) := by
    refine dropWhile_append_stop fun c hc => solid c ?_
    rw [List.head?_append_of_ne_nil _ (by simpa using hm)] at hc
    exact List.mem_reverse.1 (List.mem_of_mem_head? hc)
  have hkept : m.filter (!isLineSpace ·) = m := by
    refine List.filter_eq_self.2 fun c hc => ?_
    have hline : isLineSpace c = false :=
      Bool.eq_false_iff.2 fun h => Bool.eq_false_iff.1 (solid c hc) (isBlank_of_isLineSpace h)
    simp [hline]
  rw [cleanRear, List.append_assoc, List.reverse_append, List.reverse_append, List.append_assoc,
    hrear]
  simp only [List.reverse_append, List.reverse_reverse, List.filter_append, hkept, cleanRear]

theorem clean_append (l r : List Char) {m : List Char} (hm : m ≠ [])
    (solid : ∀ c ∈ m, isBlank c = false) :
    clean (l ++ m ++ r) = cleanFront l ++ m ++ cleanRear r := by
  have hfront : (l ++ (m ++ r)).dropWhile isBlank = l.dropWhile isBlank ++ (m ++ r) := by
    refine dropWhile_append_stop fun c hc => solid c ?_
    rw [List.head?_append_of_ne_nil _ hm] at hc
    exact List.mem_of_mem_head? hc
  have hclean : clean (l ++ m ++ r) = cleanRear (l.dropWhile isBlank ++ m ++ r) := by
    rw [clean, List.append_assoc, hfront, ← List.append_assoc]
    rfl
  rw [hclean, cleanRear_append _ r hm solid]
  rfl

theorem clean_eq_self {s : List Char} (solid : ∀ c ∈ s, isBlank c = false) : clean s = s := by
  cases s with
  | nil => rfl
  | cons c s =>
    have hall := clean_append [] [] (List.cons_ne_nil c s) solid
    rwa [cleanFront_nil, cleanRear_nil, List.nil_append, List.append_nil] at hall

theorem scheme?_append {a : List Char} (r : List Char) (begins : ∃ c ∈ a.head?, c.isAlpha = true)
    (fits : ∀ c ∈ a, isSchemeChar c = true) :
    scheme? (a ++ ':' :: r) = some (String.ofList (a.map Char.toLower), r) := by
  obtain ⟨c, hc, halpha⟩ := begins
  obtain ⟨a, rfl⟩ : ∃ t, a = c :: t := by
    cases a with
    | nil => simp at hc
    | cons x t => exact ⟨t, by simpa using hc⟩
  have hstop : ∀ x ∈ (':' :: r).head?, isSchemeChar x = false := by
    rintro _ ⟨⟩
    decide
  have hdrop : (c :: (a ++ ':' :: r)).dropWhile isSchemeChar = ':' :: r := dropWhile_span fits hstop
  have htake : (c :: (a ++ ':' :: r)).takeWhile isSchemeChar = c :: a := takeWhile_span fits hstop
  rw [List.cons_append, scheme?, if_pos halpha, hdrop, htake]
  rfl

theorem scheme?_fits {a r : List Char} (first : ':' ∉ a) {x : String × List Char}
    (h : scheme? (a ++ ':' :: r) = some x) :
    (∃ c ∈ a.head?, c.isAlpha = true) ∧ ∀ c ∈ a, isSchemeChar c = true := by
  have hspan : ∀ t, (a ++ ':' :: r).dropWhile isSchemeChar = ':' :: t →
      ∀ c ∈ a, isSchemeChar c = true := by
    intro t ht
    have hwhole : (a ++ ':' :: r).takeWhile isSchemeChar ++ ':' :: t = a ++ ':' :: r := by
      rw [← ht, List.takeWhile_append_dropWhile]
    have hcolon : ':' ∉ (a ++ ':' :: r).takeWhile isSchemeChar := fun hin =>
      absurd (List.all_eq_true.1 List.all_takeWhile _ hin) (by decide)
    have hfront := (eq_of_append_cons_eq hcolon first hwhole).1
    intro c hc
    exact List.all_eq_true.1 List.all_takeWhile c (hfront ▸ hc)
  cases a with
  | nil =>
    have hcolon : ':'.isAlpha = false := by decide
    simp [scheme?, hcolon] at h
  | cons c a =>
    rw [List.cons_append] at h hspan
    unfold scheme? at h
    split at h
    · next d s heq =>
      obtain ⟨rfl, rfl⟩ := List.cons.inj heq
      split at h
      · next halpha =>
        split at h
        · next t ht => exact ⟨⟨c, rfl, halpha⟩, hspan t ht⟩
        · cases h
      · cases h
    · cases h

/-- The colon of the scheme is the first one of the text. -/
theorem scheme?_of_colon {a r : List Char} (first : ':' ∉ a) {x : String × List Char}
    (h : scheme? (a ++ ':' :: r) = some x) : x = (String.ofList (a.map Char.toLower), r) := by
  obtain ⟨begins, fits⟩ := scheme?_fits first h
  rw [scheme?_append r begins fits] at h
  exact (Option.some.inj h).symm

/-- Reads what follows the colon of a scheme. -/
def readRest (scheme : String) (r : List Char) : Except Flaw Url :=
  match SchemeKind.of scheme with
  | .file => readFile r
  | .special => readSpecial scheme r
  | .other => readOther scheme r

theorem parse_of_scheme? {s r : List Char} {scheme : String}
    (h : scheme? (clean s) = some (scheme, r)) :
    parse (String.ofList s) = readRest scheme r := by
  rw [parse, String.toList_ofList, h]
  rfl

/-! ## The authority -/

/-- A URL of a scheme, with an authority. -/
structure Placed (scheme : String) (url : Url) : Prop where
  scheme : url.scheme = scheme
  authority : url.authority ≠ none

theorem placed_finish (scheme : String) (kind : SchemeKind) (authority : Authority) (path : String)
    (s : List Char) : Placed scheme (finish scheme kind (some authority) path s) :=
  ⟨rfl, Option.some_ne_none _⟩

theorem readSpecial_placed {scheme : String} {s : List Char} {url : Url}
    (h : readSpecial scheme s = .ok url) : Placed scheme url := by
  obtain ⟨⟨authority, r⟩, -, h⟩ := exists_of_bind h
  obtain rfl := Except.ok.inj h
  exact placed_finish _ _ _ _ _

theorem readOther_placed {scheme : String} {s : List Char} {url : Url}
    (h : readOther scheme ('/' :: '/' :: s) = .ok url) : Placed scheme url := by
  obtain ⟨⟨authority, r⟩, -, h⟩ := exists_of_bind h
  obtain rfl := Except.ok.inj h
  exact placed_finish _ _ _ _ _

theorem readFile_placed {s : List Char} {url : Url} (h : readFile ('/' :: '/' :: s) = .ok url) :
    Placed "file" url := by
  obtain ⟨⟨host, r⟩, -, h⟩ := exists_of_bind h
  cases host with
  | none =>
    obtain rfl := Except.ok.inj h
    exact placed_finish _ _ _ _ _
  | some host =>
    obtain rfl := Except.ok.inj h
    exact placed_finish _ _ _ _ _

theorem eq_file_of_kind {scheme : String} (h : SchemeKind.of scheme = .file) : scheme = "file" := by
  unfold SchemeKind.of at h
  split at h
  · assumption
  · split at h <;> cases h

theorem readRest_placed {scheme : String} {s : List Char} {url : Url}
    (h : readRest scheme ('/' :: '/' :: s) = .ok url) : Placed scheme url := by
  rw [readRest] at h
  split at h
  · next hkind =>
    rw [eq_file_of_kind hkind]
    exact readFile_placed h
  · exact readSpecial_placed h
  · exact readOther_placed h

/-- Two slashes behind the first colon of a text are those of the authority. -/
theorem parse_placed {a rest : List Char} (first : ':' ∉ a) {url : Url}
    (h : parse (String.ofList (a ++ ':' :: '/' :: '/' :: rest)) = .ok url) :
    Placed (String.ofList ((cleanFront a).map Char.toLower)) url := by
  have hclean : clean (a ++ ':' :: '/' :: '/' :: rest) =
      cleanFront a ++ ':' :: '/' :: '/' :: cleanRear rest := by
    have hsolid : ∀ c ∈ [':', '/', '/'], isBlank c = false :=
      List.all_iff_forall_prop.1 (by decide)
    simpa using clean_append a rest (by simp) hsolid
  have hfirst : ':' ∉ cleanFront a := fun hin =>
    first ((List.dropWhile_sublist _).mem (List.mem_filter.1 hin).1)
  cases hscheme : scheme? (cleanFront a ++ ':' :: '/' :: '/' :: cleanRear rest) with
  | none =>
    rw [parse, String.toList_ofList, hclean, hscheme] at h
    cases h
  | some x =>
    obtain rfl := scheme?_of_colon hfirst hscheme
    rw [parse_of_scheme? (hclean ▸ hscheme)] at h
    exact readRest_placed h

end PubSub.Url
