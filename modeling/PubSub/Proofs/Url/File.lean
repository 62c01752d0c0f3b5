import PubSub.Url.Parse
import PubSub.Proofs.Url.Clean
import PubSub.Proofs.Url.Path

/-!
# File URLs of plain paths

A file URL is a host, which may be empty, and a path. Behind a host name that is kept as it is, and
behind no host, a path of plain segments is read as it is written (`readFile_host`,
`readFile_local`).
-/

namespace PubSub.Url

/-! ## Text that is not cleaned -/

theorem eq_space_of_isBlank {c : Char} (high : 0x20 ≤ c.toNat) (h : isBlank c = true) :
    c = ' ' := by
  have hle : c.toNat ≤ 0x20 := by simpa [isBlank] using h
  exact Char.ext (UInt32.toNat_inj.1 (Nat.le_antisymm hle high))

theorem cleanRear_eq_self {t : List Char} (high : ∀ c ∈ t, 0x20 ≤ c.toNat)
    (ends : t.getLast? ≠ some ' ') : cleanRear t = t := by
  have hdrop : ([] ++ t.reverse).dropWhile isBlank = t.reverse := by
    refine dropWhile_span (by simp) fun c hc => ?_
    rw [List.head?_reverse] at hc
    refine Bool.eq_false_iff.2 fun hblank => ends ?_
    rw [Option.mem_def.1 hc, eq_space_of_isBlank (high c (List.mem_of_mem_getLast? hc)) hblank]
  have hfilter : t.filter (!isLineSpace ·) = t := by
    refine List.filter_eq_self.2 fun c hc => ?_
    rw [Bool.not_eq_true']
    refine Bool.eq_false_iff.2 fun hline => ?_
    rw [eq_space_of_isBlank (high c hc) (isBlank_of_isLineSpace hline)] at hline
    exact absurd hline (by decide)
  rw [List.nil_append] at hdrop
  rw [cleanRear, hdrop, List.reverse_reverse, hfilter]

theorem parse_file {m t : List Char} (solid : ∀ c ∈ m, isBlank c = false)
    (high : ∀ c ∈ t, 0x20 ≤ c.toNat) (ends : t.getLast? ≠ some ' ') :
    parse (String.ofList ("file:".toList ++ m ++ t)) = readFile (m ++ t) := by
  have hfile : ∀ c ∈ "file:".toList, isBlank c = false := List.all_iff_forall_prop.1 (by decide)
  have hsolid : ∀ c ∈ "file:".toList ++ m, isBlank c = false := fun c hc =>
    (List.mem_append.1 hc).elim (hfile c) (solid c)
  have hclean : clean ("file:".toList ++ m ++ t) = "file".toList ++ ':' :: (m ++ t) := by
    have hall := clean_append [] t (m := "file:".toList ++ m) (by simp) hsolid
    rw [cleanFront_nil, cleanRear_eq_self high ends, List.nil_append] at hall
    rw [hall]
    rfl
  have hscheme : scheme? ("file".toList ++ ':' :: (m ++ t)) = some ("file", m ++ t) :=
    scheme?_append _ ⟨'f', rfl, rfl⟩ (List.all_iff_forall_prop.1 (by decide))
  rw [parse, String.toList_ofList, hclean, hscheme]
  rfl

/-! ## Hosts -/

/-- A host name in lower case letters and digits that is kept as it is. -/
structure HostName (h : List Char) : Prop where
  ne_nil : h ≠ []
  fits : ∀ c ∈ h, c.isLower = true ∨ c.isDigit = true
  ne_localhost : h ≠ "localhost".toList
  kept : Host.specialHost h = .ok (String.ofList h)

instance (h : List Char) : Decidable (HostName h) :=
  decidable_of_iff
    (h ≠ [] ∧ h.all (fun c => c.isLower = true ∨ c.isDigit = true) = true ∧
      h ≠ "localhost".toList ∧ Host.specialHost h = .ok (String.ofList h))
    ⟨fun hh => ⟨hh.1, List.all_iff_forall_prop.1 hh.2.1, hh.2.2.1, hh.2.2.2⟩,
      fun hh => ⟨hh.ne_nil, List.all_iff_forall_prop.2 hh.fits, hh.ne_localhost, hh.kept⟩⟩

namespace HostName

variable {h : List Char}

theorem not_mark (hh : HostName h) :
    ∀ c ∈ h, c ∉ ['/', '\\', '?', '#', '@', ',', ':', '|'] ∧ isBlank c = false := by
  intro c hc
  have hname := hh.fits c hc
  constructor
  · intro hmem
    simp only [List.mem_cons, List.not_mem_nil, or_false] at hmem
    rcases hmem with rfl | rfl | rfl | rfl | rfl | rfl | rfl | rfl <;>
      exact absurd hname (by decide)
  · rcases hname with hlower | hdigit
    · exact isBlank_eq_false (by decide) hlower
    · exact isBlank_eq_false (by decide) hdigit

theorem not_drive (hh : HostName h) : isDriveLetter h = false := by
  unfold isDriveLetter
  split
  · next a b =>
    have hb := (hh.not_mark b (by simp)).1
    simp only [List.mem_cons, not_or] at hb
    simp [hb]
  · rfl

theorem fileHost (hh : HostName h) {r : List Char}
    (stop : ∀ c ∈ r.head?, endsAuthority .file c = true) :
    fileHost (h ++ r) = .ok (some (String.ofList h), r) := by
  have hinside : ∀ c ∈ h, (!endsAuthority .file c) = true := by
    intro c hc
    have hmark := (hh.not_mark c hc).1
    simp only [List.mem_cons, not_or] at hmark
    simp [endsAuthority, isSeparator, endsPath, hmark]
  have hstop : ∀ c ∈ r.head?, (!endsAuthority .file c) = false := fun c hc => by
    rw [stop c hc]
    rfl
  have htext : (h ++ r).takeWhile (!endsAuthority .file ·) = h := takeWhile_span hinside hstop
  have hlocal : String.ofList h ≠ "localhost" := fun heq =>
    hh.ne_localhost (String.ofList_injective (heq.trans rfl))
  rw [Url.fileHost]
  simp only [htext, hh.not_drive, hh.ne_nil, hh.kept, hlocal, if_false, List.drop_left,
    Bool.false_eq_true]

end HostName

/-! ## Whole URLs -/

/-- The path that a relative path is written as behind a slash. -/
def writtenPath (t : List Char) : String := String.ofList ('/' :: Percent.encode Percent.inPath t)

variable {segments : List (List Char)}

theorem readPath_written (ne : segments ≠ []) (plain : ∀ s ∈ segments, Plain s)
    (unrooted : (['/'].intercalate segments).head? ≠ some '/') :
    readPath .file ['/'] (['/'].intercalate segments) =
      (writtenPath (['/'].intercalate segments), false, []) := by
  have hread := readPath_plain ne plain (t := []) (by simp)
  rw [List.append_nil] at hread
  rw [hread, Percent.dropWhile_encode unrooted]
  rfl

theorem readFile_host {h : List Char} (hh : HostName h) (ne : segments ≠ [])
    (plain : ∀ s ∈ segments, Plain s)
    (unrooted : (['/'].intercalate segments).head? ≠ some '/') :
    readFile ('/' :: '/' :: (h ++ '/' :: ['/'].intercalate segments)) =
      .ok ⟨"file", some ⟨"", some (String.ofList h), none⟩,
        writtenPath (['/'].intercalate segments), none, none⟩ := by
  have hslash : isSeparator .file '/' = true := rfl
  have hstop : ∀ c ∈ ('/' :: ['/'].intercalate segments).head?, endsAuthority .file c = true := by
    rintro _ ⟨⟩
    rfl
  simp only [readFile, hslash, if_true, hh.fileHost hstop, bind, Except.bind, List.head?_cons,
    Option.any_some, List.drop_one, List.tail_cons, readPath_written ne plain unrooted,
    Bool.false_eq_true, if_false]
  rfl

theorem readFile_local (ne : segments ≠ []) (plain : ∀ s ∈ segments, Plain s)
    (unrooted : (['/'].intercalate segments).head? ≠ some '/') :
    readFile ('/' :: '/' :: '/' :: ['/'].intercalate segments) =
      .ok ⟨"file", some ⟨"", none, none⟩,
        writtenPath (['/'].intercalate segments), none, none⟩ := by
  have hslash : isSeparator .file '/' = true := rfl
  have hhost : fileHost ('/' :: ['/'].intercalate segments) =
      .ok (none, '/' :: ['/'].intercalate segments) := rfl
  have hread : readPath .file ['/'] ('/' :: ['/'].intercalate segments) =
      (writtenPath (['/'].intercalate segments), false, []) := by
    -- The slash is the end of an empty first segment.
    have hempty : ['/'].intercalate ([] :: segments) = '/' :: ['/'].intercalate segments := by
      rw [List.intercalate_cons_of_ne_nil ne]
      rfl
    have hplain : ∀ s ∈ [] :: segments, Plain s := List.forall_mem_cons.2 ⟨plain_nil, plain⟩
    have hall := readPath_plain (List.cons_ne_nil [] segments) hplain (t := []) (by simp)
    rw [hempty, List.append_nil, Percent.encode_cons] at hall
    rw [hall]
    exact congrArg (fun path => (String.ofList ('/' :: path), false, []))
      (Percent.dropWhile_encode unrooted)
  simp only [readFile, hslash, if_true, hhost, bind, Except.bind, hread]
  rfl

end PubSub.Url
