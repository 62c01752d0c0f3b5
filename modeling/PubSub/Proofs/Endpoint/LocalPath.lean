import PubSub.Proofs.Endpoint.HostList
import PubSub.Proofs.Url.File

/-!
# Local paths

The path of a file URL names a file. Without a host the path is decoded, so that every relative path
comes back behind a slash as it was written. Behind a host it is taken as the URL writes it, so that
it comes back only if it has no character that a URL encodes (`localPath_branches`).
-/

namespace PubSub.Endpoint

/-! ## Relative paths -/

/-- A segment that stands in a URL as it is, and that no URL drops. -/
structure Segment (s : List Char) : Prop extends Url.Plain s where
  ne_nil : s ≠ []
  printable : ∀ c ∈ s, 0x20 ≤ c.toNat

instance (s : List Char) : Decidable (Segment s) :=
  decidable_of_iff (Url.Plain s ∧ s ≠ [] ∧ s.all (0x20 ≤ ·.toNat) = true)
    ⟨fun h => ⟨h.1, h.2.1, List.all_iff_forall_prop.1 h.2.2⟩,
      fun h => ⟨h.toPlain, h.ne_nil, List.all_iff_forall_prop.2 h.printable⟩⟩

/-- Segments joined by slashes, without a space at the end. -/
def RelativePath (t : List Char) : Prop :=
  ∃ segments : List (List Char), segments ≠ [] ∧ t = ['/'].intercalate segments ∧
    (∀ s ∈ segments, Segment s) ∧ t.getLast? ≠ some ' '

namespace RelativePath

variable {t : List Char}

theorem char (ht : RelativePath t) : ∀ c ∈ t,
    0x20 ≤ c.toNat ∧ c ∉ ['?', '#', '%', ':', '|'] := by
  obtain ⟨segments, -, rfl, hsegments, -⟩ := ht
  intro c hc
  rcases mem_or_of_mem_intercalate hc with hslash | ⟨s, hs, hcs⟩
  · rw [List.mem_singleton.1 hslash]
    decide
  · have hfits := (hsegments s hs).fits c hcs
    refine ⟨(hsegments s hs).printable c hcs, fun hmem => hfits ?_⟩
    exact List.mem_cons_of_mem _ (List.mem_cons_of_mem _ hmem)

theorem unrooted (ht : RelativePath t) : t.head? ≠ some '/' := by
  obtain ⟨segments, hne, rfl, hsegments, -⟩ := ht
  obtain ⟨s, segments, rfl⟩ := List.exists_cons_of_ne_nil hne
  have hs := hsegments s List.mem_cons_self
  obtain ⟨c, s, rfl⟩ := List.exists_cons_of_ne_nil hs.ne_nil
  have hslash : c ≠ '/' := fun h => hs.fits c List.mem_cons_self (by simp [h])
  cases segments with
  | nil => simpa using hslash
  | cons s' segments => simpa [List.intercalate_cons_cons] using hslash

end RelativePath

/-! ## Reading file URLs -/

/-- The frame of file URLs with a path. -/
def fileFrame (t : List Char) : Frame where
  scheme := "file".toList
  user := none
  tail := '/' :: t
  scheme_fits := by decide
  user_fits := nobody_fits
  tail_fits := slash_fits t

theorem fileFrame_url (h t : List Char) :
    (fileFrame t).url h = String.ofList ("file://".toList ++ h ++ '/' :: t) := by
  have hfront : "file".toList ++ "://".toList ++ [] = "file://".toList := by decide
  exact congrArg (fun front => String.ofList (front ++ h ++ '/' :: t)) hfront

/-- The endpoint of a file URL without a host. -/
def localFile (t : List Char) : Endpoint :=
  ⟨⟨"file", some ⟨"", none, none⟩, Url.writtenPath t, none, none⟩, []⟩

/-- The endpoint of a file URL with a host. -/
def hostFile (h t : List Char) : Endpoint :=
  ⟨⟨"file", some ⟨"", some (String.ofList h), none⟩, Url.writtenPath t, none, none⟩,
    [String.ofList h]⟩

variable {h t : List Char}

theorem single_of_hostName (hh : Url.HostName h) : HostText h ∧ ',' ∉ h := by
  have hmarks : ∀ c ∈ ['@', '/', '?', '#'], c ∈ ['/', '\\', '?', '#', '@', ',', ':', '|'] :=
    List.all_iff_forall_prop.1 (by decide)
  exact ⟨fun c hc hmem => (hh.not_mark c hc).1 (hmarks c hmem),
    fun hc => (hh.not_mark _ hc).1 (by simp)⟩

theorem parse_localFile (ht : RelativePath t) :
    parse (String.ofList ("file:///".toList ++ t)) = .ok (localFile t) := by
  have htext : (fileFrame t).url [] = String.ofList ("file:///".toList ++ t) := rfl
  have hurl : Url.parse (String.ofList ("file:///".toList ++ t)) = .ok (localFile t).url := by
    obtain ⟨segments, hne, rfl, hsegments, hlast⟩ := id ht
    have hslashes : ∀ c ∈ "///".toList, Url.isBlank c = false :=
      List.all_iff_forall_prop.1 (by decide)
    have hread := Url.parse_file hslashes (fun c hc => (ht.char c hc).1) hlast
    exact hread.trans (Url.readFile_local hne (fun s hs => (hsegments s hs).toPlain) ht.unrooted)
  rw [← htext, (fileFrame t).parse_single (by decide) (by decide), htext, parseUrl, hurl]
  rfl

theorem parse_hostFile (hh : Url.HostName h) (ht : RelativePath t) :
    parse (String.ofList ("file://".toList ++ h ++ '/' :: t)) = .ok (hostFile h t) := by
  have hurl : Url.parse (String.ofList ("file://".toList ++ h ++ '/' :: t)) =
      .ok (hostFile h t).url := by
    obtain ⟨segments, hne, rfl, hsegments, hlast⟩ := id ht
    have hslashes : ∀ c ∈ "//".toList, Url.isBlank c = false :=
      List.all_iff_forall_prop.1 (by decide)
    have hsolid : ∀ c ∈ "//".toList ++ h ++ ['/'], Url.isBlank c = false := by
      intro c hc
      rcases List.mem_append.1 hc with hc | hc
      · exact (List.mem_append.1 hc).elim (hslashes c) fun hc => (hh.not_mark c hc).2
      · rw [List.mem_singleton.1 hc]
        decide
    have hread := Url.parse_file hsolid (fun c hc => (ht.char c hc).1) hlast
    have hfront : "file://".toList = "file:".toList ++ "//".toList := by decide
    simp only [List.append_assoc, List.singleton_append] at hread
    rw [hfront, List.append_assoc, List.append_assoc, hread]
    exact Url.readFile_host hh hne (fun s hs => (hsegments s hs).toPlain) ht.unrooted
  obtain ⟨hfits, hsingle⟩ := single_of_hostName hh
  rw [← fileFrame_url, (fileFrame t).parse_single hfits hsingle, fileFrame_url, parseUrl, hurl]
  rfl

/-! ## Without a host and behind one -/

/-- A path whose last byte is no mark of a drive is decoded and left as it is. -/
theorem absolutePath_eq {path : List Char}
    (hdrive : ∀ b ∈ Percent.decode path, b ≠ 58 ∧ b ≠ 124) :
    absolutePath path = Percent.decode path := by
  unfold absolutePath
  dsimp only
  split
  · next b a c r heq =>
    obtain ⟨hcolon, hbar⟩ := hdrive b (List.mem_reverse.1 (heq ▸ List.mem_cons_self))
    simp [hcolon, hbar]
  · rfl

theorem toList_writtenPath (t : List Char) :
    (Url.writtenPath t).toList = '/' :: Percent.encode Percent.inPath t := by
  rw [Url.writtenPath, String.toList_ofList]

theorem RelativePath.no_sign (ht : RelativePath t) : '%' ∉ t := fun hin =>
  (ht.char _ hin).2 (by simp)

/-- The decoded path is the bytes of the text, among which there is no mark of a drive. -/
theorem localPath_localFile (ht : RelativePath t) :
    (localFile t).localPath = Utf8.encode ('/' :: t) := by
  have hbytes : Percent.decode ('/' :: Percent.encode Percent.inPath t) =
      Utf8.encode ('/' :: t) := by
    rw [Percent.decode_cons (by decide), Percent.decode_encode _ ht.no_sign]
    rfl
  have hmarks : ∀ c ∈ [':', '|'], c ∈ ['?', '#', '%', ':', '|'] :=
    List.all_iff_forall_prop.1 (by decide)
  have hmark : ∀ n : UInt8, n.toNat < 128 → Char.ofNat n.toNat ∈ [':', '|'] →
      n ∉ Utf8.encode ('/' :: t) := by
    intro n hn hmem hin
    rcases List.mem_cons.1 (Utf8.ascii_mem_encode hn hin) with hslash | ht'
    · rw [hslash] at hmem
      exact absurd hmem (by decide)
    · exact (ht.char _ ht').2 (hmarks _ hmem)
  have hpath : (localFile t).localPath = absolutePath ('/' :: Percent.encode Percent.inPath t) := by
    show (if (Url.writtenPath t).toList.head? = some '/' then
      absolutePath (Url.writtenPath t).toList else Utf8.encode (Url.writtenPath t).toList) = _
    rw [toList_writtenPath]
    exact if_pos rfl
  rw [hpath, absolutePath_eq, hbytes]
  intro b hb
  rw [hbytes] at hb
  refine ⟨fun h => ?_, fun h => ?_⟩
  · exact hmark 58 (by decide) (by decide) (h ▸ hb)
  · exact hmark 124 (by decide) (by decide) (h ▸ hb)

/-- The path is not decoded. -/
theorem localPath_hostFile (ht : RelativePath t) :
    (hostFile h t).localPath = Utf8.encode (h ++ '/' :: Percent.encode Percent.inPath t) := by
  show Utf8.ofText (String.ofList h) ++
    47 :: Utf8.encode ((Url.writtenPath t).toList.dropWhile (· = '/')) = _
  rw [toList_writtenPath, List.dropWhile_cons_of_pos rfl, Percent.dropWhile_encode ht.unrooted,
    Utf8.ofText, String.toList_ofList, Utf8.encode_append]
  rfl

/-- The local path behind no host is the path as it was written. Behind a host it is the path as the
URL writes it, which is the same just if the path has none of the characters that are encoded. -/
theorem localPath_branches (hh : Url.HostName h) (ht : RelativePath t) :
    ∃ near far, parse (String.ofList ("file:///".toList ++ t)) = .ok near ∧
      parse (String.ofList ("file://".toList ++ h ++ '/' :: t)) = .ok far ∧
      near.localPath = Utf8.encode ('/' :: t) ∧
      far.localPath = Utf8.encode (h ++ '/' :: Percent.encode Percent.inPath t) ∧
      (far.localPath = Utf8.encode (h ++ '/' :: t) ↔ ∀ c ∈ t, Percent.inPath c = false) := by
  refine ⟨localFile t, hostFile h t, parse_localFile ht, parse_hostFile hh ht,
    localPath_localFile ht, localPath_hostFile ht, ?_⟩
  rw [localPath_hostFile ht, Utf8.encode_inj, List.append_cancel_left_eq, List.cons.injEq,
    Percent.encode_eq_iff ht.no_sign]
  exact and_iff_right rfl

theorem localPath_branches_umlaut :
    ∃ near far, parse "file:///my dir/ü" = .ok near ∧ parse "file://srv1/my dir/ü" = .ok far ∧
      near.localPath = Utf8.ofText "/my dir/ü" ∧
      far.localPath = Utf8.ofText "srv1/my%20dir/%C3%BC" := by
  have hhost : Url.HostName "srv1".toList := by decide +kernel
  have hdir : Segment "my dir".toList := by decide
  have hfile : Segment "ü".toList := by decide
  have hpath : RelativePath "my dir/ü".toList :=
    ⟨["my dir".toList, "ü".toList], by decide, by decide,
      List.forall_mem_cons.2 ⟨hdir, List.forall_mem_singleton.2 hfile⟩, by decide⟩
  obtain ⟨near, far, hnear, hfar, hlocal, hbehind, -⟩ := localPath_branches hhost hpath
  exact ⟨near, far, hnear, hfar, hlocal, hbehind.trans (by decide +kernel)⟩

/-- A space comes back as it was written without a host, and percent encoded behind one. -/
theorem localPath_encoded :
    Url.HostName "h".toList ∧ RelativePath "a b".toList ∧
      ∃ near far, parse "file:///a b" = .ok near ∧ parse "file://h/a b" = .ok far ∧
        near.localPath = Utf8.ofText "/a b" ∧ far.localPath = Utf8.ofText "h/a%20b" ∧
        far.localPath ≠ Utf8.ofText "h/a b" := by
  have hhost : Url.HostName "h".toList := by decide +kernel
  have hsegment : Segment "a b".toList := by decide
  have hpath : RelativePath "a b".toList :=
    ⟨["a b".toList], by decide, by decide, List.forall_mem_singleton.2 hsegment, by decide⟩
  have hnear : parse "file:///a b" =
      .ok ⟨⟨"file", some ⟨"", none, none⟩, "/a%20b", none, none⟩, []⟩ :=
    eq_ok_of_toOption (by decide +kernel)
  have hfar : parse "file://h/a b" =
      .ok ⟨⟨"file", some ⟨"", some "h", none⟩, "/a%20b", none, none⟩, ["h"]⟩ :=
    eq_ok_of_toOption (by decide +kernel)
  exact ⟨hhost, hpath, _, _, hnear, hfar, by decide +kernel, by decide +kernel, by decide +kernel⟩

end PubSub.Endpoint
