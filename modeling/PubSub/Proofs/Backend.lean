import PubSub.Backend
import PubSub.Proofs.Endpoint.LocalPath
import PubSub.Proofs.Files.Path
import PubSub.Proofs.Registry

/-!
# Roots of file URLs

An absolute path behind `file://` is the local path of the URL, byte for byte. So both sides of a
registry open the folder of just this path, and the folders of two such paths have different names
(`absolute_opens`).
-/

namespace PubSub

variable {p q : List Char}

/-- Segments joined by slashes, behind a slash. -/
def AbsolutePath (p : List Char) : Prop := ∃ t, p = '/' :: t ∧ Endpoint.RelativePath t

def fileUrl (p : List Char) : String := String.ofList ("file://".toList ++ p)

/-! ## The local path -/

theorem AbsolutePath.parse (hp : AbsolutePath p) :
    ∃ e, Endpoint.parse (fileUrl p) = .ok e ∧ e.scheme = "file" ∧ e.host = none ∧ e.hosts = [] ∧
      e.localPath = Utf8.encode p := by
  obtain ⟨t, rfl, ht⟩ := hp
  exact ⟨Endpoint.localFile t, Endpoint.parse_localFile ht, rfl, rfl, rfl,
    Endpoint.localPath_localFile ht⟩

/-! ## Names of folders -/

theorem names_segments {segments : List (List Char)}
    (hsegments : ∀ s ∈ segments, Endpoint.Segment s) :
    Path.names (Utf8.encode (['/'].intercalate segments)) = segments.map Utf8.encode := by
  induction segments with
  | nil => exact Path.names_nil
  | cons s segments ih =>
    have hs := hsegments s List.mem_cons_self
    have hname : Path.names (Utf8.encode s) = [Utf8.encode s] := by
      refine Path.names_of_noSlash (fun hnil => hs.ne_nil (Utf8.encode_inj.1 hnil)) fun hin => ?_
      exact hs.fits _ (Utf8.ascii_mem_encode (by decide) hin) (by decide)
    cases segments with
    | nil => rw [List.intercalate_singleton, hname]; rfl
    | cons s' segments =>
      have hslash : Utf8.encode ['/'] = [Path.slash] := by decide
      rw [List.intercalate_cons_cons, List.append_assoc, Utf8.encode_append, Utf8.encode_append,
        hslash, List.singleton_append, Path.names_append_slash, hname,
        ih fun x hx => hsegments x (List.mem_cons_of_mem _ hx)]
      rfl

/-- The names on the way to a folder tell which path it is. -/
theorem AbsolutePath.eq_of_names (hp : AbsolutePath p) (hq : AbsolutePath q)
    (h : Path.names (Utf8.encode p) = Path.names (Utf8.encode q)) : p = q := by
  have hroot : ∀ t, Path.names (Utf8.encode ('/' :: t)) = Path.names (Utf8.encode t) := by
    intro t
    have hcons : Utf8.encode ('/' :: t) = [] ++ Path.slash :: Utf8.encode t := rfl
    rw [hcons, Path.names_append_slash, Path.names_nil, List.nil_append]
  obtain ⟨_, rfl, ss, -, rfl, hss, -⟩ := hp
  obtain ⟨_, rfl, ts, -, rfl, hts, -⟩ := hq
  rw [hroot, hroot, names_segments hss, names_segments hts] at h
  have hsegments : ss = ts := List.map_injective_iff.2 (fun _ _ => Utf8.encode_inj.1) h
  rw [hsegments]

/-! ## Through a registry -/

namespace Backends

/-- File URLs are opened by the files on both sides. -/
structure BindsFiles (r : Backends) : Prop where
  publishers : r.publishers.get? "file" = some .files
  subscribers : r.subscribers.get? "file" = some .files

/-- Both sides open a URL at a root. -/
structure OpensAt (r : Backends) (url : String) (root : Bytes) : Prop where
  publisher : ∀ files, r.openPublisher files false url =
    ((FileLog.create files root).1.map .files, (FileLog.create files root).2, none)
  subscriber : r.openSubscriber false url = (.ok (.files root), none)

variable {r : Backends}

theorem OpensAt.unique {url : String} {root root' : Bytes} (h : r.OpensAt url root)
    (h' : r.OpensAt url root') : root = root' := by
  have hsame := h.subscriber.symm.trans h'.subscriber
  injection hsame with hok
  injection hok with hfiles
  injection hfiles

theorem BindsFiles.opensAt (h : r.BindsFiles) {url : String} {e : Endpoint}
    (hurl : Endpoint.parse url = .ok e) (hscheme : e.scheme = "file") :
    r.OpensAt url e.localPath where
  publisher files := by
    rw [openPublisher, Registry.resolve_live hurl, hscheme, h.publishers]
    rfl
  subscriber := by
    rw [openSubscriber, Registry.resolve_live hurl, hscheme, h.subscribers]
    rfl

end Backends

/-- The URL of an absolute path is accepted, has no host, and its local path is that path. Where the
URLs of files are opened by the files, it is opened at this path, and the URL of any other absolute
path is opened at a root of other names. -/
theorem absolute_opens (hp : AbsolutePath p) :
    (∃ e, Endpoint.parse (fileUrl p) = .ok e ∧ e.host = none ∧ e.hosts = [] ∧
        e.localPath = Utf8.encode p) ∧
      ∀ r : Backends, r.BindsFiles → r.OpensAt (fileUrl p) (Utf8.encode p) ∧
        ∀ q root, AbsolutePath q → q ≠ p → r.OpensAt (fileUrl q) root →
          root ≠ Utf8.encode p ∧ Path.names root ≠ Path.names (Utf8.encode p) := by
  obtain ⟨e, hurl, hscheme, hhost, hhosts, hlocal⟩ := hp.parse
  refine ⟨⟨e, hurl, hhost, hhosts, hlocal⟩, fun r hr => ⟨?_, fun q root hq hne hroot => ?_⟩⟩
  · rw [← hlocal]
    exact hr.opensAt hurl hscheme
  · obtain ⟨e', hurl', hscheme', -, -, hlocal'⟩ := hq.parse
    have heq : root = Utf8.encode q := hlocal' ▸ hroot.unique (hr.opensAt hurl' hscheme')
    have hnames : Path.names root ≠ Path.names (Utf8.encode p) := fun h =>
      hne (hq.eq_of_names hp (heq ▸ h))
    exact ⟨fun h => hnames (congrArg Path.names h), hnames⟩

theorem absolute_opens_spelled :
    ∃ e, Endpoint.parse "file:///my dir,@/ü\"" = .ok e ∧ e.host = none ∧ e.hosts = [] ∧
      e.localPath = Utf8.ofText "/my dir,@/ü\"" ∧
      Backends.builtin.OpensAt "file:///my dir,@/ü\"" (Utf8.ofText "/my dir,@/ü\"") ∧
      Backends.builtin.OpensAt "file:///my dir" (Utf8.ofText "/my dir") ∧
      Path.names (Utf8.ofText "/my dir") ≠ Path.names (Utf8.ofText "/my dir,@/ü\"") := by
  have hbuiltin : Backends.builtin.BindsFiles := ⟨rfl, rfl⟩
  have hlong : AbsolutePath "/my dir,@/ü\"".toList := by
    have hfirst : Endpoint.Segment "my dir,@".toList := by decide
    have hsecond : Endpoint.Segment "ü\"".toList := by decide
    exact ⟨"my dir,@/ü\"".toList, by decide, ["my dir,@".toList, "ü\"".toList], by decide,
      by decide, List.forall_mem_cons.2 ⟨hfirst, List.forall_mem_singleton.2 hsecond⟩, by decide⟩
  have hshort : AbsolutePath "/my dir".toList := by
    have hsegment : Endpoint.Segment "my dir".toList := by decide
    exact ⟨"my dir".toList, by decide, ["my dir".toList], by decide, by decide,
      List.forall_mem_singleton.2 hsegment, by decide⟩
  obtain ⟨⟨e, hurl, hhost, hhosts, hlocal⟩, hopens⟩ := absolute_opens hlong
  obtain ⟨hat, hapart⟩ := hopens Backends.builtin hbuiltin
  obtain ⟨-, hother⟩ := absolute_opens hshort
  have hnear := (hother Backends.builtin hbuiltin).1
  exact ⟨e, hurl, hhost, hhosts, hlocal, hat, hnear,
    (hapart _ _ hshort (by decide) hnear).2⟩

end PubSub
