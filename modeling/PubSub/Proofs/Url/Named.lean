import PubSub.Proofs.Url.Authority
import PubSub.Proofs.Url.File

/-!
# URLs of a scheme and a host

A scheme and a plain host name make a URL, whatever the scheme. The scheme of the URL is the name in
lower case (`parse_hostUrl`), which is the name itself if it has no capital (`lowered_eq_iff`).
-/

namespace PubSub.Url

variable {a h : List Char}

/-! ## Schemes in lower case -/

/-- The scheme of URLs that begin with a name. -/
def lowered (a : List Char) : String := String.ofList (a.map Char.toLower)

theorem toLower_eq_iff (c : Char) : c.toLower = c ↔ c.isUpper = false := by
  unfold Char.toLower
  have hupper : c.isUpper = true ↔ c.val ≥ 'A'.val ∧ c.val ≤ 'Z'.val := by
    unfold Char.isUpper
    simp
  split
  · next h => simp [hupper.2 h, Char.ext_iff]
  · next h => simp [Bool.eq_false_iff.2 (mt hupper.1 h)]

theorem lowered_eq_iff : lowered a = String.ofList a ↔ ∀ c ∈ a, c.isUpper = false := by
  rw [lowered, String.ofList_inj]
  induction a with
  | nil => simp
  | cons c a ih => rw [List.map_cons, List.cons.injEq, ih, toLower_eq_iff, List.forall_mem_cons]

/-! ## Plain hosts -/

/-- The URL of a scheme and a host alone. -/
def hostUrl (a h : List Char) : String := String.ofList (a ++ "://".toList ++ h)

theorem HostName.plain (hh : HostName h) :
    ∀ c ∈ h, Host.isForbidden c = false ∧ Percent.isControl c = false := by
  intro c hc
  have hname := hh.fits c hc
  constructor
  · have hforbidden : ∀ x ∈ ['\x00', '\t', '\n', '\r', ' ', '#', '/', ':', '<', '>', '?', '@',
        '[', '\\', ']', '^', '|'], ¬ (x.isLower = true ∨ x.isDigit = true) :=
      List.all_iff_forall_prop.1 (by decide)
    refine Bool.eq_false_iff.2 fun hin => hforbidden c ?_ hname
    rwa [Host.isForbidden, List.contains_iff_mem] at hin
  · have hrange : 0x20 ≤ c.toNat ∧ c.toNat < 0x7F := by
      rcases hname with hlower | hdigit
      · have hbounds : 97 ≤ c.toNat ∧ c.toNat ≤ 122 := by
          unfold Char.isLower at hlower
          simpa [UInt32.le_iff_toNat_le] using hlower
        omega
      · have hbounds : 48 ≤ c.toNat ∧ c.toNat ≤ 57 := by
          simpa [Char.isDigit, UInt32.le_iff_toNat_le] using hdigit
        omega
    simp only [Percent.isControl, Bool.or_eq_false_iff, decide_eq_false_iff_not]
    omega

/-- All schemes keep a plain host name. -/
theorem HostName.normalHost (hh : HostName h) (kind : SchemeKind) : NormalHost kind h where
  ne_nil := hh.ne_nil
  solid c hc := (hh.not_mark c hc).2
  fits c hc := (hh.plain c hc).1
  kept := by
    split
    · exact hh.kept
    · have hhead : h.head? ≠ some '[' := fun heq =>
        absurd (hh.plain _ (List.mem_of_mem_head? heq)).1 (by decide)
      have hnone : h.any Host.isForbidden = false :=
        List.any_eq_false.2 fun c hc => by simp [(hh.plain c hc).1]
      rw [Host.opaqueHost, if_neg hhead, hnone,
        Percent.encode_eq_self fun c hc => (hh.plain c hc).2]
      rfl

/-! ## Whole URLs -/

theorem readFile_bare (hh : HostName h) : ∃ url, readFile ('/' :: '/' :: h) = .ok url := by
  have hslash : isSeparator .file '/' = true := rfl
  have hhost := hh.fileHost (r := []) (by simp)
  rw [List.append_nil] at hhost
  simp only [readFile, hslash, if_true, hhost, bind, Except.bind]
  exact ⟨_, rfl⟩

theorem readRest_bare (hh : HostName h) (scheme : String) :
    ∃ url, readRest scheme ('/' :: '/' :: h) = .ok url := by
  have hnormal (hfile : SchemeKind.of scheme ≠ .file) : Normal scheme h none :=
    ⟨hh.normalHost _, by simp, hfile⟩
  rw [readRest]
  cases hkind : SchemeKind.of scheme with
  | file => exact readFile_bare hh
  | special =>
    obtain ⟨url, hurl, -⟩ := readSpecial_normal (t := []) (hnormal (by simp [hkind])) hkind (by simp)
    rw [portText, List.append_nil, List.append_nil] at hurl
    exact ⟨url, hurl⟩
  | other =>
    obtain ⟨url, hurl, -⟩ := readOther_normal (t := []) (hnormal (by simp [hkind])) hkind (by simp)
    rw [portText, List.append_nil, List.append_nil] at hurl
    exact ⟨url, hurl⟩

theorem parse_hostUrl (ha : SchemeName a) (hh : HostName h) :
    ∃ url, parse (hostUrl a h) = .ok url ∧ url.scheme = lowered a := by
  have hmark : ∀ c ∈ "://".toList, isBlank c = false := List.all_iff_forall_prop.1 (by decide)
  have hsolid : ∀ c ∈ a ++ "://".toList ++ h, isBlank c = false := by
    intro c hc
    simp only [List.mem_append] at hc
    rcases hc with (hscheme | hc) | hhost
    · exact isBlank_eq_false (by decide) (ha.fits c hscheme)
    · exact hmark c hc
    · exact (hh.not_mark c hhost).2
  have hscheme : scheme? (clean (a ++ "://".toList ++ h)) = some (lowered a, '/' :: '/' :: h) := by
    rw [clean_eq_self hsolid, List.append_assoc]
    exact scheme?_append _ ha.begins ha.fits
  obtain ⟨url, hurl⟩ := readRest_bare hh (lowered a)
  exact ⟨url, (parse_of_scheme? hscheme).trans hurl, (readRest_placed hurl).scheme⟩

end PubSub.Url
