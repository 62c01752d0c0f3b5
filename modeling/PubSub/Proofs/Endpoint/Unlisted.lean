import PubSub.Proofs.Endpoint.HostList
import PubSub.Proofs.Url.Clean

/-!
# URLs without a list of hosts

The hosts of a connection URL are searched for in its text behind the first `://`, and every text
that has one can be read as a frame with hosts (`exists_frame`), in one way only
(`found?_of_spells`). When the first `://` is the one behind the scheme, these are the hosts of the
URL as it is parsed. A URL without an authority may hold its first `://` later, and then what
follows is taken for hosts (`parse_unlisted`, `nested_list_taken`).
-/

namespace PubSub.Endpoint

/-! ## Reading a text as a frame -/

/-- The frame and the hosts that a text is read as. -/
structure Frame.Spells (f : Frame) (hosts : List Char) (input : String) : Prop where
  fits : HostText hosts
  text : f.url hosts = input

theorem splitScheme?_eq_some {s a b : List Char} (h : splitScheme? s = some (a, b)) :
    s = a ++ ':' :: '/' :: '/' :: b ∧ ¬ [':', '/', '/'] <:+: a := by
  fun_induction splitScheme? s generalizing a b with
  | case1 r =>
    cases h
    exact ⟨rfl, by simp⟩
  | case2 c r hmark ih =>
    obtain ⟨⟨a, b⟩, hrest, hab⟩ := Option.map_eq_some_iff.1 h
    cases hab
    obtain ⟨rfl, hnone⟩ := ih hrest
    refine ⟨rfl, fun hin => ?_⟩
    rcases List.infix_cons_iff.1 hin with ⟨t, hhead⟩ | htail
    · simp only [List.cons_append, List.nil_append, List.cons.injEq] at hhead
      obtain ⟨rfl, rfl⟩ := hhead
      exact hmark _ rfl rfl
    · exact hnone htail
  | case3 => cases h

/-- The credentials of an authority end with its last `@`. -/
theorem exists_user (authority : List Char) :
    ∃ (user : Option (List Char)) (hosts : List Char), '@' ∉ hosts ∧
      authority = (match user with | none => [] | some u => u ++ ['@']) ++ hosts := by
  have hhosts : '@' ∉ (authority.reverse.takeWhile (· ≠ '@')).reverse := fun hin => by
    simpa using List.all_eq_true.1 List.all_takeWhile _ (List.mem_reverse.1 hin)
  have hwhole : authority = (authority.reverse.dropWhile (· ≠ '@')).reverse ++
      (authority.reverse.takeWhile (· ≠ '@')).reverse := by
    rw [← List.reverse_append, List.takeWhile_append_dropWhile, List.reverse_reverse]
  have hhead := List.head?_dropWhile_not (· ≠ '@') authority.reverse
  cases hdrop : authority.reverse.dropWhile (· ≠ '@') with
  | nil =>
    rw [hdrop] at hwhole
    exact ⟨none, _, hhosts, hwhole⟩
  | cons c u =>
    rw [hdrop] at hwhole hhead
    obtain rfl : c = '@' := by simpa using hhead
    refine ⟨some u.reverse, _, hhosts, ?_⟩
    rw [List.reverse_cons] at hwhole
    exact hwhole

theorem exists_frame {input : String} {scheme rest : List Char}
    (h : splitScheme? input.toList = some (scheme, rest)) :
    ∃ (f : Frame) (hosts : List Char), f.Spells hosts input := by
  obtain ⟨hinput, hscheme⟩ := splitScheme?_eq_some h
  obtain ⟨user, hosts, hat, hauthority⟩ := exists_user (rest.takeWhile (!endsHosts ·))
  have hin : ∀ c ∈ rest.takeWhile (!endsHosts ·), c ∉ ['/', '?', '#'] := fun c hc =>
    endsHosts_eq_false_iff.1 (by simpa using List.all_eq_true.1 List.all_takeWhile c hc)
  rw [hauthority] at hin
  let f : Frame :=
    { scheme, user, tail := rest.dropWhile (!endsHosts ·), scheme_fits := hscheme
      user_fits := by
        rintro u rfl c hc
        exact hin c (List.mem_append_left _ (List.mem_append_left _ hc))
      tail_fits := by
        intro c hc
        have hnot := List.head?_dropWhile_not (!endsHosts ·) rest
        rw [Option.mem_def.1 hc] at hnot
        exact endsHosts_eq_true_iff.1 (by simpa using hnot) }
  refine ⟨f, hosts, ⟨fun c hc => ?_, ?_⟩⟩
  · rw [List.mem_cons, not_or]
    exact ⟨fun h => hat (h ▸ hc), hin c (List.mem_append_right _ hc)⟩
  · have hrest : f.credentials ++ hosts ++ f.tail = rest := by
      rw [← List.takeWhile_append_dropWhile (p := (!endsHosts ·)) (l := rest), hauthority]
      rfl
    rw [← String.toList_inj, f.toList_url, hrest]
    exact hinput.symm

/-- The scheme and the hosts that the search finds. -/
def found? (s : List Char) : Option (List Char × List Char) :=
  (splitScheme? s).map fun (scheme, rest) =>
    (scheme, ((rest.takeWhile (!endsHosts ·)).reverse.takeWhile (· ≠ '@')).reverse)

theorem found?_of_spells {f : Frame} {hosts : List Char} {input : String}
    (h : f.Spells hosts input) : found? input.toList = some (f.scheme, hosts) := by
  rw [found?, ← h.text, f.toList_url, splitScheme?_append f.scheme_fits, Option.map_some]
  dsimp only
  rw [f.takeWhile_authority h.fits, f.takeWhile_hosts h.fits]

theorem parse_bare {input : String} (h : splitScheme? input.toList = none) :
    parse input = (parseUrl input).map fun url => ⟨url, []⟩ := by
  rw [parse, h]

/-! ## Hosts of one URL -/

theorem hostOf_eq_nil {url : Url} (h : url.host = none) : hostOf url = [] := by
  rw [hostOf, h]

/-- The endpoint of a text is that of the URL itself, with at most the URL's own host. -/
def Kept (input : String) (url : Url) : Prop :=
  ∃ e, parse input = .ok e ∧ e.url = url ∧ e.hosts.length ≤ 1 ∧ (url.host = none → e.hosts = [])

variable {input : String} {url : Url}

theorem kept_of_unlisted (accepted : Url.parse input = .ok url)
    (unlisted : ∀ (f : Frame) (hosts : List Char), f.Spells hosts input → ',' ∉ hosts) :
    Kept input url := by
  cases hsplit : splitScheme? input.toList with
  | none =>
    refine ⟨⟨url, []⟩, ?_, rfl, Nat.zero_le 1, fun _ => rfl⟩
    rw [parse_bare hsplit, parseUrl_eq_ok.2 accepted]
    rfl
  | some x =>
    obtain ⟨f, hosts, hf⟩ := exists_frame hsplit
    refine ⟨⟨url, hostOf url⟩, ?_, rfl, length_hostOf url, hostOf_eq_nil⟩
    have hparsed := f.parse_single hf.fits (unlisted f hosts hf)
    rw [hf.text, parseUrl_eq_ok.2 accepted] at hparsed
    exact hparsed

/-- A list that is taken for the hosts is left out of the URL except for its first entry. -/
theorem kept_iff_of_list {f : Frame} {hosts : List Char} {entries : List (List Char)}
    (hf : f.Spells hosts input) (comma : ',' ∈ hosts) (lists : Lists hosts entries) :
    Kept input url ↔ entries.length ≤ 1 ∧ (url.host = none → entries = []) ∧
      Url.parse (f.url (entries.head?.getD [])) = .ok url := by
  rw [Kept, ← hf.text, f.parse_list hf.fits comma lists]
  constructor
  · rintro ⟨e, hparse, rfl, hlength, hnone⟩
    obtain ⟨u, hu, rfl⟩ := exists_of_map hparse
    exact ⟨by simpa using hlength, fun h => by simpa using hnone h, parseUrl_eq_ok.1 hu⟩
  · rintro ⟨hlength, hnone, hparsed⟩
    rw [parseUrl_eq_ok.2 hparsed]
    exact ⟨⟨url, entries.map String.ofList⟩, rfl, rfl, by simpa using hlength,
      fun h => by rw [hnone h]; rfl⟩

/-- A `://` behind the first colon is that of the URL's own scheme and authority. -/
theorem Frame.Spells.placed {f : Frame} {hosts : List Char} (hf : f.Spells hosts input)
    (first : ':' ∉ f.scheme) (accepted : Url.parse input = .ok url) :
    Url.Placed (String.ofList ((Url.cleanFront f.scheme).map Char.toLower)) url := by
  rw [← hf.text, ← String.ofList_toList (s := f.url hosts), f.toList_url] at accepted
  exact Url.parse_placed first accepted

/-- A text whose scheme is followed by `://` and hosts without a comma has the endpoint of its URL
unless the first `://` stands later, which is so for URLs without an authority, and is followed by a
list. Such a list is taken for the hosts. The endpoint is that of the URL even then just if the list
has one entry at most, and none for a URL without a host, and the URL is the same without what the
list holds besides that entry. -/
theorem parse_unlisted (accepted : Url.parse input = .ok url)
    (unlisted : ∀ (f : Frame) (hosts : List Char), f.Spells hosts input → ':' ∉ f.scheme →
      ',' ∉ hosts) :
    (∀ (f : Frame) (hosts : List Char), f.Spells hosts input → ':' ∉ f.scheme →
        Url.Placed (String.ofList ((Url.cleanFront f.scheme).map Char.toLower)) url) ∧
      ((∀ (f : Frame) (hosts : List Char), f.Spells hosts input → ':' ∈ f.scheme → ',' ∉ hosts) →
        Kept input url) ∧
      ∀ (f : Frame) (hosts : List Char), f.Spells hosts input → ',' ∈ hosts →
        (∃ entries, Lists hosts entries) ∧ ∀ entries, Lists hosts entries →
          (Kept input url ↔ entries.length ≤ 1 ∧ (url.host = none → entries = []) ∧
            Url.parse (f.url (entries.head?.getD [])) = .ok url) := by
  refine ⟨fun f hosts hf first => hf.placed first accepted, fun later => ?_,
    fun f hosts hf comma => ⟨exists_lists hosts, fun entries lists =>
      kept_iff_of_list hf comma lists⟩⟩
  refine kept_of_unlisted accepted fun f hosts hf => ?_
  by_cases hcolon : ':' ∈ f.scheme
  · exact later f hosts hf hcolon
  · exact unlisted f hosts hf hcolon

theorem parse_unlisted_user :
    ∃ url, Url.parse "nats://u,v@h:4222/x?next=http://a,b/c" = .ok url ∧
      Kept "nats://u,v@h:4222/x?next=http://a,b/c" url ∧ hostOf url = ["h:4222"] := by
  have hfound : found? "nats://u,v@h:4222/x?next=http://a,b/c".toList =
      some ("nats".toList, "h:4222".toList) := by decide +kernel
  have haccepted : Url.parse "nats://u,v@h:4222/x?next=http://a,b/c" =
      .ok ⟨"nats", some ⟨"u,v@", some "h", some 4222⟩, "/x", some "next=http://a,b/c", none⟩ :=
    eq_ok_of_toOption (by decide +kernel)
  have hlist : ∀ (f : Frame) (hosts : List Char),
      f.Spells hosts "nats://u,v@h:4222/x?next=http://a,b/c" →
        f.scheme = "nats".toList ∧ hosts = "h:4222".toList := by
    intro f hosts hf
    rw [found?_of_spells hf] at hfound
    simpa using hfound
  obtain ⟨-, hkept, -⟩ := parse_unlisted haccepted fun f hosts hf _ => by
    rw [(hlist f hosts hf).2]
    decide
  refine ⟨_, haccepted, hkept fun f hosts hf hcolon => ?_, by decide⟩
  rw [(hlist f hosts hf).1] at hcolon
  exact absurd hcolon (by decide)

/-- A URL without an authority whose query holds another URL with a list: the list is taken for the
hosts, and all of it but its first entry is cut out of the query. -/
theorem nested_list_taken :
    ∃ url e, Url.parse "mem:/x?next=http://a,b/c" = .ok url ∧ url.authority = none ∧
      (∀ (f : Frame) (hosts : List Char), f.Spells hosts "mem:/x?next=http://a,b/c" →
        ':' ∈ f.scheme) ∧
      parse "mem:/x?next=http://a,b/c" = .ok e ∧ e.hosts = ["a", "b"] ∧
      url.query = some "next=http://a,b/c" ∧ e.url.query = some "next=http://a/c" ∧
      ¬ Kept "mem:/x?next=http://a,b/c" url := by
  have hfound : found? "mem:/x?next=http://a,b/c".toList =
      some ("mem:/x?next=http".toList, "a,b".toList) := by decide +kernel
  have hurl : Url.parse "mem:/x?next=http://a,b/c" =
      .ok ⟨"mem", none, "/x", some "next=http://a,b/c", none⟩ :=
    eq_ok_of_toOption (by decide +kernel)
  have hparsed : parse "mem:/x?next=http://a,b/c" =
      .ok ⟨⟨"mem", none, "/x", some "next=http://a/c", none⟩, ["a", "b"]⟩ :=
    eq_ok_of_toOption (by decide +kernel)
  refine ⟨_, _, hurl, rfl, fun f hosts hf => ?_, hparsed, rfl, rfl, rfl, ?_⟩
  · rw [found?_of_spells hf] at hfound
    have hscheme : f.scheme = "mem:/x?next=http".toList :=
      congrArg Prod.fst (Option.some.inj hfound)
    rw [hscheme]
    decide
  · rintro ⟨e, he, -, hlength, -⟩
    rw [hparsed] at he
    obtain rfl := Except.ok.inj he
    exact absurd hlength (by decide)

end PubSub.Endpoint
