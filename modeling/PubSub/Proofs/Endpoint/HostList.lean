import Mathlib.Data.Bool.AllAny
import Mathlib.Data.List.Forall2
import PubSub.Endpoint
import PubSub.Proofs.Error
import PubSub.Proofs.Text.Spans

/-!
# Lists of hosts

A connection URL is its hosts and what stands around them (`Frame`): a scheme, which holds no `://`,
perhaps credentials, and a tail. The text search for the hosts finds just these parts again
(`Frame.parse_single`, `Frame.parse_several`), so that a URL with a list is read as the URL that has
the first entry in its place, and the list is kept as it is written (`parse_hostList`).
-/

namespace PubSub.Endpoint

/-! ## Entries -/

/-- What a list of hosts names: the pieces between its commas, less surrounding blanks and the
pieces of which nothing is left. -/
def Lists (list : List Char) (entries : List (List Char)) : Prop :=
  ∃ pieces trimmed : List (List Char),
    list = [','].intercalate pieces ∧ pieces ≠ [] ∧ (∀ p ∈ pieces, ',' ∉ p) ∧
      List.Forall₂ Trimmed pieces trimmed ∧ entries = trimmed.filter (· ≠ [])

theorem exists_pieces (list : List Char) :
    ∃ pieces : List (List Char),
      list = [','].intercalate pieces ∧ pieces ≠ [] ∧ ∀ p ∈ pieces, ',' ∉ p := by
  induction list with
  | nil => exact ⟨[[]], by simp, by simp, by simp⟩
  | cons c list ih =>
    obtain ⟨pieces, rfl, hne, hparted⟩ := ih
    obtain ⟨first, others, rfl⟩ := List.exists_cons_of_ne_nil hne
    by_cases hc : c = ','
    · refine ⟨[] :: first :: others, ?_, by simp, ?_⟩
      · rw [List.intercalate_cons_cons, hc]
        rfl
      · simpa using hparted
    · refine ⟨(c :: first) :: others, ?_, by simp, ?_⟩
      · cases others with
        | nil => simp
        | cons second others => simp [List.intercalate_cons_cons]
      · rw [List.forall_mem_cons] at hparted ⊢
        exact ⟨by simp [hparted.1, Ne.symm hc], hparted.2⟩

theorem exists_lists (list : List Char) : ∃ entries, Lists list entries := by
  obtain ⟨pieces, hlist, hne, hparted⟩ := exists_pieces list
  refine ⟨_, pieces, pieces.map trimBlanks, hlist, hne, hparted, ?_, rfl⟩
  rw [List.forall₂_map_right_iff, List.forall₂_same]
  exact fun p _ => trimmed_trimBlanks p

theorem Lists.hostEntries_eq {list : List Char} {entries : List (List Char)}
    (h : Lists list entries) : hostEntries list = entries := by
  obtain ⟨pieces, trimmed, rfl, hne, hparted, htrimmed, rfl⟩ := h
  have hmap : pieces.map trimBlanks = trimmed := by
    have hall : List.Forall₂ (· = ·) (pieces.map trimBlanks) trimmed :=
      List.forall₂_map_left_iff.2 (htrimmed.imp fun p e h => h.trimBlanks_eq)
    rwa [List.forall₂_eq_eq_eq] at hall
  rw [hostEntries, List.splitOn_intercalate ',' hparted hne, hmap]

/-- An entry is made of characters of its list, and of no comma. -/
theorem Lists.entry {list : List Char} {entries : List (List Char)} (h : Lists list entries)
    {e : List Char} (he : e ∈ entries) : (∀ c ∈ e, c ∈ list) ∧ ',' ∉ e := by
  obtain ⟨pieces, trimmed, rfl, -, hparted, htrimmed, rfl⟩ := h
  obtain ⟨p, hp, htrim⟩ : ∃ p ∈ pieces, Trimmed p e := by
    have hmem := (List.mem_filter.1 he).1
    clear he hparted
    induction htrimmed with
    | nil => simp at hmem
    | cons htrim _ ih =>
      rcases List.mem_cons.1 hmem with rfl | htail
      · exact ⟨_, List.mem_cons_self, htrim⟩
      · obtain ⟨p, hp, h⟩ := ih htail
        exact ⟨p, List.mem_cons_of_mem _ hp, h⟩
  have hin : ∀ c ∈ e, c ∈ p := by
    obtain ⟨before, after, rfl, -⟩ := htrim.padded
    exact fun c hc => List.mem_append_left _ (List.mem_append_right _ hc)
  exact ⟨fun c hc => mem_intercalate_of_mem hp (hin c hc), fun hc => hparted p hp (hin _ hc)⟩

/-! ## Around the hosts -/

/-- What stands around the hosts of a connection URL. -/
structure Frame where
  scheme : List Char
  user : Option (List Char)
  tail : List Char
  scheme_fits : ¬ [':', '/', '/'] <:+: scheme
  user_fits : ∀ u ∈ user, ∀ c ∈ u, c ∉ ['/', '?', '#']
  tail_fits : ∀ c ∈ tail.head?, c ∈ ['/', '?', '#']

theorem http_fits : ¬ [':', '/', '/'] <:+: "http".toList := by
  decide

theorem nobody_fits : ∀ u ∈ (none : Option (List Char)), ∀ c ∈ u, c ∉ ['/', '?', '#'] := by
  rintro _ ⟨⟩

theorem nothing_fits : ∀ c ∈ ([] : List Char).head?, c ∈ ['/', '?', '#'] := by
  rintro _ ⟨⟩

theorem slash_fits (path : List Char) : ∀ c ∈ ('/' :: path).head?, c ∈ ['/', '?', '#'] := by
  rintro _ ⟨⟩
  decide

/-- What may stand as the hosts in a frame. -/
def HostText (hosts : List Char) : Prop := ∀ c ∈ hosts, c ∉ ['@', '/', '?', '#']

instance (hosts : List Char) : Decidable (HostText hosts) :=
  List.decidableBAll (fun c => c ∉ ['@', '/', '?', '#']) hosts

theorem endsHosts_eq_true_iff {c : Char} : endsHosts c = true ↔ c ∈ ['/', '?', '#'] := by
  simp [endsHosts, or_assoc]

theorem endsHosts_eq_false_iff {c : Char} : endsHosts c = false ↔ c ∉ ['/', '?', '#'] := by
  rw [← endsHosts_eq_true_iff, Bool.not_eq_true]

namespace Frame

variable (f : Frame) {hosts : List Char}

/-- The credentials with the sign behind them. -/
def credentials : List Char :=
  match f.user with
  | none => []
  | some u => u ++ ['@']

/-- The URL with the given hosts. -/
def url (hosts : List Char) : String :=
  String.ofList (f.scheme ++ "://".toList ++ f.credentials ++ hosts ++ f.tail)

theorem credentials_fit : ∀ c ∈ f.credentials, endsHosts c = false := by
  intro c hc
  unfold credentials at hc
  split at hc
  · simp at hc
  · next u hu =>
    rcases List.mem_append.1 hc with hin | hat
    · exact endsHosts_eq_false_iff.2 (f.user_fits u hu c hin)
    · rw [List.mem_singleton.1 hat]
      rfl

theorem credentials_last : ∀ c ∈ f.credentials.getLast?, c = '@' := by
  intro c hc
  unfold credentials at hc
  split at hc
  · simp at hc
  · simpa using hc.symm

end Frame

/-! ## Finding the parts -/

/-- The first `://` is the one behind a text that holds none. -/
theorem splitScheme?_append {a : List Char} (h : ¬ [':', '/', '/'] <:+: a) (b : List Char) :
    splitScheme? (a ++ ':' :: '/' :: '/' :: b) = some (a, b) := by
  induction a with
  | nil => rfl
  | cons c a ih =>
    have hrest : splitScheme? (a ++ ':' :: '/' :: '/' :: b) = some (a, b) :=
      ih fun hin => h (List.infix_cons_iff.2 (.inr hin))
    have hhead : ∀ r, c = ':' → a ++ ':' :: '/' :: '/' :: b = '/' :: '/' :: r → False := by
      rintro r rfl heq
      obtain _ | ⟨x, _ | ⟨y, a⟩⟩ := a
      · simp at heq
      · simp at heq
      · simp only [List.cons_append, List.cons.injEq] at heq
        obtain ⟨rfl, rfl, -⟩ := heq
        exact h (List.infix_cons_iff.2 (.inl ⟨a, rfl⟩))
    rw [List.cons_append, splitScheme?, hrest]
    · rfl
    · exact hhead

namespace Frame

variable (f : Frame) {hosts : List Char}

theorem toList_url : (f.url hosts).toList =
    f.scheme ++ ':' :: '/' :: '/' :: (f.credentials ++ hosts ++ f.tail) := by
  rw [url, String.toList_ofList]
  simp

theorem takeWhile_authority (fits : HostText hosts) :
    (f.credentials ++ hosts ++ f.tail).takeWhile (!endsHosts ·) = f.credentials ++ hosts := by
  refine takeWhile_span (fun c hc => ?_) fun c hc => ?_
  · rw [Bool.not_eq_true']
    rcases List.mem_append.1 hc with hin | hin
    · exact f.credentials_fit c hin
    · exact endsHosts_eq_false_iff.2 fun hmem => fits c hin (List.mem_cons_of_mem _ hmem)
  · rw [Bool.not_eq_false']
    exact endsHosts_eq_true_iff.2 (f.tail_fits c hc)

/-- The hosts stand behind the last `@`. -/
theorem takeWhile_hosts (fits : HostText hosts) :
    ((f.credentials ++ hosts).reverse.takeWhile (· ≠ '@')).reverse = hosts := by
  rw [List.reverse_append, takeWhile_span, List.reverse_reverse]
  · intro c hc
    have hat : c ≠ '@' := fun h => fits c (List.mem_reverse.1 hc) (by simp [h])
    simpa using hat
  · intro c hc
    rw [List.head?_reverse] at hc
    simpa using f.credentials_last c hc

theorem parse_url (fits : HostText hosts) :
    parse (f.url hosts) =
      if hosts.contains ',' then
        (parseUrl (f.url ((hostEntries hosts).head?.getD []))).map fun url =>
          ⟨url, (hostEntries hosts).map String.ofList⟩
      else (parseUrl (f.url hosts)).map fun url => ⟨url, hostOf url⟩ := by
  have htail : (f.credentials ++ hosts ++ f.tail).drop (f.credentials ++ hosts).length = f.tail :=
    List.drop_left
  have huser : (f.credentials ++ hosts).take ((f.credentials ++ hosts).length - hosts.length) =
      f.credentials := by
    rw [List.length_append, Nat.add_sub_cancel, List.take_left]
  rw [parse, toList_url, splitScheme?_append f.scheme_fits]
  simp only [f.takeWhile_authority fits, f.takeWhile_hosts fits, htail, huser]
  rfl

theorem parse_single (fits : HostText hosts) (single : ',' ∉ hosts) :
    parse (f.url hosts) = (parseUrl (f.url hosts)).map fun url => ⟨url, hostOf url⟩ := by
  rw [f.parse_url fits, if_neg (by simpa using single)]

/-- Only the first entry of a list is read, if there is one. -/
theorem parse_list (fits : HostText hosts) (comma : ',' ∈ hosts) {entries : List (List Char)}
    (lists : Lists hosts entries) :
    parse (f.url hosts) =
      (parseUrl (f.url (entries.head?.getD []))).map fun url =>
        ⟨url, entries.map String.ofList⟩ := by
  rw [f.parse_url fits, if_pos (by simpa using comma), lists.hostEntries_eq]

theorem parse_several (fits : HostText hosts) (comma : ',' ∈ hosts) {first : List Char}
    {others : List (List Char)} (lists : Lists hosts (first :: others)) :
    parse (f.url hosts) =
      (parseUrl (f.url first)).map fun url => ⟨url, (first :: others).map String.ofList⟩ :=
  f.parse_list fits comma lists

end Frame

theorem length_hostOf (url : Url) : (hostOf url).length ≤ 1 := by
  unfold hostOf
  split <;> simp

theorem parseUrl_eq_ok {input : String} {url : Url} :
    parseUrl input = .ok url ↔ Url.parse input = .ok url := by
  rw [parseUrl]
  cases Url.parse input with
  | error flaw =>
    constructor <;> intro h <;> cases h
  | ok u =>
    constructor
    · intro h
      exact congrArg Except.ok (Except.ok.inj h)
    · intro h
      rw [Except.ok.inj h]
      rfl

/-! ## One host in place of a list -/

/-- Two endpoints that differ at most in their hosts. -/
structure Alike (a b : Endpoint) : Prop where
  scheme : a.scheme = b.scheme
  host : a.host = b.host
  path : a.path = b.path
  localPath : a.localPath = b.localPath
  query : ∀ key, a.query key = b.query key
  queryFlag : ∀ key, a.queryFlag key = b.queryFlag key
  queryParse : ∀ {α : Type} (key : String) (read : String → Except String α),
    a.queryParse key read = b.queryParse key read
  clientId? : a.clientId? = b.clientId?
  text : a.text = b.text

theorem alike_of_url {a b : Endpoint} (h : a.url = b.url) : Alike a b := by
  cases a
  cases b
  cases h
  exact ⟨rfl, rfl, rfl, rfl, fun _ => rfl, fun _ => rfl, fun _ _ => rfl, rfl, rfl⟩

/-- A URL with a list of hosts is accepted if it is with the first entry alone, and refused for the
same flaw. All entries are kept in order, and nothing else tells the two endpoints apart. -/
theorem parse_hostList (f : Frame) {list first : List Char} {others : List (List Char)}
    (fits : HostText list) (comma : ',' ∈ list) (lists : Lists list (first :: others)) :
    (∀ e, parse (f.url list) = .error e ↔ parse (f.url first) = .error e) ∧
      ∀ one, parse (f.url first) = .ok one →
        ∃ many, parse (f.url list) = .ok many ∧
          many.hosts = (first :: others).map String.ofList ∧ many.Alike one := by
  obtain ⟨hin, hcomma⟩ := lists.entry List.mem_cons_self
  have hfirst : HostText first := fun c hc => fits c (hin c hc)
  rw [f.parse_several fits comma lists, f.parse_single hfirst hcomma]
  cases parseUrl (f.url first) with
  | error flaw => exact ⟨fun e => Iff.rfl, fun one h => by cases h⟩
  | ok url =>
    refine ⟨fun e => ⟨fun h => (by cases h), fun h => (by cases h)⟩, fun one hone => ?_⟩
    obtain rfl := Except.ok.inj hone
    exact ⟨_, rfl, rfl, alike_of_url rfl⟩

/-- A user's name may hold an `@`. -/
theorem twoAts_fit : ∀ u ∈ some "u@v".toList, ∀ c ∈ u, c ∉ ['/', '?', '#'] := by
  rintro _ ⟨⟩
  exact List.all_iff_forall_prop.1 (by decide)

/-- A user with an `@` and a path that holds another URL with a list. -/
def brokers : Frame where
  scheme := "kafka".toList
  user := some "u@v".toList
  tail := "/x,y?next=http://c,d/&client_id=e".toList
  scheme_fits := by decide
  user_fits := twoAts_fit
  tail_fits := slash_fits _

theorem parse_hostList_padded :
    Lists " A:1 ,,[::1],A:1".toList ["A:1".toList, "[::1]".toList, "A:1".toList] ∧
      ∃ many one,
        parse "kafka://u@v@ A:1 ,,[::1],A:1/x,y?next=http://c,d/&client_id=e" = .ok many ∧
          parse "kafka://u@v@A:1/x,y?next=http://c,d/&client_id=e" = .ok one ∧
          many.hosts = ["A:1", "[::1]", "A:1"] ∧ many.Alike one ∧ one.clientId? = some "e" := by
  have hblank : Trimmed " A:1 ".toList "A:1".toList :=
    ⟨⟨[' '], [' '], by decide, List.all_iff_forall_prop.1 (by decide)⟩, by simp [isBlank],
      by simp [isBlank]⟩
  have hsecond : ∀ c ∈ "[::1]".toList, isBlank c = false := List.all_iff_forall_prop.1 (by decide)
  have hthird : ∀ c ∈ "A:1".toList, isBlank c = false := List.all_iff_forall_prop.1 (by decide)
  have hlists : Lists " A:1 ,,[::1],A:1".toList ["A:1".toList, "[::1]".toList, "A:1".toList] := by
    refine ⟨[" A:1 ".toList, [], "[::1]".toList, "A:1".toList],
      ["A:1".toList, [], "[::1]".toList, "A:1".toList], by decide, by decide, by decide, ?_,
      by decide⟩
    exact .cons hblank (.cons (trimmed_self (by simp)) (.cons (trimmed_self hsecond)
      (.cons (trimmed_self hthird) .nil)))
  have hlist : brokers.url " A:1 ,,[::1],A:1".toList =
      "kafka://u@v@ A:1 ,,[::1],A:1/x,y?next=http://c,d/&client_id=e" := by decide +kernel
  have hfirst : brokers.url "A:1".toList =
      "kafka://u@v@A:1/x,y?next=http://c,d/&client_id=e" := by decide +kernel
  have hone : parse (brokers.url "A:1".toList) =
      .ok ⟨⟨"kafka", some ⟨"u%40v@", some "A", some 1⟩, "/x,y",
        some "next=http://c,d/&client_id=e", none⟩, ["A:1"]⟩ :=
    eq_ok_of_toOption (by decide +kernel)
  obtain ⟨-, hok⟩ := parse_hostList brokers (by decide) (by decide) hlists
  obtain ⟨many, hmany, hhosts, halike⟩ := hok _ hone
  rw [hlist] at hmany
  rw [hfirst] at hone
  exact ⟨hlists, many, _, hmany, hone, hhosts, halike, by decide +kernel⟩

end PubSub.Endpoint
