import PubSub.Proofs.CommandLine.Publishing
import PubSub.Proofs.Record.RoundTrip
import PubSub.Proofs.Subscription.Agreement
import PubSub.Proofs.Subscription.Settled

/-!
# Tailing from the command line

A tailing command prints what was published on its topic, a line for each message and no more lines
than its limit allows (`Kept.tail`). Its handler counts: it is done with the call that reaches the
limit, not with the one behind it.
-/

namespace PubSub.CommandLine

variable {f : Files} {root : Bytes} {J : Journal} {topic url : String} {e : Endpoint}
  {limit : Option Nat} {o : SubscribeOptions}

/-- As many messages as a limit allows. -/
def within (limit : Option Nat) (ms : List Message) : List Message :=
  match limit with
  | none => ms
  | some n => ms.take n

theorem prefix_within (limit : Option Nat) (ms : List Message) : within limit ms <+: ms := by
  cases limit with
  | none => exact List.prefix_rfl
  | some n => exact List.take_prefix n ms

/-! ## The counting handler -/

/-- With `n` as the limit and less than `n` messages handled, the rest is handled up to the limit. -/
theorem replayed_counting {n : Nat} (earlier : List Message) (hn : earlier.length < n)
    (ms : List Message) :
    replayed o (upTo (some n)) earlier (ms.map .ok) =
      ⟨(ms.take (n - earlier.length)).reverse ++ earlier, .ok (), [], []⟩ := by
  induction ms generalizing earlier with
  | nil => simp [replayed]
  | cons m ms ih =>
    rw [List.map_cons, replayed]
    by_cases hlast : n ≤ earlier.length + 1
    · have hone : n - earlier.length = 1 := by omega
      simp [upTo, hlast, hone]
    · have hmore : n - earlier.length = n - (m :: earlier).length + 1 := by
        rw [List.length_cons]
        omega
      have hrest := ih (m :: earlier) (by rw [List.length_cons]; omega)
      rw [hmore, List.take_succ_cons, List.reverse_cons, List.append_assoc, List.singleton_append]
      simp [upTo, hlast, hrest]

theorem replayed_upTo (hlimit : ∀ n ∈ limit, 0 < n) (ms : List Message) :
    replayed o (upTo limit) [] (ms.map .ok) = ⟨(within limit ms).reverse, .ok (), [], []⟩ := by
  cases limit with
  | none =>
    have hall := replayed_continue (h := upTo none) (fun _ _ => rfl) o ms none []
    simpa [replayed, within] using hall
  | some n =>
    have hcount := replayed_counting (o := o) [] (hlimit n rfl) ms
    simpa [within] using hcount

/-! ## The file of a topic -/

/-- What a topic has in the folder: no file, or the records of what was published on it. -/
theorem Kept.locate (h : Kept root f J) (ht : Plain root topic) :
    f.locate (Path.join root (Utf8.ofText topic)) = .error .notFound ∧ J topic = [] ∨
      ∃ n, f.locate (Path.join root (Utf8.ofText topic)) = .ok n ∧
        f.node? n = some (.file (FileLog.records (J topic))) := by
  obtain ⟨f', d, up, es, hmake, hholds, hsame⟩ := h
  have hthere : f' = f → f.locate (Path.join root (Utf8.ofText topic)) = .error .notFound ∧
      J topic = [] ∨ ∃ n, f.locate (Path.join root (Utf8.ofText topic)) = .ok n ∧
        f.node? n = some (.file (FileLog.records (J topic))) := by
    rintro rfl
    have hleads := hholds.leads
    have hlocate := Files.locate_join (f := f') ⟨hleads.noZero, hleads.short, hleads.walk⟩ ht.name
      ht.short hholds.entries
    rw [hlocate]
    cases hn : es.lookup (Utf8.ofText topic) with
    | none => exact .inl ⟨rfl, (hholds.absent hn).2⟩
    | some n => exact .inr ⟨n, rfl, hholds.node hn⟩
  rcases hsame with hsame | hnone
  · exact hthere hsame
  · rcases Files.makeFolders_ok hmake with hsame | hmissing
    · exact hthere hsame
    · exact .inl ⟨Files.locate_join_missing hholds.leads.noZero ht hmissing, hnone topic⟩

/-! ## Tailing commands -/

/-- The subscription of a tailing command. -/
def tailing (topic : String) (limit : Option Nat) : Subscribing :=
  ⟨topic, ⟨some .oldest, none, false⟩, upTo limit, false⟩

/-- The world of a tailing command. -/
def tailWorld (f : Files) (root : Bytes) : World :=
  (World.start f).addSubscriber "source" (.files root)

/-- A tailing command prints what its subscription handles, and succeeds if that does. -/
theorem tail_settled {ms : List Message} {s : Subscription Loop} (hurl : Endpoint.parse url = .ok e)
    (hscheme : e.scheme = "file") (hs : (tailing topic limit).toFiles f e.localPath = .ok s)
    (hb : AllCameTo ⟨ms.reverse, .ok (), [], []⟩ (tailWorld f e.localPath).told
      (Bus.alone (tailWorld f e.localPath) s).settled) :
    (tail f url topic limit .oldest).code = 0 ∧
      (tail f url topic limit .oldest).stdout = ms.flatMap Record.line := by
  have hopen : Backends.builtin.openSubscriber false url = (.ok (.files e.localPath), none) := by
    rw [Backends.openSubscriber, resolve_files hurl hscheme rfl]
    rfl
  have hsubscribed : Subscribing.toSubscriber ⟨topic, ⟨some .oldest, none, false⟩, upTo limit, false⟩
      ((World.start f).addSubscriber "source" (.files e.localPath)) 0 = .ok s := hs
  obtain ⟨hhandled, houtcome, -⟩ := hb.silent (o := (tailing topic limit).options)
  rw [tailWorld] at hhandled houtcome
  rw [tail, hopen]
  simp only [hsubscribed, hhandled, houtcome]
  exact ⟨trivial, trivial⟩

/-- A tailing command prints what was published on its topic, up to its limit. -/
theorem Kept.tail (h : Kept e.localPath f J) (hurl : Endpoint.parse url = .ok e)
    (hscheme : e.scheme = "file") (ht : Plain e.localPath topic) (hlimit : ∀ n ∈ limit, 0 < n) :
    (tail f url topic limit .oldest).code = 0 ∧
      (tail f url topic limit .oldest).stdout = (within limit (J topic)).flatMap Record.line := by
  have hstart : (tailing topic limit).options.start ≠ some .newest := nofun
  rcases h.locate ht with ⟨hmissing, hnone⟩ | ⟨n, hn, hnode⟩
  · have hnothing : within limit (J topic) = [] := by
      rw [hnone]
      cases limit with
      | none => rfl
      | some n => exact List.take_nil
    rw [hnothing]
    exact tail_settled hurl hscheme (toFiles_missing hstart hmissing) (missing_settles rfl)
  · have hstream : Record.stream .start (FileLog.records (J topic)) = (J topic).map .ok := by
      rw [records_eq]
      have hholds := (Record.holds_logText ((J topic).map Record.Written.sorted)).stream
      rwa [List.map_map, List.map_map] at hholds
    have hsettles := replay_settles (r := tailing topic limit) (w := tailWorld f e.localPath) rfl
      (fun _ _ _ hw => hw) rfl hnode
    rw [hstream] at hsettles
    have hverdict := replayed_upTo (o := (tailing topic limit).options) hlimit (J topic)
    exact tail_settled hurl hscheme (toFiles_found hstart hn) (hverdict ▸ hsettles)

end PubSub.CommandLine
