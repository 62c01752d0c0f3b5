import PubSub.Proofs.CommandLine.Arguments
import PubSub.Proofs.CommandLine.Tail

/-!
# From publishing to tailing

What a tailing command line prints is what publishing command lines have published before it
(`tail_prints_published`), from the arguments of all these command lines to the lines that are
printed.
-/

namespace PubSub.CommandLine

/-- The last of the settings of a key sets it to a value. -/
def LastSets (settings : List String) (key value : String) : Prop :=
  ∃ before s after, settings = before ++ s :: after ∧ Splits s key value ∧
    ∀ s' ∈ after, ∀ value', ¬ Splits s' key value'

/-- What the items of a publishing command line ask for: a message for each datum in order, all with
one identifier and the labels that are set last. -/
def Asks (items : List Item) (ms : List Message) : Prop :=
  ∃ id attributes, given .id items = id.toList ∧
    (∀ key value, attributes.get? key = some value ↔
      LastSets (given .attribute items) key value) ∧
    ms = (texts items).map fun text => ⟨id, Utf8.ofText text, attributes⟩

/-- The messages that publishing command lines publish on a topic, one line after the other. -/
inductive Published (topic : String) : List (List String) → List Message → Prop
  | nothing : Published topic [] []
  | here {args : List String} {calls : List (List String)} {items : List Item}
      {ms later : List Message} :
      Line args .publish items → given .topic items = [topic] → Asks items ms →
        Published topic calls later → Published topic (args :: calls) (ms ++ later)
  | elsewhere {args : List String} {calls : List (List String)} {items : List Item}
      {other : String} {later : List Message} :
      Line args .publish items → given .topic items = [other] → other ≠ topic →
        Published topic calls later → Published topic (args :: calls) later

/-- Command lines succeed, one after the other. -/
inductive Succeed : Files → List (List String) → Files → Prop
  | nothing {files : Files} : Succeed files [] files
  | call {files after : Files} {args : List String} {calls : List (List String)} :
      (run files args).code = 0 → Succeed (run files args).files calls after →
        Succeed files (args :: calls) after

/-- A command line is accepted that publishes on a plain topic of the folder of a URL. -/
def Publishes (url : String) (root : Bytes) (args : List String) : Prop :=
  ∃ topic id attributes data, read args = .ok (.publish url topic id attributes data) ∧
    Plain root topic

theorem Asks.unique {items : List Item} {ms ms' : List Message} (h : Asks items ms)
    (h' : Asks items ms') : ms = ms' := by
  obtain ⟨id, attributes, hid, hattributes, rfl⟩ := h
  obtain ⟨id', attributes', hid', hattributes', rfl⟩ := h'
  have hsame : id = id' := by simpa using congrArg List.head? (hid.symm.trans hid')
  have hlabels : attributes = attributes' := by
    refine NameMap.ext_get? fun key => Option.ext fun value => ?_
    rw [hattributes, hattributes']
  rw [hsame, hlabels]

/-- The command lines determine what is published. -/
theorem Published.unique {topic : String} {calls : List (List String)} {ms ms' : List Message}
    (h : Published topic calls ms) (h' : Published topic calls ms') : ms = ms' := by
  induction h generalizing ms' with
  | nothing =>
    cases h'
    rfl
  | here hline htopic hasks _ ih =>
    cases h' with
    | here hline' _ hasks' hlater =>
      obtain ⟨-, rfl⟩ := hline.unique hline'
      rw [hasks.unique hasks', ih hlater]
    | elsewhere hline' htopic' hother _ =>
      obtain ⟨-, rfl⟩ := hline.unique hline'
      rw [htopic] at htopic'
      exact absurd (List.cons.inj htopic').1.symm hother
  | elsewhere hline htopic hother _ ih =>
    cases h' with
    | here hline' htopic' _ _ =>
      obtain ⟨-, rfl⟩ := hline.unique hline'
      rw [htopic'] at htopic
      exact absurd (List.cons.inj htopic).1.symm hother
    | elsewhere _ _ _ hlater => exact ih hlater

/-! ## Labels -/

/-- The labels that were read from settings are those that the settings set last. -/
theorem attributes_lastSets {settings : List String} {attributes : List (String × String)}
    (h : settings.map Values.readAttribute = attributes.map .ok) (key value : String) :
    (NameMap.ofList attributes).get? key = some value ↔ LastSets settings key value := by
  rw [NameMap.get?_ofList, List.lookup_eq_some_iff]
  constructor
  · rintro ⟨later, earlier, hreverse, hlater⟩
    have hattributes : attributes = earlier.reverse ++ (key, value) :: later.reverse := by
      rw [← List.reverse_reverse attributes, hreverse]
      simp
    rw [hattributes, List.map_append, List.map_cons] at h
    obtain ⟨before, rest, rfl, -, hrest⟩ := List.map_eq_append_iff.1 h
    obtain ⟨s, after, rfl, hs, hafter⟩ := List.map_eq_cons_iff.1 hrest
    refine ⟨before, s, after, rfl, Values.splits_of_readAttribute hs, fun s' hs' value' hsplits => ?_⟩
    have hmem : Values.readAttribute s' ∈ later.reverse.map Except.ok :=
      hafter ▸ List.mem_map_of_mem hs'
    obtain ⟨p, hp, hread⟩ := List.mem_map.1 hmem
    have hkey := (hsplits.unique (Values.splits_of_readAttribute hread.symm)).1
    have hne := hlater p (List.mem_reverse.1 hp)
    simp [hkey] at hne
  · rintro ⟨before, s, after, rfl, hsplits, hlast⟩
    rw [List.map_append, List.map_cons] at h
    obtain ⟨earlier, rest, rfl, -, hrest⟩ := List.map_eq_append_iff.1 h.symm
    obtain ⟨p, later, rfl, hp, hlater⟩ := List.map_eq_cons_iff.1 hrest
    obtain ⟨rfl, rfl⟩ := hsplits.unique (Values.splits_of_readAttribute hp.symm)
    refine ⟨later.reverse, earlier.reverse, by simp, fun q hq => ?_⟩
    have hmem : Except.ok q ∈ after.map Values.readAttribute :=
      hlater ▸ List.mem_map_of_mem (List.mem_reverse.1 hq)
    obtain ⟨s', hs', hread⟩ := List.mem_map.1 hmem
    rw [bne_iff_ne]
    intro hkey
    exact hlast s' hs' q.2 (hkey ▸ Values.splits_of_readAttribute hread)

/-! ## Publishing -/

variable {files after : Files} {url topic : String} {e : Endpoint} {J : Journal}
  {args : List String} {calls : List (List String)} {limit : Option Nat}

theorem run_read {i : Invocation} (h : read args = .ok i) (files : Files) :
    run files args = i.run files := by
  rw [run, h]

/-- A publishing command line that succeeds. -/
theorem kept_call (h : Kept e.localPath files J) (hurl : Endpoint.parse url = .ok e)
    (hscheme : e.scheme = "file") (hargs : Publishes url e.localPath args)
    (hok : (run files args).code = 0) :
    ∃ other items ms, Line args .publish items ∧ given .topic items = [other] ∧ Asks items ms ∧
      Kept e.localPath (run files args).files (J.add other ms) := by
  obtain ⟨other, id, attributes, data, hread, hplain⟩ := hargs
  obtain ⟨items, hline, -, htopic, hid, hattributes, hdata⟩ := read_publish hread
  rw [run_read hread] at hok ⊢
  have hasks : Asks items (messages id attributes data) := by
    refine ⟨id, NameMap.ofList attributes, hid, attributes_lastSets hattributes, ?_⟩
    rw [hdata]
    rfl
  exact ⟨other, items, _, hline, htopic, hasks, h.publish hurl hscheme hplain hok⟩

theorem kept_calls (h : Kept e.localPath files J) (hurl : Endpoint.parse url = .ok e)
    (hscheme : e.scheme = "file") (hcalls : ∀ args ∈ calls, Publishes url e.localPath args)
    (hok : Succeed files calls after) (topic : String) :
    ∃ J' ms, Kept e.localPath after J' ∧ Published topic calls ms ∧ J' topic = J topic ++ ms := by
  induction hok generalizing J with
  | nothing => exact ⟨J, [], h, .nothing, (List.append_nil _).symm⟩
  | @call files after args calls hcode _ ih =>
    obtain ⟨hargs, hcalls⟩ := List.forall_mem_cons.1 hcalls
    obtain ⟨other, items, ms, hline, htopic, hasks, hkept⟩ := kept_call h hurl hscheme hargs hcode
    obtain ⟨J', later, hkept', hlater, hJ'⟩ := ih hkept hcalls
    by_cases hother : other = topic
    · subst hother
      rw [Journal.add_same, List.append_assoc] at hJ'
      exact ⟨J', ms ++ later, hkept', .here hline htopic hasks hlater, hJ'⟩
    · rw [Journal.add_other J (Ne.symm hother)] at hJ'
      exact ⟨J', later, hkept', .elsewhere hline htopic hother hlater, hJ'⟩

/-! ## From the command lines to the printed lines -/

/-- After publishing command lines that succeed, a tailing command line succeeds. It prints as many
lines as were published on its topic, or as its limit allows, and these are read back as what was
published, in order. -/
theorem tail_prints_published (hurl : Endpoint.parse url = .ok e) (hscheme : e.scheme = "file")
    (hempty : files.StartsEmpty e.localPath)
    (hcalls : ∀ args ∈ calls, Publishes url e.localPath args) (hok : Succeed files calls after)
    (htail : read args = .ok (.tail url topic limit .oldest)) (htopic : Plain e.localPath topic) :
    ∃ (published : List Message) (items : List Item) (lines : List Bytes),
      Published topic calls published ∧
      Line args .tail items ∧ given .topic items = [topic] ∧
      (given .limit items).map Values.readLimit = limit.toList.map .ok ∧
      (run after args).code = 0 ∧
      (run after args).stdout = lines.flatMap (· ++ [10]) ∧ (∀ line ∈ lines, 10 ∉ line) ∧
      lines.length = (match limit with
        | none => published.length
        | some n => min n published.length) ∧
      lines.map Record.decode = (published.take lines.length).map .ok := by
  obtain ⟨J, published, hkept, hpublished, hJ⟩ :=
    kept_calls (kept_start hempty) hurl hscheme hcalls hok topic
  obtain ⟨items, hline, -, hitems, hlimit, -⟩ := read_tail htail
  obtain ⟨hcode, hprinted⟩ := hkept.tail hurl hscheme htopic (limit_pos hlimit)
  have hpublished' : J topic = published := hJ
  rw [hpublished'] at hprinted
  rw [run_read htail, Invocation.run]
  refine ⟨published, items, (within limit published).map Record.encode, hpublished, hline, hitems,
    hlimit, hcode, ?stdout, ?clear, ?length, ?decoded⟩
  case stdout =>
    rw [hprinted, List.flatMap_map]
    rfl
  case clear =>
    intro line hmem hten
    obtain ⟨m, -, rfl⟩ := List.mem_map.1 hmem
    exact absurd ((Record.Written.sorted m).clear 10 hten) (by decide)
  case length =>
    rw [List.length_map]
    cases limit with
    | none => rfl
    | some n => exact List.length_take
  case decoded =>
    rw [List.length_map, ← List.prefix_iff_eq_take.1 (prefix_within limit published), List.map_map]
    exact List.map_congr_left fun m _ => Record.decode_written (.sorted m)

/-- A label is set twice, and data stand before and behind a divider. -/
def publishTwo : List String :=
  ["publish", "--url", "file:///h/r", "--topic", "t", "--attr", "k=1", "a", "--attr=k=v=w", "--", "b"]

def publishOne : List String := ["publish", "--id", "7", "--url=file:///h/r", "--topic=t", "c"]

def tailTwo : List String := ["tail", "--url", "file:///h/r", "--limit", "2", "--topic", "t"]

/-- The URL of a folder that is missing in the working folder `/h`. -/
def missingRoot : Endpoint := ⟨⟨"file", some ⟨"", none, none⟩, "/h/r", none, none⟩, []⟩

theorem tail_prints_published_two :
    Endpoint.parse "file:///h/r" = .ok missingRoot ∧
      (Files.start [47, 104]).StartsEmpty missingRoot.localPath ∧
      ∃ after, Succeed (Files.start [47, 104]) [publishTwo, publishOne] after ∧
        (run after tailTwo).stdout =
          (messages none [("k", "v=w")] ["a", "b"]).flatMap Record.line ∧
        ∃ (published : List Message) (lines : List Bytes),
          Published "t" [publishTwo, publishOne] published ∧ (run after tailTwo).code = 0 ∧
          (run after tailTwo).stdout = lines.flatMap (· ++ [10]) ∧
          lines.length = min 2 published.length ∧
          lines.map Record.decode = (published.take lines.length).map .ok := by
  have hurl : Endpoint.parse "file:///h/r" = .ok missingRoot := by
    have hparsed : (Endpoint.parse "file:///h/r").toOption = some missingRoot := by decide +kernel
    cases hparse : Endpoint.parse "file:///h/r" with
    | error flaw =>
      rw [hparse] at hparsed
      cases hparsed
    | ok found =>
      rw [hparse] at hparsed
      rw [Option.some.inj hparsed]
  have hpath : missingRoot.localPath = [47, 104, 47, 114] := by decide +kernel
  have hnames : Path.names [47, 104, 47, 114] = [[104], [114]] := by decide +kernel
  have hplace : Files.HasPlace (Files.start [47, 104]) missingRoot.localPath 4 [0] [] [114] := by
    rw [hpath]
    exact ⟨rfl, by rw [hnames]; rfl, by rw [hnames]; rfl, rfl, by decide, by decide, by decide⟩
  have hempty := Files.startsEmpty_of_free hplace rfl
  have hplain : Plain missingRoot.localPath "t" := by
    rw [hpath]
    exact ⟨⟨by decide, by decide, by decide, by decide, by decide, by decide⟩, by decide⟩
  have htwo : read publishTwo =
      .ok (.publish "file:///h/r" "t" none [("k", "1"), ("k", "v=w")] ["a", "b"]) := by
    rw [publishTwo, read_command rfl]
    rfl
  have hone : read publishOne = .ok (.publish "file:///h/r" "t" (some "7") [] ["c"]) := by
    rw [publishOne, read_command rfl]
    rfl
  have htail : read tailTwo = .ok (.tail "file:///h/r" "t" (some 2) .oldest) := by
    rw [tailTwo, read_command rfl]
    rfl
  have hcalls : ∀ args ∈ [publishTwo, publishOne],
      Publishes "file:///h/r" missingRoot.localPath args := by
    simp only [List.forall_mem_cons, List.not_mem_nil, false_implies, implies_true, and_true]
    exact ⟨⟨_, _, _, _, htwo, hplain⟩, ⟨_, _, _, _, hone, hplain⟩⟩
  have hok : Succeed (Files.start [47, 104]) [publishTwo, publishOne]
      (run (run (Files.start [47, 104]) publishTwo).files publishOne).files := by
    refine .call ?_ (.call ?_ .nothing)
    · rw [run_read htwo]
      decide +kernel
    · rw [run_read htwo, run_read hone]
      decide +kernel
  obtain ⟨published, -, lines, hpublished, -, -, -, hcode, hstdout, -, hlength, hdecoded⟩ :=
    tail_prints_published hurl rfl hempty hcalls hok htail hplain
  refine ⟨hurl, hempty, _, hok, ?_, published, lines, hpublished, hcode, hstdout, hlength, hdecoded⟩
  rw [run_read htwo, run_read hone, run_read htail]
  decide +kernel

end PubSub.CommandLine
