import PubSub.CommandLine.Arguments
import PubSub.Proofs.Error

/-!
# What an accepted command line says

The arguments of a command are options with their values and data, and read from left to right they
are items (`Words`, `Line`). A command line that is accepted has such a reading, and the values of an
invocation are the values of its items (`read_publish`, `read_tail`). It has no other reading
(`Line.unique`).
-/

namespace PubSub.CommandLine

/-- What an argument says, with the next one if that is its value. -/
inductive Item where
  | option (f : Flag) (value : String)
  | datum (text : String)
  deriving DecidableEq, Repr

/-- The values that are given for an option. -/
def given (f : Flag) : List Item → List String
  | [] => []
  | .option g value :: items => if g = f then value :: given f items else given f items
  | .datum _ :: items => given f items

/-- The data that are given. -/
def texts : List Item → List String
  | [] => []
  | .option _ _ :: items => texts items
  | .datum text :: items => text :: texts items

/-- An argument that does not look like an option. A dash by itself does not. -/
def Bare (arg : String) : Prop := ∀ c cs, arg.toList ≠ '-' :: c :: cs

/-- The arguments of a command and the items that they are. -/
inductive Words (verb : Verb) : List String → List Item → Prop
  | nothing : Words verb [] []
  | apart {f : Flag} {value : String} {args : List String} {items : List Item} :
      f ∈ verb.flags → Bare value → Words verb args items →
        Words verb (("--" ++ f.name) :: value :: args) (.option f value :: items)
  | joined {f : Flag} {value : String} {args : List String} {items : List Item} :
      f ∈ verb.flags → Words verb args items →
        Words verb (("--" ++ f.name ++ "=" ++ value) :: args) (.option f value :: items)
  | datum {text : String} {args : List String} {items : List Item} :
      verb.takesData = true → Bare text → Words verb args items →
        Words verb (text :: args) (.datum text :: items)
  | divided {args : List String} : verb.takesData = true ∨ args = [] →
      Words verb ("--" :: args) (args.map .datum)

/-- A command line, its command and the items of the command. Only the log filter may be set before
the command. -/
inductive Line : List String → Verb → List Item → Prop
  | command {name : String} {verb : Verb} {args : List String} {items : List Item} :
      Verb.ofName? name = some verb → Words verb args items → Line (name :: args) verb items
  | apart {value : String} {verb : Verb} {args : List String} {items : List Item} :
      Bare value → Line args verb items → Line ("--log" :: value :: args) verb items
  | joined {value : String} {verb : Verb} {args : List String} {items : List Item} :
      Line args verb items → Line (("--log" ++ "=" ++ value) :: args) verb items

/-! ## The first equals sign -/

/-- Splits a text at its first `=`. -/
def Splits (s key value : String) : Prop :=
  s.toList = key.toList ++ '=' :: value.toList ∧ '=' ∉ key.toList

/-- What stands before the first `=` is all, or the rest begins with it. -/
theorem drop_takeWhile (l : List Char) :
    (l.drop (l.takeWhile (· ≠ '=')).length = [] ∧ l.takeWhile (· ≠ '=') = l) ∨
      ∃ value, l.drop (l.takeWhile (· ≠ '=')).length = '=' :: value ∧
        l = l.takeWhile (· ≠ '=') ++ '=' :: value := by
  induction l with
  | nil => exact .inl ⟨rfl, rfl⟩
  | cons c l ih =>
    by_cases hc : c = '='
    · exact .inr ⟨l, by simp [hc], by simp [hc]⟩
    · have htake : (c :: l).takeWhile (· ≠ '=') = c :: l.takeWhile (· ≠ '=') := by simp [hc]
      rw [htake, List.length_cons, List.drop_succ_cons]
      rcases ih with ⟨hdrop, hall⟩ | ⟨value, hdrop, hall⟩
      · exact .inl ⟨hdrop, congrArg _ hall⟩
      · exact .inr ⟨value, hdrop, congrArg _ hall⟩

theorem not_mem_takeWhile (l : List Char) : '=' ∉ l.takeWhile (· ≠ '=') := by
  intro h
  simpa using List.all_eq_true.1 List.all_takeWhile _ h

theorem Splits.takeWhile {s key value : String} (h : Splits s key value) :
    s.toList.takeWhile (· ≠ '=') = key.toList := by
  rw [h.1, List.takeWhile_append_of_pos]
  · simp
  · intro c hc
    rw [decide_eq_true_iff]
    rintro rfl
    exact h.2 hc

/-- A text is split in one way at most. -/
theorem Splits.unique {s key key' value value' : String} (h : Splits s key value)
    (h' : Splits s key' value') : key = key' ∧ value = value' := by
  have hkey : key.toList = key'.toList := by rw [← h.takeWhile, h'.takeWhile]
  have hrest := h.1
  rw [h'.1, hkey] at hrest
  exact ⟨String.toList_inj.1 hkey,
    String.toList_inj.1 (List.cons.inj (List.append_cancel_left hrest)).2.symm⟩

theorem Values.splits_of_readAttribute {s : String} {e : String × String}
    (h : readAttribute s = .ok e) : Splits s e.1 e.2 := by
  rw [readAttribute] at h
  rcases drop_takeWhile s.toList with ⟨hdrop, -⟩ | ⟨value, hdrop, hall⟩
  · simp only [hdrop, or_true, if_true] at h
    cases h
  · simp only [hdrop, List.cons_ne_nil, or_false, List.tail_cons] at h
    split at h
    · cases h
    · cases h
      refine ⟨?_, ?_⟩
      · rw [String.toList_ofList, String.toList_ofList]
        exact hall
      · rw [String.toList_ofList]
        exact not_mem_takeWhile _

/-! ## Shapes -/

/-- What an argument of a shape looks like. -/
def Shape.Fits : Shape → String → Prop
  | .divider, arg => arg = "--"
  | .long name none, arg => arg = "--" ++ name
  | .long name (some value), arg => arg = "--" ++ name ++ "=" ++ value
  | .short _, _ => True
  | .plain, arg => Bare arg

theorem shape_fits (arg : String) : (shape arg).Fits arg := by
  rw [shape]
  split
  · next h => exact String.toList_inj.1 h
  · next rest _ h =>
    rcases drop_takeWhile rest with ⟨hdrop, hall⟩ | ⟨value, hdrop, hall⟩
    · simp only [hdrop]
      refine String.toList_inj.1 ?_
      simp only [h, hall, String.toList_append, String.toList_ofList]
      rfl
    · simp only [hdrop]
      refine String.toList_inj.1 ?_
      simp only [h, String.toList_append, String.toList_ofList, List.append_assoc]
      exact congrArg ('-' :: '-' :: ·) hall
  · trivial
  · next _ _ h => exact fun c cs hc => h c cs hc

/-! ## Taking items in -/

/-- The values that items come to, one after the other. -/
inductive Values.Takes : Values → List Item → Values → Prop
  | nothing {v : Values} : Takes v [] v
  | option {v v₁ v' : Values} {f : Flag} {value : String} {items : List Item} :
      v.accept f value = .ok v₁ → Takes v₁ items v' → Takes v (.option f value :: items) v'
  | datum {v v' : Values} {text : String} {items : List Item} :
      Takes { v with data := v.data ++ [text] } items v' → Takes v (.datum text :: items) v'

theorem Values.takes_data (v : Values) (data : List String) :
    v.Takes (data.map .datum) { v with data := v.data ++ data } := by
  induction data generalizing v with
  | nil =>
    rw [List.append_nil]
    exact .nothing
  | cons text data ih =>
    have hrest := ih { v with data := v.data ++ [text] }
    simp only [List.append_assoc, List.singleton_append] at hrest
    exact .datum hrest

theorem Values.once_eq_ok {α : Type} {f : Flag} {old : Option α} {value : String}
    {read : String → Except String α} {set : α → Values} {v : Values}
    (h : once f old value read set = .ok v) : old = .none ∧ ∃ a, read value = .ok a ∧ v = set a := by
  rw [once] at h
  cases old with
  | some a => cases h
  | none =>
    cases hread : read value with
    | error why => simp [hread] at h
    | ok a =>
      simp only [hread, Option.isSome_none, Bool.false_eq_true, if_false] at h
      cases h
      exact ⟨rfl, a, rfl, rfl⟩

/-- Values are joined by those that were read from settings. -/
def Gains {α : Type} (read : String → Except String α) (old : List α) (settings : List String)
    (new : List α) : Prop :=
  ∃ more, new = old ++ more ∧ settings.map read = more.map .ok

namespace Gains

variable {α : Type} {read : String → Except String α} {a b c : List α} {s t : List String}

theorem refl (read : String → Except String α) (a : List α) : Gains read a [] a :=
  ⟨[], (List.append_nil a).symm, rfl⟩

theorem one {value : String} {x : α} (h : read value = .ok x) : Gains read [] [value] [x] :=
  ⟨[x], rfl, congrArg (fun r => [r]) h⟩

theorem trans (h : Gains read a s b) (h' : Gains read b t c) : Gains read a (s ++ t) c := by
  obtain ⟨more, rfl, hmore⟩ := h
  obtain ⟨later, rfl, hlater⟩ := h'
  refine ⟨more ++ later, List.append_assoc _ _ _, ?_⟩
  rw [List.map_append, List.map_append, hmore, hlater]

/-- Of nothing, all was read from the settings. -/
theorem of_nil (h : Gains read [] s a) : s.map read = a.map .ok := by
  obtain ⟨more, rfl, hmore⟩ := h
  exact hmore

/-- Settings that are taken as they are. -/
theorem texts {settings texts : List String} (h : Gains .ok [] settings texts) :
    settings = texts := by
  have hmap := h.of_nil
  rwa [List.map_inj_right fun _ _ => Except.ok.inj] at hmap

end Gains

/-- What was set before, joined by what items set. -/
structure Values.Came (v : Values) (items : List Item) (v' : Values) : Prop where
  url : Gains .ok v.url.toList (given .url items) v'.url.toList
  topic : Gains .ok v.topic.toList (given .topic items) v'.topic.toList
  id : Gains .ok v.id.toList (given .id items) v'.id.toList
  attributes : Gains readAttribute v.attributes (given .attribute items) v'.attributes
  limit : Gains readLimit v.limit.toList (given .limit items) v'.limit.toList
  start : Gains readStart v.start.toList (given .startAt items) v'.start.toList
  data : v'.data = v.data ++ texts items

theorem Values.Came.refl (v : Values) : v.Came [] v :=
  ⟨.refl _ _, .refl _ _, .refl _ _, .refl _ _, .refl _ _, .refl _ _, (List.append_nil _).symm⟩

theorem Values.came_accept {v v' : Values} {f : Flag} {value : String}
    (h : v.accept f value = .ok v') : v.Came [.option f value] v' := by
  have hv := Came.refl v
  unfold accept at h
  split at h
  · obtain ⟨-, a, -, rfl⟩ := once_eq_ok h
    exact { hv with }
  · obtain ⟨hold, a, ha, rfl⟩ := once_eq_ok h
    exact { hv with url := by rw [hold]; exact .one ha }
  · obtain ⟨hold, a, ha, rfl⟩ := once_eq_ok h
    exact { hv with topic := by rw [hold]; exact .one ha }
  · obtain ⟨hold, a, ha, rfl⟩ := once_eq_ok h
    exact { hv with id := by rw [hold]; exact .one ha }
  · obtain ⟨hold, a, ha, rfl⟩ := once_eq_ok h
    exact { hv with limit := by rw [hold]; exact .one ha }
  · obtain ⟨hold, a, ha, rfl⟩ := once_eq_ok h
    exact { hv with start := by rw [hold]; exact .one ha }
  · cases he : readAttribute value with
    | error why => simp [he] at h
    | ok e =>
      simp only [he] at h
      cases h
      exact { hv with attributes := ⟨[e], rfl, congrArg (fun r => [r]) he⟩ }

theorem given_append (f : Flag) (items more : List Item) :
    given f (items ++ more) = given f items ++ given f more := by
  induction items with
  | nil => rfl
  | cons i items ih =>
    cases i with
    | option g value =>
      simp only [List.cons_append, given, ih]
      split <;> rfl
    | datum text => exact ih

theorem texts_append (items more : List Item) :
    texts (items ++ more) = texts items ++ texts more := by
  induction items with
  | nil => rfl
  | cons i items ih =>
    cases i with
    | option g value => exact ih
    | datum text => exact congrArg (text :: ·) ih

theorem Values.Came.trans {v v₁ v₂ : Values} {items more : List Item} (h : v.Came items v₁)
    (h' : v₁.Came more v₂) : v.Came (items ++ more) v₂ := by
  constructor
  case data => rw [h'.data, h.data, texts_append, List.append_assoc]
  all_goals rw [given_append]
  case url => exact h.url.trans h'.url
  case topic => exact h.topic.trans h'.topic
  case id => exact h.id.trans h'.id
  case attributes => exact h.attributes.trans h'.attributes
  case limit => exact h.limit.trans h'.limit
  case start => exact h.start.trans h'.start

theorem Values.Takes.came {v v' : Values} {items : List Item} (h : v.Takes items v') :
    v.Came items v' := by
  induction h with
  | nothing => exact .refl _
  | option h _ ih => exact (came_accept h).trans ih
  | @datum v v' text items _ ih =>
    have hfirst : v.Came [.datum text] { v with data := v.data ++ [text] } :=
      { Came.refl v with data := rfl }
    exact hfirst.trans ih

/-! ## Reading the arguments of a command -/

/-- The items of arguments behind an option that is pending. -/
def Words.After (verb : Verb) : Pending → List String → List Item → Prop
  | none, args, items => Words verb args items
  | some (f, some value), args, items =>
    ∃ rest, items = .option f value :: rest ∧ Words verb args rest
  | some (f, none), args, items =>
    ∃ value args' rest, args = value :: args' ∧ Bare value ∧ items = .option f value :: rest ∧
      Words verb args' rest

variable {verb : Verb} {v v₁ v' : Values} {p : Pending} {args : List String} {items : List Item}

theorem Words.settled (h : v.settle p = .ok v₁) (hw : Words verb args items)
    (ht : v₁.Takes items v') : ∃ items', Words.After verb p args items' ∧ v.Takes items' v' := by
  match p with
  | none =>
    cases h
    exact ⟨items, hw, ht⟩
  | some (f, none) => cases h
  | some (f, some value) =>
    rw [Values.settle] at h
    cases haccept : v.accept f value with
    | error e =>
      rw [haccept] at h
      cases h
    | ok v₂ =>
      rw [haccept] at h
      obtain rfl : v₂ = v₁ := Except.ok.inj h
      exact ⟨_, ⟨items, rfl, hw⟩, .option haccept ht⟩

/-- An option that is known, and what follows it. -/
theorem Words.met {f : Flag} {value : Option String} {q : Pending} {arg : String}
    (hf : f ∈ verb.flags) (harg : Shape.Fits (.long f.name value) arg)
    (h : v.meet p f value = .ok (v₁, q)) (ha : Words.After verb q args items)
    (ht : v₁.Takes items v') :
    ∃ items', Words.After verb p (arg :: args) items' ∧ v.Takes items' v' := by
  rw [Values.meet] at h
  obtain ⟨v₂, hsettle, h⟩ := exists_of_bind h
  cases value with
  | none =>
    cases h
    obtain ⟨value, args', rest, rfl, hbare, rfl, hw⟩ := ha
    rw [harg]
    exact Words.settled hsettle (.apart hf hbare hw) ht
  | some value =>
    cases haccept : v₂.accept f value with
    | error e =>
      simp only [haccept] at h
      cases h
    | ok v₃ =>
      simp only [haccept] at h
      cases h
      rw [harg]
      exact Words.settled hsettle (.joined hf ha) (.option haccept ht)

theorem Words.readRest {rest : List String} (h : verb.readRest v p rest = .ok v') :
    ∃ items, Words.After verb p ("--" :: rest) items ∧ v.Takes items v' := by
  cases rest with
  | nil => exact Words.settled h (.divided (.inr rfl)) .nothing
  | cons arg rest =>
    rw [Verb.readRest] at h
    cases hdata : verb.takesData with
    | false => simp [hdata] at h
    | true =>
      simp only [hdata, if_true] at h
      obtain ⟨v₁, hsettle, h⟩ := exists_of_bind h
      cases h
      exact Words.settled hsettle (.divided (.inl hdata)) (v₁.takes_data (arg :: rest))

/-- What was read from arguments is what their items come to. -/
theorem Words.read {args : List String} (h : verb.read v p args = .ok v') :
    ∃ items, Words.After verb p args items ∧ v.Takes items v' := by
  induction args generalizing v p with
  | nil => exact Words.settled h .nothing .nothing
  | cons arg rest ih =>
    unfold Verb.read at h
    have hfits := shape_fits arg
    cases hshape : shape arg with
    | divider =>
      simp only [hshape] at h hfits
      subst hfits
      exact Words.readRest h
    | long name value =>
      simp only [hshape] at h hfits
      cases hfind : verb.flags.find? (·.name = name) with
      | none => simp [hfind] at h
      | some f =>
        simp only [hfind] at h
        obtain ⟨⟨v₁, q⟩, hmeet, h⟩ := exists_of_bind h
        obtain ⟨items, ha, ht⟩ := ih h
        have hname : f.name = name := by simpa using List.find?_some hfind
        rw [← hname] at hfits
        exact Words.met (List.mem_of_find?_eq_some hfind) hfits hmeet ha ht
    | short c =>
      simp only [hshape] at h
      cases h
    | plain =>
      simp only [hshape] at h hfits
      split at h
      · next f =>
        -- the argument is the value that was awaited
        obtain ⟨items, ⟨rest', rfl, hw⟩, ht⟩ := ih h
        exact ⟨_, ⟨arg, rest, rest', rfl, hfits, rfl, hw⟩, ht⟩
      · next p _ =>
        cases hdata : verb.takesData with
        | false => simp [hdata] at h
        | true =>
          simp only [hdata, if_true] at h
          obtain ⟨v₁, hsettle, h⟩ := exists_of_bind h
          obtain ⟨items, hw, ht⟩ := ih h
          exact Words.settled hsettle (.datum hdata hfits hw) (.datum ht)

/-! ## Reading a command line -/

/-- A command line behind an option that is pending. -/
def Line.After : Pending → List String → Verb → List Item → Prop
  | some (_, none), args, verb, items =>
    ∃ value args', args = value :: args' ∧ Bare value ∧ Line args' verb items
  | _, args, verb, items => Line args verb items

theorem Line.settled (h : v.settle p = .ok v₁) (hl : Line args verb items) :
    Line.After p args verb items := by
  match p with
  | none => exact hl
  | some (f, none) => cases h
  | some (f, some value) => exact hl

theorem Line.met {value : Option String} {q : Pending} {arg : String}
    (harg : Shape.Fits (.long "log" value) arg) (h : v.meet p .log value = .ok (v₁, q))
    (ha : Line.After q args verb items) : Line.After p (arg :: args) verb items := by
  rw [Values.meet] at h
  obtain ⟨v₂, hsettle, h⟩ := exists_of_bind h
  cases value with
  | none =>
    cases h
    obtain ⟨value, args', rfl, hbare, hl⟩ := ha
    rw [harg]
    exact Line.settled hsettle (.apart hbare hl)
  | some value =>
    obtain ⟨v₃, -, h⟩ := exists_of_bind h
    cases h
    rw [harg]
    exact Line.settled hsettle (.joined ha)

/-- What a command line asks for is what the items of its command come to. -/
theorem Line.read {args : List String} {i : Invocation} (h : readFrom v p args = .ok i) :
    ∃ verb items v', Line.After p args verb items ∧ Values.none.Takes items v' ∧
      verb.finish v' = .ok i := by
  induction args generalizing v p with
  | nil =>
    rw [readFrom] at h
    obtain ⟨v₁, -, h⟩ := exists_of_bind h
    cases h
  | cons arg rest ih =>
    have hfits := shape_fits arg
    -- an option in front of the command
    have hoption : readFrom.readShape v p (shape arg) rest = .ok i →
        ∃ verb items v', Line.After p (arg :: rest) verb items ∧ Values.none.Takes items v' ∧
          verb.finish v' = .ok i := by
      intro h
      rw [readFrom.readShape.eq_def] at h
      cases hshape : shape arg with
      | divider =>
        simp only [hshape] at h
        cases rest with
        | nil =>
          rw [readFrom] at h
          obtain ⟨v₁, -, h⟩ := exists_of_bind h
          cases h
        | cons next rest => cases h
      | long name value =>
        simp only [hshape] at h hfits
        split at h
        · next hlog =>
          subst hlog
          obtain ⟨⟨v₁, q⟩, hmeet, h⟩ := exists_of_bind h
          obtain ⟨verb, items, v', ha, hrest⟩ := ih h
          exact ⟨verb, items, v', Line.met hfits hmeet ha, hrest⟩
        · cases h
      | short c =>
        simp only [hshape] at h
        cases h
      | plain =>
        simp only [hshape] at h
        cases h
    unfold readFrom at h
    split at h
    · next f =>
      split at h
      · next hshape =>
        rw [hshape] at hfits
        obtain ⟨verb, items, v', hl, hrest⟩ := ih h
        exact ⟨verb, items, v', ⟨arg, rest, rfl, hfits, hl⟩, hrest⟩
      · exact hoption h
    · split at h
      · next verb hverb =>
        obtain ⟨i', hread, h⟩ := exists_of_bind h
        obtain ⟨v₁, hsettle, h⟩ := exists_of_bind h
        cases h
        obtain ⟨v', hread, hfinish⟩ := exists_of_bind hread
        obtain ⟨items, hw, ht⟩ := Words.read hread
        exact ⟨verb, items, v', Line.settled hsettle (.command hverb hw), ht, hfinish⟩
      · split at h
        · cases h
        · split at h
          · cases h
          · exact hoption h

/-- A command line that begins with its command. -/
theorem read_command {name : String} (h : Verb.ofName? name = some verb) (args : List String) :
    CommandLine.read (name :: args) = verb.invocation args := by
  rw [CommandLine.read, readFrom]
  · simp only [h]
    cases verb.invocation args <;> rfl
  · intro f hf
    cases hf

/-! ## Invocations -/

/-- An accepted publishing command line: what it publishes, where to, and with which identifier and
labels. -/
theorem read_publish {args : List String} {url topic : String} {id : Option String}
    {attributes : List (String × String)} {data : List String}
    (h : CommandLine.read args = .ok (.publish url topic id attributes data)) :
    ∃ items, Line args .publish items ∧ given .url items = [url] ∧ given .topic items = [topic] ∧
      given .id items = id.toList ∧
      (given .attribute items).map Values.readAttribute = attributes.map .ok ∧
      texts items = data := by
  obtain ⟨verb, items, v', hl, ht, hfinish⟩ := Line.read h
  have hcame := ht.came
  rw [Verb.finish] at hfinish
  split at hfinish
  · next hurl htopic =>
    split at hfinish
    · split at hfinish
      · cases hfinish
      · cases hfinish
        refine ⟨items, hl, ?_, ?_, hcame.id.texts, hcame.attributes.of_nil, hcame.data.symm⟩
        · rw [hcame.url.texts, hurl]
          rfl
        · rw [hcame.topic.texts, htopic]
          rfl
    · cases hfinish
  · cases hfinish

/-- An accepted tailing command line: what it reads, up to how many messages, and from where on. -/
theorem read_tail {args : List String} {url topic : String} {limit : Option Nat}
    {start : StartPosition} (h : CommandLine.read args = .ok (.tail url topic limit start)) :
    ∃ items, Line args .tail items ∧ given .url items = [url] ∧ given .topic items = [topic] ∧
      (given .limit items).map Values.readLimit = limit.toList.map .ok ∧
      ∃ set : Option StartPosition,
        (given .startAt items).map Values.readStart = set.toList.map .ok ∧
        start = set.getD .oldest := by
  obtain ⟨verb, items, v', hl, ht, hfinish⟩ := Line.read h
  have hcame := ht.came
  rw [Verb.finish] at hfinish
  split at hfinish
  · next hurl htopic =>
    split at hfinish
    · split at hfinish
      · cases hfinish
      · cases hfinish
    · cases hfinish
      refine ⟨items, hl, ?_, ?_, hcame.limit.of_nil, v'.start, hcame.start.of_nil, rfl⟩
      · rw [hcame.url.texts, hurl]
        rfl
      · rw [hcame.topic.texts, htopic]
        rfl
  · cases hfinish

/-- A limit is not zero. -/
theorem Values.readLimit_pos {s : String} {n : Nat} (h : readLimit s = .ok n) : 0 < n := by
  rw [readLimit] at h
  split at h
  · cases h
  · split at h
    · cases h
    · next hn =>
      cases h
      omega

theorem limit_pos {items : List Item} {limit : Option Nat}
    (h : (given .limit items).map Values.readLimit = limit.toList.map .ok) : ∀ n ∈ limit, 0 < n := by
  rintro n rfl
  have hmem : Except.ok n ∈ (given .limit items).map Values.readLimit := by
    rw [h]
    exact List.mem_singleton_self _
  obtain ⟨s, -, hs⟩ := List.mem_map.1 hmem
  exact Values.readLimit_pos hs

/-! ## One reading at most -/

theorem Flag.name_injective {f g : Flag} (h : f.name = g.name) : f = g := by
  revert h
  cases f <;> cases g <;> decide

theorem shape_bare {arg : String} (h : Bare arg) : shape arg = .plain := by
  rw [shape]
  split
  · next harg => exact absurd harg (h '-' [])
  · next rest _ harg => exact absurd harg (h '-' rest)
  · next c rest _ _ harg => exact absurd harg (h c rest)
  · rfl

theorem shape_apart (f : Flag) : shape ("--" ++ f.name) = .long f.name none := by
  cases f <;> rfl

theorem shape_joined (f : Flag) (value : String) :
    shape ("--" ++ f.name ++ "=" ++ value) = .long f.name (some value) := by
  cases f <;> simp [shape, Flag.name, String.toList_append]

variable {verb' : Verb} {arg : String} {items' : List Item}

/-- What the first word is goes by its shape. -/
theorem Words.first (h : Words verb (arg :: args) items) :
    (∃ f value args' more, shape arg = .long f.name none ∧ args = value :: args' ∧
        items = .option f value :: more ∧ Words verb args' more) ∨
      (∃ f value more, shape arg = .long f.name (some value) ∧
        items = .option f value :: more ∧ Words verb args more) ∨
      (∃ more, shape arg = .plain ∧ items = .datum arg :: more ∧ Words verb args more) ∨
      shape arg = .divider ∧ items = args.map .datum := by
  cases h with
  | apart hf hbare hw => exact .inl ⟨_, _, _, _, shape_apart _, rfl, rfl, hw⟩
  | joined hf hw => exact .inr (.inl ⟨_, _, _, shape_joined _ _, rfl, hw⟩)
  | datum hdata hbare hw => exact .inr (.inr (.inl ⟨_, shape_bare hbare, rfl, hw⟩))
  | divided hdata => exact .inr (.inr (.inr ⟨rfl, rfl⟩))

/-- The arguments of a command have one reading at most. -/
theorem Words.unique (h : Words verb args items) (h' : Words verb args items') :
    items = items' := by
  induction h generalizing items' with
  | nothing =>
    cases h'
    rfl
  | @apart f value args items hf hbare hw ih =>
    rcases h'.first with
      ⟨g, _, _, more, hs, hargs, rfl, hw'⟩ | ⟨_, _, _, hs, -⟩ | ⟨_, hs, -⟩ | ⟨hs, -⟩
    · cases hargs
      rw [shape_apart] at hs
      obtain rfl := Flag.name_injective (Shape.long.inj hs).1
      rw [ih hw']
    · simp [shape_apart] at hs
    · simp [shape_apart] at hs
    · simp [shape_apart] at hs
  | @joined f value args items hf hw ih =>
    rcases h'.first with ⟨_, _, _, _, hs, -⟩ | ⟨g, _, more, hs, rfl, hw'⟩ | ⟨_, hs, -⟩ | ⟨hs, -⟩
    · simp [shape_joined] at hs
    · rw [shape_joined] at hs
      obtain ⟨hname, hvalue⟩ := Shape.long.inj hs
      obtain rfl := Flag.name_injective hname
      cases hvalue
      rw [ih hw']
    · simp [shape_joined] at hs
    · simp [shape_joined] at hs
  | @datum text args items hdata hbare hw ih =>
    rcases h'.first with ⟨_, _, _, _, hs, -⟩ | ⟨_, _, _, hs, -⟩ | ⟨more, -, rfl, hw'⟩ | ⟨hs, -⟩
    · simp [shape_bare hbare] at hs
    · simp [shape_bare hbare] at hs
    · rw [ih hw']
    · simp [shape_bare hbare] at hs
  | @divided args hdata =>
    have hshape : shape "--" = .divider := rfl
    rcases h'.first with ⟨_, _, _, _, hs, -⟩ | ⟨_, _, _, hs, -⟩ | ⟨_, hs, -⟩ | ⟨-, rfl⟩
    · simp [hshape] at hs
    · simp [hshape] at hs
    · simp [hshape] at hs
    · rfl

theorem shape_command {name : String} (h : Verb.ofName? name = some verb) :
    shape name = .plain := by
  rw [Verb.ofName?] at h
  split at h
  · next hname =>
    subst hname
    rfl
  · split at h
    · next hname =>
      subst hname
      rfl
    · cases h

theorem Line.first (h : Line (arg :: args) verb items) :
    (shape arg = .plain ∧ Verb.ofName? arg = some verb ∧ Words verb args items) ∨
      (∃ value args', shape arg = .long "log" none ∧ args = value :: args' ∧ Line args' verb items) ∨
      ∃ value, shape arg = .long "log" (some value) ∧ Line args verb items := by
  cases h with
  | command hverb hw => exact .inl ⟨shape_command hverb, hverb, hw⟩
  | apart hbare hl => exact .inr (.inl ⟨_, _, shape_apart .log, rfl, hl⟩)
  | joined hl => exact .inr (.inr ⟨_, shape_joined .log _, hl⟩)

/-- A command line has one reading at most. -/
theorem Line.unique (h : Line args verb items) (h' : Line args verb' items') :
    verb = verb' ∧ items = items' := by
  induction h with
  | @command name verb args items hverb hw =>
    rcases h'.first with ⟨-, hverb', hw'⟩ | ⟨_, _, hs, -⟩ | ⟨_, hs, -⟩
    · rw [hverb] at hverb'
      cases hverb'
      exact ⟨rfl, hw.unique hw'⟩
    · simp [shape_command hverb] at hs
    · simp [shape_command hverb] at hs
  | @apart value verb args items hbare hl ih =>
    have hshape : shape "--log" = .long "log" none := rfl
    rcases h'.first with ⟨hs, -⟩ | ⟨_, _, -, hargs, hl'⟩ | ⟨_, hs, -⟩
    · simp [hshape] at hs
    · cases hargs
      exact ih hl'
    · simp [hshape] at hs
  | @joined value verb args items hl ih =>
    have hshape : shape ("--log" ++ "=" ++ value) = .long "log" (some value) :=
      shape_joined .log value
    rcases h'.first with ⟨hs, -⟩ | ⟨_, _, hs, -⟩ | ⟨_, -, hl'⟩
    · rw [hshape] at hs
      cases hs
    · rw [hshape] at hs
      cases hs
    · exact ih hl'

end PubSub.CommandLine
