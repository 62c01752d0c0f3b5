import PubSub.Proofs.Record.Log
import PubSub.Proofs.Subscription.Replay
import PubSub.Proofs.Subscription.Stopping

/-!
# Subscribing to files

What a subscription to a topic of a folder comes to when its handler always goes on: all messages
of a log, those that are complete in a log that was cut (`replay_cut`), none if there is no file.
-/

namespace PubSub

/-- A handler that always goes on, and leaves alone what its replay reads from. -/
structure Handler.GoesOn (h : Handler) (K : World → Prop) : Prop where
  continues : ∀ earlier m, (h earlier m).outcome = .flow .continue
  spares : h.Spares K

variable {node : Nat} {content root : Bytes} {w : World} {r : Subscribing}

/-! ## The start -/

theorem resolveStart_oldest {o : SubscribeOptions} (h : o.start ≠ some .newest) :
    o.resolveStart .oldest [.oldest] = .ok .oldest := by
  cases hs : o.start with
  | none => simp [SubscribeOptions.resolveStart, hs]
  | some p =>
    cases p with
    | newest => exact absurd hs h
    | oldest => simp [SubscribeOptions.resolveStart, hs]

theorem toFiles_found {files : Files} (hstart : r.options.start ≠ some .newest)
    (hfile : files.locate (Path.join root (Utf8.ofText r.topic)) = .ok node) :
    r.toFiles files root = .ok (r.spawn (some (.start node)) (.replay .wait)) := by
  rw [Subscribing.toFiles, resolveStart_oldest hstart, hfile]
  rfl

theorem toFiles_missing {files : Files} (hstart : r.options.start ≠ some .newest)
    (hfile : files.locate (Path.join root (Utf8.ofText r.topic)) = .error .notFound) :
    r.toFiles files root = .ok (r.spawn none (.replay (.stop (.ok ())))) := by
  rw [Subscribing.toFiles, resolveStart_oldest hstart, hfile]
  rfl

/-! ## No file -/

/-- A subscription that has nothing to read, `n` steps before its end. -/
def Idle (o : SubscribeOptions) (told : List Event) (n : Nat) (b : Bus Loop) : Prop :=
  ∃ s, b.subscriptions = [s] ∧ s.options = o ∧ s.feed = none ∧ s.seen = [] ∧ s.reported = [] ∧
    s.dispatcher = .fresh ∧ b.world.told = told ∧ b.world.isCancelled? o.governor = false ∧
    (n = 2 ∧ s.phase = .running (.replay (.stop (.ok ()))) ∨
      n = 1 ∧ s.phase = .ended (.returned (.ok ())) ∨
      n = 0 ∧ s.phase = .over ∧ s.result = some (.ok ()))

theorem Idle.step {o : SubscribeOptions} {told : List Event} {n : Nat} {b b' : Bus Loop}
    (h : Idle o told n b) (hb : Bus.Step Loop.act b b') : ∃ m, m < n ∧ Idle o told m b' := by
  obtain ⟨s, hs, ho, hfeed, hseen, hrep, hd, htold, hlive, hn⟩ := h
  rcases Bus.step_one hs hb with ⟨c, w, s', hadv, rfl, hs'⟩ | ⟨s', hread, -, -⟩
  · rw [Subscription.advance] at hadv
    rcases hn with ⟨rfl, hp⟩ | ⟨rfl, hp⟩ | ⟨rfl, hp, -⟩
    · rw [hp] at hadv
      simp only [Loop.act, ReplayLoop.act, Action.map, Subscription.perform, Option.some.injEq,
        Prod.mk.injEq] at hadv
      obtain ⟨hw, rfl⟩ := hadv
      rw [hw] at htold hlive
      exact ⟨1, by decide, _, hs', ho, hfeed, hseen, hrep, hd, htold, hlive, .inr (.inl ⟨rfl, rfl⟩)⟩
    · rw [hp] at hadv
      simp only [ho, hlive, hd, Option.some.injEq, Prod.mk.injEq] at hadv
      obtain ⟨hw, rfl⟩ := hadv
      rw [hw] at htold hlive
      exact ⟨0, by decide, _, hs', rfl, hfeed, hseen, hrep, rfl, htold, hlive,
        .inr (.inr ⟨rfl, rfl, rfl⟩)⟩
    · rw [hp] at hadv
      simp at hadv
  · simp [Subscription.readAhead, hfeed] at hread

theorem Idle.rest {o : SubscribeOptions} {told : List Event} {n : Nat} {b : Bus Loop}
    (h : Idle o told n b) (hstuck : ∀ b', ¬ Bus.Step Loop.act b b') :
    AllCameTo ⟨[], .ok (), [], []⟩ told b := by
  obtain ⟨s, hs, ho, hfeed, hseen, hrep, hd, htold, hlive, hn⟩ := h
  have hstay : s.advance Loop.act true b.world = none := by
    by_cases hadv : s.advance Loop.act true b.world = none
    · exact hadv
    · obtain ⟨b', hb'⟩ := Bus.step_of_advance hs hadv
      exact absurd hb' (hstuck b')
  rw [Subscription.advance] at hstay
  rcases hn with ⟨-, hp⟩ | ⟨-, hp⟩ | ⟨-, -, hresult⟩
  · rw [hp] at hstay
    simp [Loop.act, ReplayLoop.act, Action.map, Subscription.perform] at hstay
  · rw [hp] at hstay
    simp at hstay
  · exact ⟨s, hs, hseen, hresult, hrep, by rw [htold, List.append_nil]⟩

/-- Without a file a subscription ends at once. -/
theorem missing_ends (hlive : w.isCancelled? r.options.governor = false) :
    Bus.Ends Loop.act (AllCameTo ⟨[], .ok (), [], []⟩ w.told)
      (Bus.alone w (r.spawn none (.replay (.stop (.ok ()))))) :=
  rests_of_bound (fun _ _ _ h hb => Idle.step h hb) (fun _ _ h hb => Idle.rest h hb)
    ⟨_, rfl, rfl, rfl, rfl, rfl, rfl, rfl, hlive, .inl ⟨rfl, rfl⟩⟩

/-! ## Handlers that always go on -/

/-- The errors that error handlers were called with and that were logged. -/
def World.transportErrors (w : World) : List Error :=
  w.events.filterMap fun
    | .transportError e => some e
    | _ => none

/-- Since `w`, the error handler of the first subscription was called with `errors`. -/
def Called (o : SubscribeOptions) (w : World) (errors : List Error) (b : Bus Loop) : Prop :=
  (∃ s, b.subscriptions.head? = some s ∧
    s.reported.reverse = if o.collects then errors else []) ∧
    b.world.transportErrors = w.transportErrors ++ if o.collects then [] else errors

theorem World.transportErrors_eq (w : World) :
    w.transportErrors = w.told.filterMap fun
      | .transportError e => some e
      | _ => none := by
  rw [transportErrors, told, List.filterMap_filter]
  congr 1
  funext e
  cases e <;> rfl

theorem Reaction.verdict?_none_iff (r : Reaction) :
    r.verdict? none = none ↔ r.outcome = .flow .continue := by
  rw [verdict?]
  cases r.outcome with
  | panic text => simp
  | flow flow => cases flow <;> simp [cancels]

/-- While no call stops it, a replay goes on to the next record. -/
theorem replayed_goes {h : Handler} {o : SubscribeOptions} {earlier ms : List Message}
    (hgoes : h.GoesThrough none earlier ms) (rest : List (Except DecodeError Message)) :
    replayed o h earlier (ms.map .ok ++ rest) = replayed o h (ms.reverse ++ earlier) rest := by
  induction ms generalizing earlier with
  | nil => rfl
  | cons m ms ih =>
    obtain ⟨hm, hmore⟩ := hgoes
    rw [List.map_cons, List.cons_append, replayed, (Reaction.verdict?_none_iff _).1 hm]
    simp only
    rw [ih hmore, List.reverse_cons, List.append_assoc, List.singleton_append]

/-- A handler that always goes on is given all messages. -/
theorem replayed_continue {h : Handler} (hc : ∀ earlier m, (h earlier m).outcome = .flow .continue)
    (o : SubscribeOptions) (ms : List Message) (err : Option DecodeError)
    (earlier : List Message) :
    replayed o h earlier (ms.map .ok ++ err.toList.map .error) =
      replayed o h (ms.reverse ++ earlier) (err.toList.map .error) :=
  replayed_goes
    (Handler.goesThrough_of fun _ _ _ => (Reaction.verdict?_none_iff _).2 (hc _ _)) _

theorem AllCameTo.handled {v : Verdict} {told : List Event} {b : Bus Loop}
    (h : AllCameTo v told b) : b.handled = v.seen.reverse := by
  obtain ⟨s, hs, hseen, -, -, -⟩ := h
  rw [Bus.handled, hs, List.head?_cons, Option.map_some, Option.getD_some, hseen]

/-- With nothing told, the error handler was not called. -/
theorem AllCameTo.silent {o : SubscribeOptions} {ms : List Message} {x : Except Error Unit}
    {b : Bus Loop} (h : AllCameTo ⟨ms.reverse, x, [], []⟩ w.told b) :
    b.handled = ms ∧ b.outcome? = some x ∧ Called o w [] b := by
  have hhandled := h.handled
  obtain ⟨s, hs, hseen, hresult, hrep, htold⟩ := h
  simp only at hseen hresult hrep htold
  refine ⟨?_, ?_, ⟨s, ?_, ?_⟩, ?_⟩
  · exact hhandled.trans (List.reverse_reverse ms)
  · simp [Bus.outcome?, hs, Subscription.outcome?, hresult]
  · rw [hs, List.head?_cons]
  · simp [hrep]
  · rw [World.transportErrors_eq, htold, World.transportErrors_eq]
    simp

/-- A record that was cut short is told once. -/
theorem AllCameTo.cutShort {o : SubscribeOptions} {ms : List Message} {e : DecodeError}
    {b : Bus Loop} (h : AllCameTo (.cutShort o ms.reverse e) w.told b) :
    b.handled = ms ∧ b.outcome? = some (.ok ()) ∧ Called o w [.codec e] b := by
  have hhandled := h.handled
  obtain ⟨s, hs, hseen, hresult, hrep, htold⟩ := h
  simp only [Verdict.cutShort] at hseen hresult hrep htold
  refine ⟨?_, ?_, ⟨s, ?_, ?_⟩, ?_⟩
  · exact hhandled.trans (List.reverse_reverse ms)
  · simp [Bus.outcome?, hs, Subscription.outcome?, hresult]
  · rw [hs, List.head?_cons]
  · rw [hrep, SubscribeOptions.report]
    split <;> rfl
  · rw [World.transportErrors_eq, htold, World.transportErrors_eq, List.filterMap_append,
      SubscribeOptions.report]
    split <;> rfl

/-! ## Logs -/

open Record (Written logText spans complete EndsInside)

theorem records_eq (ms : List Message) :
    FileLog.records ms = logText (ms.map Written.sorted) := by
  rw [logText, List.flatMap_map]
  rfl

/-- What a cut log with messages behind the cut comes to. -/
theorem replayed_over {h : Handler}
    (hc : ∀ earlier m, (h earlier m).outcome = .flow .continue) (o : SubscribeOptions)
    {xs : List Written} {P : Bytes} (hP : P <+: logText xs) (ms : List Message) :
    (EndsInside P.length (spans 0 xs) ∧ ∃ e : DecodeError, (ms = [] → e.isEnd = true) ∧
        replayed o h [] (Record.stream .start (P ++ FileLog.records ms)) =
          if e.isEnd then .cutShort o (complete P.length (spans 0 xs)).reverse e
          else ⟨(complete P.length (spans 0 xs)).reverse, .error (.codec e), [], []⟩) ∨
      (¬ EndsInside P.length (spans 0 xs) ∧
        replayed o h [] (Record.stream .start (P ++ FileLog.records ms)) =
          ⟨(complete P.length (spans 0 xs) ++ ms).reverse, .ok (), [], []⟩) := by
  have hread := Record.readAll_cut (ms.map Written.sorted) hP 0 .start
    (s := P ++ FileLog.records ms) (by rw [records_eq])
  rw [Nat.zero_add] at hread
  rw [Record.stream, replayed_continue hc, List.append_nil]
  rcases hread with ⟨hin, hms, e, he, hend⟩ | ⟨hout, hall⟩
  · refine .inl ⟨hin, e, fun h => hend (by rw [h]; rfl), ?_⟩
    rw [hms, he]
    rfl
  · have hmap : (ms.map Written.sorted).map (·.message) = ms := by
      rw [List.map_map]
      exact List.map_id ms
    refine .inr ⟨hout, ?_⟩
    rw [hall, hmap]
    rfl

/-- A log is replayed as a whole. -/
theorem replay_log {ms : List Message} (hgate : r.gated = false)
    (hw : Undisturbed node (FileLog.records ms) r.options.governor w)
    (hh : r.handler.GoesOn (Undisturbed node (FileLog.records ms) r.options.governor)) :
    Bus.Ends Loop.act
      (fun b => b.handled = ms ∧ b.outcome? = some (.ok ()) ∧ Called r.options w [] b)
      (Bus.alone w (r.spawn (some (.start node)) (.replay .wait))) := by
  apply (replay_ends hgate hw (hh.spares.keeps hw [] _)).mono
  intro b hb
  have hnil : [] <+: logText [] := List.nil_prefix
  rcases replayed_over hh.continues r.options hnil ms with ⟨⟨x, hx, -⟩, -⟩ | ⟨-, hall⟩
  · cases hx
  · rw [List.nil_append] at hall
    rw [hall] at hb
    exact hb.silent

/-- A log that was cut anywhere is replayed up to its last complete record. That a record was cut
is told once, if one was. -/
theorem replay_cut {xs : List Written} {P : Bytes} (hP : P <+: logText xs)
    (hstart : r.options.start ≠ some .newest) (hgate : r.gated = false)
    (hfile : w.files.locate (Path.join root (Utf8.ofText r.topic)) = .ok node)
    (hw : Undisturbed node P r.options.governor w)
    (hh : r.handler.GoesOn (Undisturbed node P r.options.governor)) :
    ∃ s, r.toFiles w.files root = .ok s ∧
      Bus.Ends Loop.act (fun b =>
        b.handled = complete P.length (spans 0 xs) ∧ b.outcome? = some (.ok ()) ∧
          (EndsInside P.length (spans 0 xs) →
            ∃ e, e.isEnd = true ∧ Called r.options w [.codec e] b) ∧
          (¬ EndsInside P.length (spans 0 xs) → Called r.options w [] b))
        (Bus.alone w s) := by
  refine ⟨_, toFiles_found hstart hfile, ?_⟩
  apply (replay_ends hgate hw (hh.spares.keeps hw [] _)).mono
  intro b hb
  have hover := replayed_over hh.continues r.options hP []
  have hP' : P ++ FileLog.records [] = P := List.append_nil P
  rw [hP'] at hover
  rcases hover with ⟨hin, e, hend, hv⟩ | ⟨hout, hv⟩
  · rw [hv, if_pos (hend rfl)] at hb
    obtain ⟨hhandled, houtcome, hcalled⟩ := hb.cutShort
    exact ⟨hhandled, houtcome, fun _ => ⟨e, hend rfl, hcalled⟩, fun h => absurd hin h⟩
  · rw [hv, List.append_nil] at hb
    obtain ⟨hhandled, houtcome, hcalled⟩ := hb.silent (o := r.options)
    exact ⟨hhandled, houtcome, fun h => absurd h hout, fun _ => hcalled⟩

/-- What stands behind a cut is replayed unless the cut lies strictly inside an object. -/
theorem replay_over {xs : List Written} {P : Bytes} (hP : P <+: logText xs) (ms : List Message)
    (hgate : r.gated = false)
    (hw : Undisturbed node (P ++ FileLog.records ms) r.options.governor w)
    (hh : r.handler.GoesOn (Undisturbed node (P ++ FileLog.records ms) r.options.governor)) :
    Bus.Ends Loop.act (fun b =>
      (EndsInside P.length (spans 0 xs) → b.handled = complete P.length (spans 0 xs)) ∧
        (¬ EndsInside P.length (spans 0 xs) → b.handled = complete P.length (spans 0 xs) ++ ms ∧
          b.outcome? = some (.ok ()) ∧ Called r.options w [] b))
      (Bus.alone w (r.spawn (some (.start node)) (.replay .wait))) := by
  apply (replay_ends hgate hw (hh.spares.keeps hw [] _)).mono
  intro b hb
  rcases replayed_over hh.continues r.options hP ms with ⟨hin, e, -, hv⟩ | ⟨hout, hv⟩
  · rw [hv] at hb
    refine ⟨fun _ => ?_, fun h => absurd hin h⟩
    have hhandled := hb.handled
    split at hhandled
    · exact hhandled.trans (List.reverse_reverse _)
    · exact hhandled.trans (List.reverse_reverse _)
  · rw [hv] at hb
    exact ⟨fun h => absurd h hout, fun _ => hb.silent⟩

/-- A root folder with one file in it. -/
def Files.single (name content : Bytes) : Files :=
  ⟨[.folder [(name, 1)], .file content], [0], fun _ _ => none⟩

/-- The lines of two records, whose objects end before the bytes 15 and 31. -/
def twoRecords : List Written :=
  [⟨.ofText "a", [], .nil⟩, ⟨.ofText "b", [], .nil⟩]

/-- A subscription to the topic `t` whose handler goes on and does nothing else. -/
def Subscribing.plain : Subscribing :=
  ⟨"t", ⟨none, none, true⟩, fun _ _ => .continue, false⟩

theorem Subscribing.plain_goesOn (K : World → Prop) : Subscribing.plain.handler.GoesOn K :=
  ⟨fun _ _ => rfl, fun _ _ _ h => h⟩

theorem replay_cut_second :
    let w := World.start (.single [116] ((logText twoRecords).take 25))
    ∃ s, Subscribing.plain.toFiles w.files [47] = .ok s ∧
      Bus.Ends Loop.act (fun b => b.handled = [.ofText "a"] ∧ b.outcome? = some (.ok ()) ∧
        ∃ e, e.isEnd = true ∧ Called Subscribing.plain.options w [.codec e] b)
        (Bus.alone w s) := by
  intro w
  have hP : (logText twoRecords).take 25 <+: logText twoRecords := List.take_prefix 25 _
  have hfile : w.files.locate (Path.join [47] (Utf8.ofText Subscribing.plain.topic)) = .ok 1 := rfl
  have hw : Undisturbed 1 ((logText twoRecords).take 25) Subscribing.plain.options.governor w :=
    ⟨rfl, rfl⟩
  obtain ⟨s, hs, hends⟩ :=
    replay_cut hP (by decide) rfl hfile hw (Subscribing.plain_goesOn _)
  refine ⟨s, hs, hends.mono ?_⟩
  rintro b ⟨hhandled, houtcome, htold, -⟩
  have hcut : EndsInside 25 (spans 0 twoRecords) := by decide
  exact ⟨hhandled.trans (by decide), houtcome, htold hcut⟩

end PubSub
