import Logbook.Proofs.Sinks.Lives

/-!
# The console and the log file

The log file does not affect the console. Two loggers differ in their log files: one has none, or
they stand elsewhere, rotate otherwise or fail, also because somebody else changes the files
(`Session.live`). Each console shows the story of the same steps (`ShowsStory`), and in what they
show there is no difference (`console_of_live`), but for one: a write that panics ends the program,
and then the console holds what was shown until then, the record of that event included
(`not_independent`).

What the consoles need of a span is the same on both sides (`Shared`). Structured records share the
fields of a span between the sinks, and every recording is made once for each of them; without
floats, the first time is all that counts.
-/

set_option autoImplicit false
set_option relaxedAutoImplicit false

namespace Logbook

namespace Session

/-! ### Spans beside another log file -/

/-- Two spans look the same to a console: to people by their texts, in structured records by their
fields. -/
structure Shared (pretty : Bool) (s s' : Span) : Prop where
  parent : s'.parent = s.parent
  held : s'.held = s.held
  names : s'.names = s.names
  text : pretty = true → s'.text = s.text
  fields : pretty = false → s'.fields = s.fields ∧ s.fields.Exact

/-- Spans keep looking the same to a console, for any numbers of sinks, as far as there are
structured sinks if the console is one. -/
theorem keeps_shared {pretty : Bool} {sinks sinks' : Nat}
    (hsinks : pretty = false → 0 < sinks ∧ 0 < sinks') :
    Keeps sinks sinks' Field.NoFloat (Shared pretty) where
  parent := fun h ↦ h.parent
  held := fun h ↦ h.held
  names := fun h ↦ h.names
  made := fun _ _ hfields ↦
    ⟨rfl, rfl, rfl, fun _ ↦ rfl, fun _ ↦ ⟨rfl, SpanFields.exact_ofFields hfields⟩⟩
  released := fun h ↦ ⟨h.parent, rfl, h.names, h.text, h.fields⟩
  recorded := by
    intro s s' h fields hfields
    refine ⟨h.parent, h.held, h.names, fun hpretty ↦ ?_, fun hpretty ↦ ?_⟩
    · exact congrArg (Console.recordText · fields) (h.text hpretty)
    · obtain ⟨heq, hexact⟩ := h.fields hpretty
      obtain ⟨hpos, hpos'⟩ := hsinks hpretty
      have hrecorded := hexact.foldl_record hfields hpos
      have hrecorded' := hexact.foldl_record hfields hpos'
      rw [Span.recorded, Span.recorded]
      dsimp only
      rw [heq, hrecorded, hrecorded']
      exact ⟨rfl, hexact.record hfields⟩

/-! ### Lives -/

/-- What the console holds is a beginning of what the steps of the program show, and all of it
unless a write has panicked. No write panics where there is no log file. -/
theorem console_of_happenings (stage : Stage) (files : FileTree) (l : Logger)
    (life : List Happening) :
    ∃ later files' l' shown, (stage.session files l).live life = Stage.session later files' l' ∧
      l'.console = l.console ++ shown ∧
      shown <+: (admitted l.settings.level (stage.story l.structuredSinks (stepsOf life))).map
        l.shows ∧
      (((stage.session files l).live life).hasPanicked = false →
        shown = (admitted l.settings.level (stage.story l.structuredSinks (stepsOf life))).map
          l.shows) ∧
      (l.file = none → l'.failures = l.failures) := by
  induction life generalizing stage files l with
  | nil => exact ⟨stage, files, l, [], rfl, by simp, List.nil_prefix, fun _ ↦ rfl, fun _ ↦ rfl⟩
  | cons next rest ih =>
    rw [live_cons]
    by_cases hpanicked : (stage.session files l).hasPanicked = true
    · rw [if_pos hpanicked]
      refine ⟨stage, files, l, [], rfl, by simp, List.nil_prefix, fun hnot ↦ ?_, fun _ ↦ rfl⟩
      rw [hpanicked] at hnot
      exact absurd hnot (by simp)
    rw [if_neg hpanicked]
    cases next with
    | files change => exact ih stage (change files) l
    | step now step =>
      obtain ⟨files₁, l₁, hstep, htold⟩ := told_of_step stage files l now step
      obtain ⟨later, files', l', shown, hlive, hconsole, hprefix, hall, hfailures⟩ :=
        ih (stage.after l.structuredSinks step) files₁ l₁
      set told := admitted l.settings.level ((stage.handed? step).map fun h ↦ (now, h)).toList
      have hstory : admitted l.settings.level (stage.story l.structuredSinks
          (stepsOf (.step now step :: rest))) = told ++ admitted l.settings.level
            ((stage.after l.structuredSinks step).story l.structuredSinks (stepsOf rest)) :=
        admitted_append ..
      rw [htold.structuredSinks_eq, htold.settings, htold.shows_eq] at hprefix hall
      rw [hstory, List.map_append, happen, hstep]
      refine ⟨later, files', l', told.map l.shows ++ shown, hlive, ?_, ?_, ?_, ?_⟩
      · rw [hconsole, htold.console, List.append_assoc]
      · exact (List.prefix_append_right_inj _).mpr hprefix
      · intro hnot
        rw [hall hnot]
      · intro hfile
        obtain ⟨-, hfile', hsame⟩ := htold.noFile hfile
        rw [hfailures hfile', hsame]

/-! ### Two lives -/

variable {t t' t₀ t₀' : FileTree} {settings : LoggingSettings} {file file' : FileSettings}
  {color : Bool} {origin : Origin} {l₀ l₀' : Logger}

/-- A console shows the same for spans that look the same to it. -/
theorem shows_of_shared (hpretty : l₀'.settings.pretty = l₀.settings.pretty)
    (hdebug : l₀'.settings.debug = l₀.settings.debug) (hcolor : l₀'.color = l₀.color)
    (horigin : l₀'.origin = l₀.origin) (now : Moment) {handed handed' : Handed}
    (hevent : handed.event = handed'.event)
    (hscope : List.Forall₂ (Shared l₀.settings.pretty) handed.scope handed'.scope) :
    l₀'.shows (now, handed') = l₀.shows (now, handed) := by
  have hmap : ∀ {α : Type} (view : Span → α),
      (∀ s s', Shared l₀.settings.pretty s s' → view s' = view s) →
      handed'.scope.map view = handed.scope.map view := by
    intro α view hview
    rw [← List.forall₂_eq_eq_eq, List.forall₂_map_left_iff, List.forall₂_map_right_iff]
    exact hscope.flip.imp fun s' s hs ↦ hview s s' hs
  rw [Logger.shows, Logger.shows, Logger.consoleRecord, Logger.consoleRecord, hpretty, hdebug, hcolor,
    horigin]
  dsimp only
  rw [hevent]
  by_cases hform : l₀.settings.pretty = true
  · rw [if_pos hform, if_pos hform, hmap Span.text fun s s' hs ↦ hs.text hform]
  · have hfields := fun s s' (hs : Shared l₀.settings.pretty s s') ↦
      (hs.fields (Bool.eq_false_of_not_eq_true hform)).1
    rw [if_neg hform, if_neg hform, hmap Span.fields hfields]

/-- What the consoles show of the same steps differs only in what each record takes from its moment,
whatever happens to the log files. -/
theorem shows_alike
    (h : Logger.ofSettings t { settings with file := file } color origin = (t₀, .ok l₀))
    (h' : Logger.ofSettings t' { settings with file := file' } color origin = (t₀', .ok l₀'))
    (M : Moment → Moment → Prop) {steps steps' : List (Moment × Step)}
    (hsteps : List.Forall₂ (fun p q ↦ M p.1 q.1 ∧ p.2 = q.2) steps steps')
    (hfields : ∀ p ∈ steps, ∀ f ∈ p.2.spanFields, f.NoFloat) :
    List.Forall₂ (fun p q ↦ M p.1 q.1 ∧ p.2.event = q.2.event ∧
        l₀'.shows q = l₀.shows (q.1, p.2))
      (admitted settings.level (Stage.initial.story l₀.structuredSinks steps))
      (admitted settings.level (Stage.initial.story l₀'.structuredSinks steps')) := by
  obtain ⟨log, rfl, -⟩ := ofSettings_eq_ok h
  obtain ⟨log', rfl, -⟩ := ofSettings_eq_ok h'
  have hsinks : settings.pretty = false →
      0 < (Logger.build { settings with file := file } color origin log).structuredSinks ∧
        0 < (Logger.build { settings with file := file' } color origin log').structuredSinks := by
    intro hpretty
    simp only [Logger.structuredSinks, Logger.build, hpretty]
    exact ⟨Nat.lt_add_right _ Nat.one_pos, Nat.lt_add_right _ Nat.one_pos⟩
  have hstory := story_alike (keeps_shared hsinks) (Alike.initial _) M hsteps hfields
  refine (admitted_alike (fun hpq ↦ hpq.2.1) hstory settings.level).imp fun p q hpq ↦ ?_
  obtain ⟨hmoments, hevent, hscope⟩ := hpq
  exact ⟨hmoments, hevent, shows_of_shared rfl rfl rfl rfl q.1 hevent hscope⟩

/-- The console of the one logger of a program shows a beginning of a story, and all of it unless a
write to the log file has panicked. -/
structure ShowsStory (l₀ : Logger) (story : List (Moment × Handed)) (s : Session) (l : Logger) :
    Prop where
  loggers : s.loggers = [l]
  begins : l.console <+: story.map l₀.shows
  all : s.hasPanicked = false → l.console = story.map l₀.shows

/-- The console of a logger that has just been made shows the story of the steps, and where there is
no log file, no write panics. -/
theorem showsStory_of_live (h : Logger.ofSettings t settings color origin = (t₀, .ok l₀))
    (life : List Happening) :
    (∃ l, ShowsStory l₀ (storyOf l₀ (stepsOf life)) ((start t₀ [l₀]).live life) l) ∧
      (settings.file.enabled = false → ((start t₀ [l₀]).live life).hasPanicked = false) := by
  have hfile : l₀.file.isSome = settings.file.enabled := isSome_file h
  obtain ⟨log, hbuild, -⟩ := ofSettings_eq_ok h
  have hstart : start t₀ [l₀] = Stage.initial.session t₀ l₀ := by rw [hbuild]; rfl
  have hconsole : l₀.console = [] := by rw [hbuild]; rfl
  have hfailures : l₀.failures = [] := by rw [hbuild]; rfl
  obtain ⟨later, files, l, shown, hlive, hshown, hprefix, hall, hcalm⟩ :=
    console_of_happenings .initial t₀ l₀ life
  rw [hconsole, List.nil_append] at hshown
  rw [← hstart] at hlive hall
  rw [← storyOf, ← hshown] at hprefix hall
  refine ⟨⟨{ l with spans := later.spans }, congrArg Session.loggers hlive, hprefix, hall⟩,
    fun henabled ↦ ?_⟩
  have hnone : l₀.file = none := by
    rwa [henabled, Option.isSome_eq_false_iff, Option.isNone_iff_eq_none] at hfile
  rw [hlive, hasPanicked]
  simp [Stage.session, hcalm hnone, hfailures]

/-- Two loggers differ in their log files. Of the same steps, each console shows a beginning, and
everything unless a write to the log file has panicked, which none does where there is none; and
what is shown is the same on both, but for what each record takes from its own moment. -/
theorem console_of_live
    (h : Logger.ofSettings t { settings with file := file } color origin = (t₀, .ok l₀))
    (h' : Logger.ofSettings t' { settings with file := file' } color origin = (t₀', .ok l₀'))
    {life life' : List Happening}
    (hsteps : (stepsOf life).map Prod.snd = (stepsOf life').map Prod.snd)
    (hfields : ∀ p ∈ stepsOf life, ∀ f ∈ p.2.spanFields, f.NoFloat) :
    let s := (start t₀ [l₀]).live life
    let s' := (start t₀' [l₀']).live life'
    let story := storyOf l₀ (stepsOf life)
    let story' := storyOf l₀' (stepsOf life')
    (∃ l, ShowsStory l₀ story s l) ∧ (∃ l', ShowsStory l₀' story' s' l') ∧
      (file.enabled = false → s.hasPanicked = false) ∧
      List.Forall₂ (fun p q ↦ p.2.event = q.2.event ∧
        ShownBut settings.pretty p.1 q.1 (l₀.shows p) (l₀'.shows q)) story story' ∧
      (stepsOf life = stepsOf life' → story.map l₀.shows = story'.map l₀'.shows) := by
  intro s s' story story'
  obtain ⟨log, hbuild, -⟩ := ofSettings_eq_ok h
  obtain ⟨log', hbuild', -⟩ := ofSettings_eq_ok h'
  have hpretty : l₀.settings.pretty = settings.pretty := by rw [hbuild]; rfl
  have hlevel : l₀.settings.level = settings.level := by rw [hbuild]; rfl
  have hlevel' : l₀'.settings.level = settings.level := by rw [hbuild']; rfl
  have hstory : story = admitted settings.level
      (Stage.initial.story l₀.structuredSinks (stepsOf life)) := hlevel ▸ rfl
  have hstory' : story' = admitted settings.level
      (Stage.initial.story l₀'.structuredSinks (stepsOf life')) := hlevel' ▸ rfl
  obtain ⟨hshows, hcalm⟩ := showsStory_of_live h life
  refine ⟨hshows, (showsStory_of_live h' life').1, hcalm, ?_, fun hlives ↦ ?_⟩
  · rw [hstory, hstory']
    have halike := shows_alike h h' (fun _ _ ↦ True) (forall₂_of_map_eq hsteps) hfields
    refine halike.imp fun p q hpq ↦ ?_
    obtain ⟨-, hevent, hshown⟩ := hpq
    rw [hshown, ← hpretty]
    exact ⟨hevent, l₀.shownBut p.1 q.1 p.2⟩
  · rw [hstory, hstory', ← hlives, ← List.forall₂_eq_eq_eq, List.forall₂_map_left_iff,
      List.forall₂_map_right_iff]
    have hsame := shows_alike h h' Eq (List.forall₂_same.mpr fun _ _ ↦ ⟨rfl, rfl⟩) hfields
    refine hsame.imp fun p q hpq ↦ ?_
    obtain ⟨hmoment, -, hshown⟩ := hpq
    rw [hshown, ← hmoment]

/-- An error inside a span, and before it somebody does something to the files. -/
def disturbed (change : FileTree → FileTree) : List Happening :=
  [.step smallMoment (.span (some 0) "span" [⟨"a", some (.bool true)⟩] .current),
    .step smallMoment (.enter "span"),
    .files change,
    .step smallMoment (.event (some 0) smallEvent .current)]

theorem noFloat_disturbed (change : FileTree → FileTree) :
    ∀ p ∈ stepsOf (disturbed change), ∀ f ∈ p.2.spanFields, f.NoFloat := by
  intro p hp f hf
  simp only [stepsOf, disturbed, Happening.step?, List.filterMap_cons, List.filterMap_nil,
    List.mem_cons, List.not_mem_nil, or_false] at hp
  rcases hp with rfl | rfl | rfl
  · rw [List.mem_singleton.mp hf]
    exact fun x h ↦ by simp at h
  · exact absurd hf List.not_mem_nil
  · exact absurd hf List.not_mem_nil

/-- The console shows the error alike whether the log file is removed or there has never been
one. -/
theorem console_of_live_disturbed :
    ∃ l l', ((start smallTree [smallLogger]).live (disturbed fun _ ↦ .empty)).loggers = [l] ∧
      ((start .empty [.build { smallSettings with file := {} } false smallOrigin none]).live
        (disturbed id)).loggers = [l'] ∧ l.console = l'.console := by
  obtain ⟨⟨l, hshows⟩, ⟨l', hshows'⟩, -, -, hequal⟩ :=
    console_of_live (show Logger.ofSettings .empty { smallSettings with file := smallSettings.file }
        false smallOrigin = (smallTree, .ok smallLogger) from rfl)
      (show Logger.ofSettings .empty { smallSettings with file := {} } false smallOrigin =
        (.empty, .ok (.build _ _ _ none)) from rfl)
      (show (stepsOf (disturbed fun _ ↦ .empty)).map Prod.snd =
        (stepsOf (disturbed id)).map Prod.snd from rfl)
      (noFloat_disturbed _)
  have hsame := hequal rfl
  rw [← hshows.all (by decide +kernel), ← hshows'.all (by decide +kernel)] at hsame
  exact ⟨l, l', hshows.loggers, hshows'.loggers, hsame⟩

/-! ### A name that is taken -/

/-- A write that comes to a name that is taken is noted as a panic. -/
theorem Told.failures_of_taken {files files' : FileTree} {l l' : Logger} {p : Moment × Handed}
    (h : Told files l [p] files' l') {f : LogFile} (hfile : l.file = some f)
    (htaken : ∀ bytes : ByteArray, bytes.size ≠ 0 →
      (f.write files p.1.stamp bytes).2.2 = some .nameTaken) :
    l'.failures = l.failures ++ [.nameTaken] := by
  obtain ⟨f', failures, hwritten, -, hfailures⟩ := h.file f hfile
  rw [List.map_singleton] at hwritten
  obtain ⟨failed, hwrite, rfl⟩ := LogFile.exists_write_eq hwritten
  have hnameTaken := htaken _ (l.size_writes p)
  dsimp only [Logger.writes] at hwrite hnameTaken
  rw [hwrite] at hnameTaken
  dsimp only at hnameTaken
  rw [hfailures, hnameTaken]
  rfl

/-- Where the log file is to be rotated to a name that is taken, the next event that is admitted is
the last that the console shows. -/
theorem console_of_taken (stage : Stage) (files : FileTree) (l : Logger) {f : LogFile}
    (hfile : l.file = some f) (now : Moment)
    (htaken : ∀ bytes : ByteArray, bytes.size ≠ 0 →
      (f.write files now.stamp bytes).2.2 = some .nameTaken)
    (hfirst : (stage.session files l).hasPanicked = false) {step : Step} {e : Event}
    {around : Around} (hstep : step.event? 0 = some (e, around))
    (hadmits : l.settings.level ≤ e.severity) (rest : List Happening) :
    ((stage.session files l).live (.step now step :: rest)).loggers.map Logger.console =
      [l.console ++ [l.shows (now, ⟨e, stage.spans.scope (stage.locate around)⟩)]] := by
  obtain ⟨files', l', hnext, htold⟩ := told_of_step stage files l now step
  rw [stage.admitted_handed? hstep hadmits] at htold
  have hfailures := htold.failures_of_taken hfile htaken
  have hpanicked : ((stage.after l.structuredSinks step).session files' l').hasPanicked = true := by
    rw [hasPanicked]
    simp [Stage.session, hfailures, LogFile.WriteError.isPanic, LogFile.WriteError.panic?]
  rw [live_cons, if_neg (by simp [hfirst]), happen, hnext, live_of_hasPanicked hpanicked]
  exact congrArg (fun console ↦ [console]) htold.console

/-- A log file that may hold a megabyte. -/
def crowdedSettings : LoggingSettings where
  file := { enabled := true, path := "app.log", maxSizeMb := 1 }

/-- More than a megabyte. -/
def crowdedBytes : ByteArray :=
  ⟨Array.replicate (byteLimit 1 + 1) 0⟩

/-- A log file that is to be rotated, a backup from this second, and one that seems to be newer. -/
def crowdedTree : FileTree :=
  (((FileTree.empty.addFile ["app.log"] crowdedBytes).1.addFile
    ["app.log." ++ smallMoment.stamp] ByteArray.empty).1.addFile
      ["app.log.99990101T000000"] ByteArray.empty).1

/-- The log file. -/
def crowdedFile : LogFile :=
  LogFile.start crowdedTree ⟨"app.log"⟩ ["app.log"] 0 (byteLimit 1) 0

theorem write_crowdedFile {bytes : ByteArray} (hbytes : bytes.size ≠ 0) :
    (crowdedFile.write crowdedTree smallMoment.stamp bytes).2.2 = some .nameTaken := by
  have hcount : crowdedFile.limit < crowdedFile.count := by
    have hsize : crowdedFile.count = byteLimit 1 + 1 := Array.size_replicate
    rw [hsize]
    exact Nat.lt_succ_self _
  have hrotate : crowdedFile.rotate crowdedTree smallMoment.stamp =
      (crowdedTree, { crowdedFile with handle := none }, some .nameTaken) := rfl
  rw [LogFile.write, if_neg hbytes, if_pos hcount, hrotate]

theorem ofSettings_crowded {settings : LoggingSettings}
    (hfile : settings.file = crowdedSettings.file) :
    Logger.ofSettings crowdedTree settings false smallOrigin =
      (crowdedTree, .ok (.build settings false smallOrigin (some crowdedFile))) := by
  have hprepare : LogFile.prepare crowdedTree ⟨crowdedSettings.file.path⟩ =
      (crowdedTree, .ok (["app.log"], 0)) := rfl
  have henabled : crowdedSettings.file.enabled = true := rfl
  rw [Logger.ofSettings, hfile, if_pos henabled, Logger.openFile, hprepare]
  rfl

/-- Two errors. -/
def twoErrors : List Happening :=
  [.step smallMoment (.event (some 0) smallEvent .current),
    .step smallMoment (.event (some 0) smallEvent .current)]

/-- Where the rotation comes to a name that is taken, the first error ends the program, and without
a log file there would have been a second one. -/
theorem not_independent :
    ∃ l₀ l₀', Logger.ofSettings crowdedTree crowdedSettings false smallOrigin =
        (crowdedTree, .ok l₀) ∧
      Logger.ofSettings crowdedTree { crowdedSettings with file := {} } false smallOrigin =
        (crowdedTree, .ok l₀') ∧
      (((start crowdedTree [l₀]).live twoErrors).loggers.map fun l ↦ l.console.length) = [1] ∧
      (((start crowdedTree [l₀']).live twoErrors).loggers.map fun l ↦ l.console.length) = [2] := by
  refine ⟨_, _, ofSettings_crowded rfl, rfl, ?_, by decide +kernel⟩
  have hconsole := console_of_taken .initial crowdedTree
    (.build crowdedSettings false smallOrigin (some crowdedFile)) rfl smallMoment
    (fun _ ↦ write_crowdedFile) rfl
    (show (Step.event (some 0) smallEvent .current).event? 0 = _ from rfl) (by decide)
    [.step smallMoment (.event (some 0) smallEvent .current)]
  have hlength := congrArg (List.map List.length) hconsole
  rw [List.map_map] at hlength
  exact hlength

end Session

end Logbook
