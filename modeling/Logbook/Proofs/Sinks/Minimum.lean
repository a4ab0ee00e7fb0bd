import Logbook.Proofs.Sinks.Independence

/-!
# The minimum severity

Two programs make the same steps and differ in nothing but the minimum severity of their loggers.
Both tell parts of one story, because a minimum is compared with events only; so what reaches the
sinks under the higher minimum is what reaches them under the lower one, less the events below the
higher (`Raised`, `raised_minimum`).

All this holds until a write panics. That ends the program, and it may be the record of an event
that only the lower minimum admits which comes to a name that is taken; then what goes wrong later
is not told under the lower minimum, and is under the higher one (`not_raised`).

The levels of spans are no part of the story (`story_atLevel`): whatever they are, the record of an
admitted event carries the fields of all spans around it (`Carries`).
-/

set_option autoImplicit false
set_option relaxedAutoImplicit false

namespace Logbook

/-! ### The part above a minimum -/

namespace Session

/-- What a higher minimum admits is the part of what a lower one admits that reaches the higher. -/
theorem admitted_of_le {low high : Severity} (hle : low ≤ high)
    (story : List (Moment × Handed)) :
    admitted high story = (admitted low story).filter fun p ↦ high ≤ p.2.event.severity := by
  rw [admitted, admitted, List.filter_filter]
  refine List.filter_congr fun p _ ↦ ?_
  rw [admits_metadata, admits_metadata]
  by_cases hhigh : high ≤ p.2.event.severity
  · simp [hhigh, Severity.le_trans hle hhigh]
  · simp [hhigh]

/-! ### Levels of spans -/

/-- The step, where it makes a span of its own, with another level and another target for it. -/
def Step.atLevel (level : Level) (target : String) : Step → Step
  | .span logger handle fields around _ _ => .span logger handle fields around level target
  | step => step

/-- What becomes of a stage does not depend on the levels of spans. -/
theorem Stage.after_atLevel (sinks : Nat) (stage : Stage) (level : Level) (target : String)
    (step : Step) : stage.after sinks (step.atLevel level target) = stage.after sinks step := by
  cases step with
  | span addressee handle fields around _ _ =>
    match addressee with
    | none => rfl
    | some 0 => rfl
    | some (n + 1) => rfl
  | _ => rfl

theorem story_atLevel (sinks : Nat) (stage : Stage) (level : Level) (target : String)
    (steps : List (Moment × Step)) :
    stage.story sinks (steps.map fun p ↦ (p.1, p.2.atLevel level target)) =
      stage.story sinks steps := by
  induction steps generalizing stage with
  | nil => rfl
  | cons p rest ih =>
    obtain ⟨now, step⟩ := p
    have hevent : (step.atLevel level target).event? 0 = step.event? 0 := by
      cases step <;> rfl
    rw [List.map_cons, Stage.story, Stage.story, Stage.after_atLevel, ih, Stage.handed?, hevent]
    rfl

/-! ### Fields of spans -/

/-- What a logger shows and writes for an event carries the fields of a span: all their keys in the
structured record, and their text on a line for people. -/
structure Carries (l : Logger) (p : Moment × Handed) (s : Span) : Prop where
  keys : ∀ key ∈ Keyed.keys s.fields,
    key ∈ (p.2.delivery.record l.settings.debug l.origin p.1).keys
  text : l.settings.pretty = true → s.text ≠ "" →
    ∃ before after, l.shows p = before ++ " " ++ s.text ++ after

theorem carries_of_mem {l : Logger} {p : Moment × Handed} (hstored : p.2.delivery.AllStored)
    {s : Span} (hs : s ∈ p.2.scope) : Carries l p s where
  keys := by
    intro key hkey
    exact Structured.mem_keys_record_of_span hstored (List.mem_map_of_mem hs) hkey
  text := by
    intro hpretty htext
    rw [Logger.shows, Logger.consoleRecord, if_pos hpretty]
    exact Console.exists_around_span _ _ _ _ (List.mem_map_of_mem hs) htext

/-! ### Two minimums -/

variable {t t' t₀ t₀' : FileTree} {settings : LoggingSettings} {color : Bool} {origin : Origin}
  {l₀ l₀' : Logger} {steps steps' : List (Moment × Step)}

/-- What a higher minimum makes of the story of the same steps, told at other moments perhaps. -/
structure Raised (high : Severity) (l₀ l₀' : Logger) (steps steps' : List (Moment × Step)) :
    Prop where
  /-- The events below the higher minimum are left out, and the others give the same records in the
  same order, but for what each takes from its own moment. -/
  records : List.Forall₂ (fun p q ↦ p.2 = q.2 ∧
      ShownBut l₀.settings.pretty p.1 q.1 (l₀.shows p) (l₀'.shows q) ∧
      ShownBut false p.1 q.1 (l₀.lineFor (p.1, p.2.delivery)) (l₀'.lineFor (q.1, q.2.delivery)))
    ((storyOf l₀ steps).filter fun p ↦ high ≤ p.2.event.severity) (storyOf l₀' steps')
  /-- If the moments are the same, so are the records. -/
  same : steps = steps' →
    storyOf l₀' steps' = (storyOf l₀ steps).filter fun p ↦ high ≤ p.2.event.severity
  shows : l₀'.shows = l₀.shows
  writes : l₀'.writes = l₀.writes
  /-- The fields of all spans around an event are in its record. -/
  carried : ∀ p ∈ storyOf l₀' steps', ∀ s ∈ p.2.scope, Carries l₀' p s
  /-- The levels of the spans make no difference. -/
  levels : ∀ level target,
    storyOf l₀ (steps.map fun p ↦ (p.1, p.2.atLevel level target)) = storyOf l₀ steps

/-- Of two loggers whose settings differ in the minimum, each tells its part of one story until a
write panics, and the part of the higher minimum is that of the lower one less the events below the
higher. -/
theorem raised_minimum {low high : Severity} (hle : low ≤ high)
    (h : Logger.ofSettings t { settings with level := low } color origin = (t₀, .ok l₀))
    (h' : Logger.ofSettings t' { settings with level := high } color origin = (t₀', .ok l₀'))
    (hsteps : steps.map Prod.snd = steps'.map Prod.snd) :
    (∃ told l, TellsStory t₀ l₀ (storyOf l₀ steps)
        ((start t₀ [l₀]).live (undisturbed steps)) told l) ∧
      (∃ told' l', TellsStory t₀' l₀' (storyOf l₀' steps')
        ((start t₀' [l₀']).live (undisturbed steps')) told' l') ∧
      Raised high l₀ l₀' steps steps' := by
  have hfile : l₀'.file.isSome = l₀.file.isSome := (isSome_file h').trans (isSome_file h).symm
  obtain ⟨file, hbuild, -⟩ := ofSettings_eq_ok h
  obtain ⟨file', hbuild', -⟩ := ofSettings_eq_ok h'
  have hlow : l₀.settings.level = low := by rw [hbuild]; rfl
  have hhigh : l₀'.settings.level = high := by rw [hbuild']; rfl
  have hshows : l₀'.shows = l₀.shows := by rw [hbuild, hbuild']; rfl
  have hlines : l₀'.lineFor = l₀.lineFor := by rw [hbuild, hbuild']; rfl
  have hwrites : l₀'.writes = l₀.writes := by rw [hbuild, hbuild']; rfl
  have hsinks : l₀'.structuredSinks = l₀.structuredSinks := by
    rw [Logger.structuredSinks, Logger.structuredSinks, hfile, hbuild, hbuild']
    rfl
  have habove : ((storyOf l₀ steps).filter fun p ↦ high ≤ p.2.event.severity) =
      admitted high (Stage.initial.story l₀.structuredSinks steps) := by
    rw [storyOf, hlow, admitted_of_le hle]
  have hstory' : storyOf l₀' steps' =
      admitted high (Stage.initial.story l₀.structuredSinks steps') := by
    rw [storyOf, hhigh, hsinks]
  refine ⟨tellsStory_of_live h steps, tellsStory_of_live h' steps', ?_, ?_, hshows, hwrites,
    ?_, ?_⟩
  · rw [habove, hstory']
    have hstory := story_agree l₀.structuredSinks .initial hsteps
    refine (admitted_alike (fun hpq ↦ congrArg Handed.event hpq) hstory high).imp fun p q hpq ↦ ?_
    obtain ⟨now, handed⟩ := p
    obtain ⟨now', handed'⟩ := q
    obtain rfl : handed = handed' := hpq
    rw [hshows, hlines]
    exact ⟨rfl, l₀.shownBut now now' handed, l₀.shownBut_lineFor now now' handed.delivery⟩
  · intro heq
    rw [habove, hstory', heq]
  · intro p hp s hs
    have hempty : Stage.initial.spans.AllStored := SpanTree.allStored_empty
    have hstored := (Stage.allStored_story hempty l₀'.structuredSinks steps').2
    exact carries_of_mem (hstored p (List.mem_of_mem_filter hp)) hs
  · intro level target
    rw [storyOf, storyOf, story_atLevel]

/-- Inside a span of the lowest level, something is told and something goes wrong. -/
def nestedSteps (now : Moment) : List (Moment × Step) :=
  [(now, .span (some 0) "span" [⟨"a", some (.bool true)⟩] .current .trace),
    (now, .enter "span"),
    (now, .event (some 0) ⟨.info, "target", .unknown, [⟨"message", some (.str "x")⟩]⟩ .current),
    (now, .event (some 0) ⟨.error, "target", .unknown, [⟨"message", some (.str "y")⟩]⟩ .current)]

/-- Under the higher minimum what is told is missing, and what goes wrong still carries the field of
the span. -/
theorem raised_minimum_nested :
    ∃ l l', ((start smallTree [.build { smallSettings with level := .debug } false smallOrigin
          smallLogger.file]).live (undisturbed (nestedSteps smallMoment))).loggers = [l] ∧
      ((start smallTree [.build { smallSettings with level := .error } false smallOrigin
          smallLogger.file]).live
            (undisturbed (nestedSteps { smallMoment with trace := "later" }))).loggers = [l'] ∧
      l.console =
        ["\x7b\"level\":\"info\",\"time\":0,\"msg\":\"x\",\"hostname\":\"host\",\"pid\":0," ++
            "\"a\":true\x7d\n",
          "\x7b\"level\":\"error\",\"time\":0,\"msg\":\"y\",\"hostname\":\"host\",\"pid\":0," ++
            "\"a\":true,\"stacktrace\":\"main\"\x7d\n"] ∧
      l'.console =
        ["\x7b\"level\":\"error\",\"time\":0,\"msg\":\"y\",\"hostname\":\"host\",\"pid\":0," ++
            "\"a\":true,\"stacktrace\":\"later\"\x7d\n"] := by
  obtain ⟨⟨told, l, htells⟩, ⟨told', l', htells'⟩, -⟩ :=
    raised_minimum (show Severity.debug ≤ .error by decide)
      (show Logger.ofSettings .empty { smallSettings with level := .debug } false smallOrigin =
        (smallTree, .ok (.build _ _ _ smallLogger.file)) from rfl)
      (show Logger.ofSettings .empty { smallSettings with level := .error } false smallOrigin =
        (smallTree, .ok (.build _ _ _ smallLogger.file)) from rfl)
      (show (nestedSteps smallMoment).map Prod.snd =
        (nestedSteps { smallMoment with trace := "later" }).map Prod.snd from rfl)
  have hall := htells.all (by decide +kernel)
  have hall' := htells'.all (by decide +kernel)
  refine ⟨l, l', htells.loggers, htells'.loggers, ?_, ?_⟩
  · rw [htells.console, hall]
    decide +kernel
  · rw [htells'.console, hall']
    decide +kernel

/-! ### A minimum that ends the program -/

/-- An event that no logger admits does nothing. -/
theorem live_of_below {files : FileTree} {l : Logger} {e : Event}
    (hbelow : l.settings.level.admits e.metadata = false)
    (hcalm : (start files [l]).hasPanicked = false) (now : Moment) (around : Around)
    (rest : List Happening) :
    (start files [l]).live (.step now (.event (some 0) e around) :: rest) =
      (start files [l]).live rest := by
  have hstep : (start files [l]).happen (.step now (.event (some 0) e around)) =
      start (l.emit files now e ((start files [l]).inside 0 around)).1
        [(l.emit files now e ((start files [l]).inside 0 around)).2] := rfl
  rw [live_cons, if_neg (by simp [hcalm]), hstep, Logger.emit, if_neg (by simp [hbelow])]

/-- A logger of the given minimum whose log file is to be rotated to a name that is taken. -/
def crowdedAt (level : Severity) : Logger :=
  .build { crowdedSettings with level := level } false smallOrigin (some crowdedFile)

/-- It shows the first event that it admits, and none after that. -/
theorem console_crowdedAt {level : Severity} {e : Event} (hadmits : level ≤ e.severity)
    (rest : List Happening) :
    ((start crowdedTree [crowdedAt level]).live
      (.step smallMoment (.event (some 0) e .current) :: rest)).loggers.map Logger.console =
        [[(crowdedAt level).shows (smallMoment, ⟨e, []⟩)]] := by
  have hstart : start crowdedTree [crowdedAt level] =
      Stage.initial.session crowdedTree (crowdedAt level) := rfl
  have hcalm : (Stage.initial.session crowdedTree (crowdedAt level)).hasPanicked = false := rfl
  have hevent : (Step.event (some 0) e .current).event? 0 = some (e, .current) := rfl
  have hnone : (crowdedAt level).console = [] := rfl
  have hscope : Stage.initial.spans.scope (Stage.initial.locate .current) = [] := rfl
  rw [hstart, console_of_taken .initial crowdedTree (crowdedAt level) rfl smallMoment
    (fun _ ↦ write_crowdedFile) hcalm hevent hadmits rest, hnone, hscope, List.nil_append]

/-- Something is told, and then something goes wrong. -/
def toldSteps : List (Moment × Step) :=
  [(smallMoment,
      .event (some 0) ⟨.info, "target", .unknown, [⟨"message", some (.str "x")⟩]⟩ .current),
    (smallMoment,
      .event (some 0) ⟨.error, "target", .unknown, [⟨"message", some (.str "y")⟩]⟩ .current)]

/-- Where the log file is to be rotated to a name that is taken, what is told under the lower
minimum ends the program. Under the higher one what goes wrong is shown, and under the lower it is
not. -/
theorem not_raised :
    ∃ l₀ l₀', Logger.ofSettings crowdedTree { crowdedSettings with level := .info } false
        smallOrigin = (crowdedTree, .ok l₀) ∧
      Logger.ofSettings crowdedTree { crowdedSettings with level := .error } false smallOrigin =
        (crowdedTree, .ok l₀') ∧ Severity.info ≤ .error ∧
      ((start crowdedTree [l₀]).live (undisturbed toldSteps)).loggers.map Logger.console =
        [["\x7b\"level\":\"info\",\"time\":0,\"msg\":\"x\",\"hostname\":\"host\",\"pid\":0\x7d\n"]] ∧
      ((start crowdedTree [l₀']).live (undisturbed toldSteps)).loggers.map Logger.console =
        [["\x7b\"level\":\"error\",\"time\":0,\"msg\":\"y\",\"hostname\":\"host\",\"pid\":0," ++
          "\"stacktrace\":\"main\"\x7d\n"]] := by
  refine ⟨crowdedAt .info, crowdedAt .error, ofSettings_crowded rfl, ofSettings_crowded rfl,
    by decide, ?_, ?_⟩
  · rw [toldSteps, undisturbed, List.map_cons, console_crowdedAt (by decide)]
    decide +kernel
  · rw [toldSteps, undisturbed, List.map_cons, live_of_below rfl rfl, List.map_cons,
      console_crowdedAt (by decide)]
    decide +kernel

end Session

end Logbook
