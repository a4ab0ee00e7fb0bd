import Logbook.Proofs.Record.Console
import Logbook.Proofs.Rotation.Journal
import Logbook.Proofs.Sinks.Stages

/-!
# What a logger delivers

A program uses one logger, step by step. The steps tell a story (`Stage.story`): the events they
hand to the logger, each with the spans around it, whether or not the logger admits them. The part
of the story that is admitted goes to every sink: a run appends one record for every event in it to
the console and writes one to the log file (`told_of_run`). The story depends on the steps and on
the number of structured sinks alone, and neither on the minimum severity nor on the moments
(`story_agree`).

What a structured sink needs of an event are the fields of the spans around it (`Delivery`). The
deliveries of a run are its admitted events in the order of the run (`events_deliveries`), and
runs of the same steps at other moments deliver the same (`deliveries_agree`).
-/

set_option autoImplicit false
set_option relaxedAutoImplicit false

namespace Logbook

/-- An event that was admitted, and the fields of the spans around it, from the outermost on. -/
structure Delivery where
  event : Event
  spans : List SpanFields

namespace Delivery

/-- The record of a delivery. -/
def record (d : Delivery) (capture : Bool) (origin : List (String × Json.Value)) (now : Moment) :
    Json.Object :=
  Structured.record capture origin now d.event d.spans

/-- All spans around the event have stored fields. -/
def AllStored (d : Delivery) : Prop :=
  ∀ s ∈ d.spans, s.Stored

end Delivery

/-- An event that is handed to a logger, and the spans around it, from the outermost on. -/
@[ext]
structure Handed where
  event : Event
  scope : List Span

/-- What a structured sink needs of an event. -/
def Handed.delivery (h : Handed) : Delivery :=
  ⟨h.event, h.scope.map Span.fields⟩

namespace Logger

/-- What a logger shows on the console for an event. -/
def shows (l : Logger) (p : Moment × Handed) : String :=
  l.consoleRecord p.1 p.2.event p.2.scope

/-- What a logger writes to its log file for an event, at the timestamp of its moment. -/
def writes (l : Logger) (p : Moment × Handed) : String × ByteArray :=
  (p.1.stamp, (l.fileRecord p.1 p.2.event p.2.scope).toUTF8)

/-- The line a logger writes for a delivery. -/
def lineFor (l : Logger) (d : Moment × Delivery) : String :=
  Structured.lineOf (d.2.record l.settings.debug l.origin d.1)

/-- What a logger writes to its log file for a delivery, at the timestamp of its moment. -/
def writeFor (l : Logger) (d : Moment × Delivery) : String × ByteArray :=
  (d.1.stamp, (l.lineFor d).toUTF8)

theorem size_writeFor (l : Logger) (d : Moment × Delivery) : (l.writeFor d).2.size ≠ 0 := by
  rw [writeFor, lineFor]
  dsimp only
  exact Structured.size_lineOf _

theorem writes_eq (l : Logger) (p : Moment × Handed) :
    l.writes p = l.writeFor (p.1, p.2.delivery) :=
  rfl

theorem size_writes (l : Logger) (p : Moment × Handed) : (l.writes p).2.size ≠ 0 := by
  rw [writes_eq]
  exact l.size_writeFor _

theorem shows_eq {l : Logger} (hpretty : l.settings.pretty = false) (p : Moment × Handed) :
    l.shows p = l.lineFor (p.1, p.2.delivery) := by
  rw [shows, consoleRecord, if_neg (by simp [hpretty])]
  rfl

/-- What a logger shows for one event at two moments differs in what it takes from them alone. -/
theorem shownBut (l : Logger) (now now' : Moment) (handed : Handed) :
    ShownBut l.settings.pretty now now' (l.shows (now, handed)) (l.shows (now', handed)) := by
  rw [shows, shows, consoleRecord, consoleRecord]
  by_cases hpretty : l.settings.pretty = true
  · rw [ShownBut, if_pos hpretty, if_pos hpretty, if_pos hpretty]
    exact Console.sameBut_record ..
  · rw [ShownBut, if_neg hpretty, if_neg hpretty, if_neg hpretty]
    exact ⟨_, _, rfl, rfl, Structured.sameBut_record⟩

theorem shownBut_lineFor (l : Logger) (now now' : Moment) (d : Delivery) :
    ShownBut false now now' (l.lineFor (now, d)) (l.lineFor (now', d)) :=
  ⟨_, _, rfl, rfl, Structured.sameBut_record⟩

theorem with_spans_eq_self {l : Logger} {spans : SpanTree} (h : l.spans = spans) :
    { l with spans := spans } = l := by
  rw [← h]

end Logger

namespace Session

/-- What a step makes a logger deliver. -/
def delivery? (s : Session) (logger : Nat) (step : Step) : Option Delivery :=
  match s.loggers[logger]?, step.event? logger with
  | some l, some (e, around) =>
    if l.settings.level.admits e.metadata then
      some ⟨e, (l.spans.scope (l.locate (s.inside logger around))).map Span.fields⟩
    else none
  | _, _ => none

/-- What the steps of a run make a logger deliver, each at the moment of its step. -/
def deliveries (s : Session) (logger : Nat) : List (Moment × Step) → List (Moment × Delivery)
  | [] => []
  | (now, step) :: rest =>
    ((s.delivery? logger step).map fun d ↦ (now, d)).toList ++
      (s.step now step).1.deliveries logger rest

theorem run_cons (s : Session) (now : Moment) (step : Step) (rest : List (Moment × Step)) :
    s.run ((now, step) :: rest) = (s.step now step).1.run rest :=
  rfl

theorem run_concat (s : Session) (before : List (Moment × Step)) (now : Moment) (step : Step) :
    s.run (before ++ [(now, step)]) = ((s.run before).step now step).1 := by
  rw [run, run, after, after, undisturbed, undisturbed, List.map_append, List.foldl_append]
  rfl

/-! ### The story of a run -/

namespace Stage

/-- What a step hands to the logger. -/
def handed? (stage : Stage) (step : Step) : Option Handed :=
  (step.event? 0).map fun p ↦ ⟨p.1, stage.spans.scope (stage.locate p.2)⟩

/-- What steps hand to the logger, each event at the moment of its step. -/
def story (sinks : Nat) (stage : Stage) : List (Moment × Step) → List (Moment × Handed)
  | [] => []
  | (now, step) :: rest =>
    ((stage.handed? step).map fun h ↦ (now, h)).toList ++ (stage.after sinks step).story sinks rest

end Stage

theorem admits_metadata (level : Severity) (e : Event) :
    level.admits e.metadata = decide (level ≤ e.severity) :=
  rfl

/-- The part of a story that a minimum severity admits. -/
def admitted (level : Severity) (story : List (Moment × Handed)) : List (Moment × Handed) :=
  story.filter fun p ↦ level.admits p.2.event.metadata

theorem admitted_append (level : Severity) (first second : List (Moment × Handed)) :
    admitted level (first ++ second) = admitted level first ++ admitted level second :=
  List.filter_append ..

/-- An event that is admitted is the admitted part of what its step hands out. -/
theorem Stage.admitted_handed? (stage : Stage) {level : Severity} {step : Step} {e : Event}
    {around : Around} (hstep : step.event? 0 = some (e, around)) (hadmits : level ≤ e.severity)
    (now : Moment) :
    admitted level ((stage.handed? step).map fun handed ↦ (now, handed)).toList =
      [(now, ⟨e, stage.spans.scope (stage.locate around)⟩)] := by
  have hpass : level.admits e.metadata = true := by
    rw [admits_metadata, decide_eq_true hadmits]
  rw [Stage.handed?, hstep]
  exact List.filter_cons_of_pos hpass

theorem admitted_alike {S : Moment × Handed → Moment × Handed → Prop}
    (hS : ∀ {p q}, S p q → p.2.event = q.2.event) {story story' : List (Moment × Handed)}
    (h : List.Forall₂ S story story') (level : Severity) :
    List.Forall₂ S (admitted level story) (admitted level story') := by
  refine List.rel_filter (fun p q hpq ↦ ?_) h
  show level.admits p.2.event.metadata = true ↔ level.admits q.2.event.metadata = true
  rw [hS hpq]

/-- From stages that are alike, the same steps hand out the same events, with spans around them that
are related one by one, and at moments that are related as those of the steps are. -/
theorem story_alike {sinks sinks' : Nat} {ok : Field → Prop} {R : Span → Span → Prop}
    (hR : Keeps sinks sinks' ok R) {stage stage' : Stage} (h : Alike R stage stage')
    (M : Moment → Moment → Prop) {steps steps' : List (Moment × Step)}
    (hsteps : List.Forall₂ (fun p q ↦ M p.1 q.1 ∧ p.2 = q.2) steps steps')
    (hfields : ∀ p ∈ steps, ∀ f ∈ p.2.spanFields, ok f) :
    List.Forall₂ (fun p q ↦ M p.1 q.1 ∧ p.2.event = q.2.event ∧ List.Forall₂ R p.2.scope q.2.scope)
      (stage.story sinks steps) (stage'.story sinks' steps') := by
  induction hsteps generalizing stage stage' with
  | nil => exact List.Forall₂.nil
  | @cons p q rest rest' hpq _ ih =>
    obtain ⟨now, step⟩ := p
    obtain ⟨now', step'⟩ := q
    obtain ⟨hnow, rfl⟩ := hpq
    rw [List.forall_mem_cons] at hfields
    refine List.rel_append ?_ (ih (h.after hR hfields.1) hfields.2)
    rw [Stage.handed?, Stage.handed?]
    cases step.event? 0 with
    | none => exact List.Forall₂.nil
    | some r => exact List.Forall₂.cons ⟨hnow, rfl, h.scope hR r.2⟩ List.Forall₂.nil

/-- What is true of new spans and kept by every change of a span is true of all spans around what
steps hand out. -/
theorem story_keeps {sinks : Nat} {ok : Field → Prop} {Q : Span → Prop}
    (hQ : Keeps sinks sinks ok fun s s' ↦ s' = s ∧ Q s) {stage : Stage}
    (h : ∀ s ∈ stage.spans.spans, Q s) {steps : List (Moment × Step)}
    (hfields : ∀ p ∈ steps, ∀ f ∈ p.2.spanFields, ok f) :
    ∀ p ∈ stage.story sinks steps, ∀ s ∈ p.2.scope, Q s := by
  have hsame : List.Forall₂ (fun p q ↦ True ∧ p.2 = q.2) steps steps :=
    List.forall₂_same.mpr fun _ _ ↦ ⟨trivial, rfl⟩
  have hstory := story_alike hQ (Alike.of_forall h) (fun _ _ ↦ True) hsame hfields
  intro p hp s hs
  obtain ⟨-, -, hscope⟩ := List.forall₂_same.mp hstory p hp
  exact (List.forall₂_same.mp hscope s hs).2

/-- The same steps, at any moments. -/
theorem forall₂_of_map_eq {steps steps' : List (Moment × Step)}
    (hsteps : steps.map Prod.snd = steps'.map Prod.snd) :
    List.Forall₂ (fun p q ↦ True ∧ p.2 = q.2) steps steps' := by
  rw [← List.forall₂_eq_eq_eq, List.forall₂_map_left_iff, List.forall₂_map_right_iff] at hsteps
  exact hsteps.imp fun _ _ hpq ↦ ⟨trivial, hpq⟩

/-- Steps tell the same story at other moments. -/
theorem story_agree (sinks : Nat) (stage : Stage) {steps steps' : List (Moment × Step)}
    (hsteps : steps.map Prod.snd = steps'.map Prod.snd) :
    List.Forall₂ (fun p q ↦ p.2 = q.2) (stage.story sinks steps) (stage.story sinks steps') := by
  have hstory := story_alike (keeps_eq sinks) (Alike.refl stage) (fun _ _ ↦ True)
    (forall₂_of_map_eq hsteps) fun _ _ _ _ ↦ trivial
  refine hstory.imp fun p q hpq ↦ ?_
  obtain ⟨-, hevent, hscope⟩ := hpq
  rw [List.forall₂_eq_eq_eq] at hscope
  exact Handed.ext hevent hscope

/-! ### What reaches the sinks -/

/-- From one logger to another, events have been shown on the console and written to the log file,
if there is one. -/
structure Told (files : FileTree) (l : Logger) (told : List (Moment × Handed)) (files' : FileTree)
    (l' : Logger) : Prop where
  settings : l'.settings = l.settings
  color : l'.color = l.color
  origin : l'.origin = l.origin
  console : l'.console = l.console ++ told.map l.shows
  noFile : l.file = none → files' = files ∧ l'.file = none ∧ l'.failures = l.failures
  file : ∀ f, l.file = some f → ∃ f' failures,
    LogFile.writeAll files f (told.map l.writes) = (files', f', failures) ∧
      l'.file = some f' ∧ l'.failures = l.failures ++ failures

variable {stage : Stage} {files files' files'' : FileTree} {l l' l'' : Logger}
  {told told' : List (Moment × Handed)} {now : Moment} {step : Step}

namespace Told

theorem refl (files : FileTree) (l : Logger) : Told files l [] files l :=
  ⟨rfl, rfl, rfl, by simp, fun h ↦ ⟨rfl, h, rfl⟩, fun f hf ↦ ⟨f, [], rfl, hf, by simp⟩⟩

theorem shows_eq (h : Told files l told files' l') : l'.shows = l.shows := by
  funext p
  rw [Logger.shows, Logger.shows, Logger.consoleRecord, Logger.consoleRecord, h.settings, h.color,
    h.origin]

theorem writes_eq (h : Told files l told files' l') : l'.writes = l.writes := by
  funext p
  rw [Logger.writes, Logger.writes, Logger.fileRecord, Logger.fileRecord, h.settings, h.origin]

theorem structuredSinks_eq (h : Told files l told files' l') :
    l'.structuredSinks = l.structuredSinks := by
  have hfile : l'.file.isSome = l.file.isSome := by
    cases hf : l.file with
    | none => rw [(h.noFile hf).2.1]
    | some f =>
      obtain ⟨f', failures, -, hf', -⟩ := h.file f hf
      rw [hf']
      rfl
  rw [Logger.structuredSinks, Logger.structuredSinks, h.settings, hfile]

theorem trans (h : Told files l told files' l') (h' : Told files' l' told' files'' l'') :
    Told files l (told ++ told') files'' l'' := by
  refine ⟨h'.settings.trans h.settings, h'.color.trans h.color, h'.origin.trans h.origin, ?_,
    fun hf ↦ ?_, fun f hf ↦ ?_⟩
  · rw [h'.console, h.console, h.shows_eq, List.map_append, List.append_assoc]
  · obtain ⟨rfl, hf', hfailures⟩ := h.noFile hf
    obtain ⟨rfl, hf'', hfailures'⟩ := h'.noFile hf'
    exact ⟨rfl, hf'', hfailures'.trans hfailures⟩
  · obtain ⟨f', failures, hwrite, hf', hfailures⟩ := h.file f hf
    obtain ⟨f'', failures', hwrite', hf'', hfailures'⟩ := h'.file f' hf'
    rw [h.writes_eq] at hwrite'
    refine ⟨f'', failures ++ failures', ?_, hf'', ?_⟩
    · rw [List.map_append, LogFile.writeAll_append, hwrite]
      dsimp only
      rw [hwrite']
    · rw [hfailures', hfailures, List.append_assoc]

end Told

/-- An event that is admitted is told as one. -/
theorem told_of_emit (l : Logger) {e : Event} (hadmits : l.settings.level.admits e.metadata = true)
    (files : FileTree) (now : Moment) (inside : Inside) :
    Told files l [(now, ⟨e, l.spans.scope (l.locate inside)⟩)]
        (l.emit files now e inside).1 (l.emit files now e inside).2 ∧
      (l.emit files now e inside).2.spans = l.spans := by
  rw [Logger.emit, if_pos hadmits]
  dsimp only
  set scope := l.spans.scope (l.locate inside) with hscope
  cases hf : l.file with
  | none =>
    have hfile : (l.toConsole (l.consoleRecord now e scope)).file = none := hf
    rw [Logger.toFile, hfile]
    refine ⟨⟨rfl, rfl, rfl, rfl, fun _ ↦ ⟨rfl, hf, rfl⟩, fun f hf' ↦ ?_⟩, rfl⟩
    rw [hf] at hf'
    exact absurd hf' (by simp)
  | some f =>
    have hfile : (l.toConsole (l.consoleRecord now e scope)).file = some f := hf
    rw [Logger.toFile, hfile]
    dsimp only
    rcases hwrite : f.write files now.stamp (l.fileRecord now e scope).toUTF8 with
      ⟨left, f', failed⟩
    refine ⟨⟨rfl, rfl, rfl, rfl, fun hf' ↦ ?_, fun g hg ↦ ?_⟩, rfl⟩
    · rw [hf] at hf'
      exact absurd hf' (by simp)
    · rw [hf] at hg
      obtain rfl := Option.some.inj hg
      refine ⟨f', failed.toList, ?_, rfl, rfl⟩
      simp only [List.map_singleton, Logger.writes, LogFile.writeAll, hwrite, List.append_nil]

/-- A step that hands a logger an event does nothing else. -/
theorem step_of_event? {logger : Nat} {e : Event} {around : Around}
    (h : step.event? logger = some (e, around)) (s : Session) (now : Moment) :
    (s.step now step).1 = s.emit now logger e around := by
  cases step with
  | event addressee e' around' =>
    rw [Step.event?] at h
    split_ifs at h with hlogger
    simp only [Option.some.injEq, Prod.mk.injEq] at h
    obtain ⟨rfl, rfl⟩ := h
    rw [hlogger]
    rfl
  | panic addressee words site =>
    rw [Step.event?] at h
    split_ifs at h with hlogger
    simp only [Option.some.injEq, Prod.mk.injEq] at h
    obtain ⟨rfl, rfl⟩ := h
    rw [hlogger]
    rfl
  | span _ _ _ _ => exact absurd h (by simp [Step.event?])
  | request _ _ _ => exact absurd h (by simp [Step.event?])
  | enter _ => exact absurd h (by simp [Step.event?])
  | exit _ => exact absurd h (by simp [Step.event?])
  | record _ _ => exact absurd h (by simp [Step.event?])
  | close _ => exact absurd h (by simp [Step.event?])

theorem Stage.after_of_event {e : Event} {around : Around} (h : step.event? 0 = some (e, around))
    (sinks : Nat) (stage : Stage) : stage.after sinks step = stage := by
  cases step with
  | event _ _ _ => rfl
  | panic _ _ _ => rfl
  | span _ _ _ _ => exact absurd h (by simp [Step.event?])
  | request _ _ _ => exact absurd h (by simp [Step.event?])
  | enter _ => exact absurd h (by simp [Step.event?])
  | exit _ => exact absurd h (by simp [Step.event?])
  | record _ _ => exact absurd h (by simp [Step.event?])
  | close _ => exact absurd h (by simp [Step.event?])

/-- A step tells what it hands to the logger, if that is admitted, and turns one stage into the
next. -/
theorem told_of_step (stage : Stage) (files : FileTree) (l : Logger) (now : Moment) (step : Step) :
    ∃ files' l', ((stage.session files l).step now step).1 =
        (stage.after l.structuredSinks step).session files' l' ∧
      Told files l (admitted l.settings.level
        ((stage.handed? step).map fun h ↦ (now, h)).toList) files' l' := by
  cases hstep : step.event? 0 with
  | none =>
    refine ⟨files, l, stage.session_step hstep now, ?_⟩
    rw [Stage.handed?, hstep]
    exact Told.refl files l
  | some p =>
    obtain ⟨e, around⟩ := p
    have hlogger : (stage.session files l).loggers[0]? = some { l with spans := stage.spans } := rfl
    rw [step_of_event? hstep, Stage.after_of_event hstep, Stage.handed?, hstep, emit,
      hlogger]
    dsimp only [Option.map_some, Option.toList_some]
    by_cases hadmits : l.settings.level.admits e.metadata = true
    · obtain ⟨htold, hspans⟩ := told_of_emit { l with spans := stage.spans } hadmits files now
        ((stage.session files l).inside 0 around)
      rw [stage.inside_session] at htold
      set after := Logger.emit files { l with spans := stage.spans } now e
        ((stage.session files l).inside 0 around) with hafter
      refine ⟨after.1, after.2, ?_, ?_⟩
      · have hlater : stage.session after.1 after.2 = ⟨after.1, [after.2], stage.handles⟩ := by
          rw [Stage.session, Logger.with_spans_eq_self hspans]
        exact hlater.symm
      · rw [admitted, List.filter_singleton, hadmits, cond_true]
        exact ⟨htold.settings, htold.color, htold.origin, htold.console, htold.noFile, htold.file⟩
    · rw [Logger.emit, if_neg hadmits, admitted, List.filter_singleton,
        Bool.eq_false_of_not_eq_true hadmits, cond_false]
      exact ⟨files, l, rfl, Told.refl files l⟩

/-- A run tells the part of its story that the logger admits. -/
theorem told_of_run (stage : Stage) (files : FileTree) (l : Logger) (steps : List (Moment × Step)) :
    ∃ files' l', (stage.session files l).run steps =
        (stage.afterAll l.structuredSinks steps).session files' l' ∧
      Told files l (admitted l.settings.level (stage.story l.structuredSinks steps)) files' l' := by
  induction steps generalizing stage files l with
  | nil => exact ⟨files, l, rfl, Told.refl files l⟩
  | cons p rest ih =>
    obtain ⟨now, step⟩ := p
    obtain ⟨files₁, l₁, hstep, htold⟩ := told_of_step stage files l now step
    obtain ⟨files₂, l₂, hrun, htold'⟩ := ih (stage.after l.structuredSinks step) files₁ l₁
    rw [htold.structuredSinks_eq] at hrun htold'
    refine ⟨files₂, l₂, ?_, ?_⟩
    · rw [run_cons, hstep, hrun]
      rfl
    · rw [Stage.story, admitted_append]
      rw [htold.settings] at htold'
      exact htold.trans htold'

/-! ### Deliveries -/

theorem Stage.delivery?_eq (stage : Stage) (files : FileTree) (l : Logger) (now : Moment)
    (step : Step) :
    (((stage.session files l).delivery? 0 step).map fun d ↦ (now, d)).toList =
      (admitted l.settings.level ((stage.handed? step).map fun h ↦ (now, h)).toList).map
        fun p ↦ (p.1, p.2.delivery) := by
  have hlogger : (stage.session files l).loggers[0]? = some { l with spans := stage.spans } := rfl
  rw [delivery?, hlogger, Stage.handed?]
  cases step.event? 0 with
  | none => rfl
  | some p =>
    obtain ⟨e, around⟩ := p
    simp only [stage.inside_session, Option.map_some, Option.toList_some, admitted,
      List.filter_singleton]
    by_cases hadmits : l.settings.level.admits e.metadata = true
    · simp [hadmits, Handed.delivery]
    · simp [hadmits]

/-- What a run delivers is the part of its story that the logger admits. -/
theorem deliveries_eq (stage : Stage) (files : FileTree) (l : Logger)
    (steps : List (Moment × Step)) :
    (stage.session files l).deliveries 0 steps =
      (admitted l.settings.level (stage.story l.structuredSinks steps)).map
        fun p ↦ (p.1, p.2.delivery) := by
  induction steps generalizing stage files l with
  | nil => rfl
  | cons p rest ih =>
    obtain ⟨now, step⟩ := p
    obtain ⟨files', l', hstep, htold⟩ := told_of_step stage files l now step
    rw [deliveries, hstep, stage.delivery?_eq _ _ now, ih, htold.settings, htold.structuredSinks_eq,
      Stage.story, admitted_append, List.map_append]

/-- From one logger to another, deliveries have been written to the console, if it shows structured
records, and to the log file, if there is one. -/
structure Wrote (files : FileTree) (l : Logger) (ds : List (Moment × Delivery)) (files' : FileTree)
    (l' : Logger) : Prop where
  settings : l'.settings = l.settings
  origin : l'.origin = l.origin
  console : l.settings.pretty = false → l'.console = l.console ++ ds.map l.lineFor
  file : ∀ f, l.file = some f → ∃ f' failures,
    LogFile.writeAll files f (ds.map l.writeFor) = (files', f', failures) ∧
      l'.file = some f' ∧ l'.failures = l.failures ++ failures

theorem Told.wrote (h : Told files l told files' l') :
    Wrote files l (told.map fun p ↦ (p.1, p.2.delivery)) files' l' := by
  refine ⟨h.settings, h.origin, fun hpretty ↦ ?_, fun f hf ↦ ?_⟩
  · rw [h.console, List.map_map]
    exact congrArg (l.console ++ ·) (List.map_congr_left fun p _ ↦ Logger.shows_eq hpretty p)
  · rw [List.map_map]
    exact h.file f hf

/-- Stored fields stay stored, for any number of sinks. -/
theorem keeps_stored (sinks : Nat) :
    Keeps sinks sinks (fun _ ↦ True) fun s s' ↦ s' = s ∧ s.fields.Stored := by
  apply keeps_of_forall
  · intro _ fields _
    exact SpanFields.stored_ofFields fields
  · intro s hs
    exact hs
  · intro s hs fields _
    exact hs.foldl_record sinks fields

theorem Stage.allStored_story {stage : Stage} (h : stage.spans.AllStored) (sinks : Nat)
    (steps : List (Moment × Step)) :
    (stage.afterAll sinks steps).spans.AllStored ∧
      ∀ p ∈ stage.story sinks steps, p.2.delivery.AllStored := by
  have hsteps : ∀ p ∈ steps, ∀ f ∈ p.2.spanFields, True := fun _ _ _ _ ↦ trivial
  constructor
  · have hlater := (Alike.of_forall h).afterAll (keeps_stored sinks) hsteps
    exact fun s hs ↦ (List.forall₂_same.mp hlater.spans s hs).2
  · intro p hp s hs
    obtain ⟨span, hspan, rfl⟩ := List.mem_map.mp hs
    exact story_keeps (keeps_stored sinks) h hsteps p hp span hspan

/-- A run writes what the logger delivers, and the fields of all spans stay stored. -/
theorem wrote_of_run (stage : Stage) (hstored : stage.spans.AllStored) (files : FileTree) (l : Logger)
    (steps : List (Moment × Step)) :
    ∃ (later : Stage) (files' : FileTree) (l' : Logger),
      (stage.session files l).run steps = later.session files' l' ∧ later.spans.AllStored ∧
      Wrote files l ((stage.session files l).deliveries 0 steps) files' l' ∧
      ∀ d ∈ (stage.session files l).deliveries 0 steps, d.2.AllStored := by
  obtain ⟨files', l', hrun, htold⟩ := told_of_run stage files l steps
  obtain ⟨hlater, hstory⟩ := Stage.allStored_story hstored l.structuredSinks steps
  rw [deliveries_eq]
  refine ⟨_, files', l', hrun, hlater, htold.wrote, fun d hd ↦ ?_⟩
  obtain ⟨p, hp, rfl⟩ := List.mem_map.mp hd
  exact hstory p (List.mem_of_mem_filter hp)

/-- Loggers of one kind deliver the same in runs of the same steps, whatever the moments, the files
and what was written before. -/
theorem deliveries_agree {l l₂ : Logger} (hlevel : l₂.settings.level = l.settings.level)
    (hsinks : l₂.structuredSinks = l.structuredSinks) (stage : Stage) (files files₂ : FileTree)
    {steps steps₂ : List (Moment × Step)} (hsteps : steps.map Prod.snd = steps₂.map Prod.snd) :
    List.Forall₂ (fun d d₂ ↦ d.2 = d₂.2) ((stage.session files l).deliveries 0 steps)
      ((stage.session files₂ l₂).deliveries 0 steps₂) := by
  rw [deliveries_eq, deliveries_eq, hlevel, hsinks, List.forall₂_map_left_iff,
    List.forall₂_map_right_iff]
  have hstory := story_agree l.structuredSinks stage hsteps
  refine (admitted_alike (fun hpq ↦ congrArg Handed.event hpq) hstory _).imp fun p q hpq ↦ ?_
  rw [hpq]

/-- The event a step hands to the logger, if it is admitted. -/
def Step.admitted? (level : Severity) (step : Step) : Option Event :=
  match step.event? 0 with
  | some (e, _) => if level.admits e.metadata then some e else none
  | none => none

/-- The admitted part of a story are the admitted events in the order of the steps. -/
theorem events_admitted (level : Severity) (sinks : Nat) (stage : Stage)
    (steps : List (Moment × Step)) :
    (admitted level (stage.story sinks steps)).map (fun p ↦ (p.1, p.2.event)) =
      steps.filterMap fun p ↦ (p.2.admitted? level).map fun e ↦ (p.1, e) := by
  induction steps generalizing stage with
  | nil => rfl
  | cons p rest ih =>
    obtain ⟨now, step⟩ := p
    rw [Stage.story, admitted_append, List.map_append, ih, List.filterMap_cons, Step.admitted?,
      Stage.handed?]
    cases step.event? 0 with
    | none => rfl
    | some p =>
      by_cases hadmits : level.admits p.1.metadata = true
      · simp [admitted, hadmits]
      · simp [admitted, hadmits]

/-- What is delivered are the admitted events in the order of the run, each at the moment of its
step. -/
theorem events_deliveries (stage : Stage) (files : FileTree) (l : Logger)
    (steps : List (Moment × Step)) :
    (((stage.session files l).deliveries 0 steps).map fun d ↦ (d.1, d.2.event)) =
      steps.filterMap fun p ↦ (p.2.admitted? l.settings.level).map fun e ↦ (p.1, e) := by
  rw [deliveries_eq, List.map_map, ← events_admitted l.settings.level l.structuredSinks stage steps]
  rfl

end Session

end Logbook
