import Logbook.Proofs.Record.LineFeeds
import Logbook.Proofs.Sinks.InsideSpans
import Logbook.Proofs.Sinks.SameStory

/-!
# Lines for people

A step that hands a logger with a console for people an event it admits puts one text on the console
(`Session.Shows`). At every stage of a session the text a span shows is that of its history
(`follows_spanText`), and so the line of an event is known word by word: the time, the title, the
words of the spans from the outermost on, and the pairs of the event (`layout_of_run`). The words of
a span are the pairs of everything it was given, but for a word without characters for every
recording that shows nothing on a span that shows something (`stray_space_and_missing_pair`).

A line holds just the line feeds of its message and of the name of its source file
(`lineFeeds_of_run`).
-/

set_option autoImplicit false
set_option relaxedAutoImplicit false

namespace Logbook

namespace SpanTree

/-- A view of the spans of a chain, if it is known of each of them by its number. -/
theorem Lineage.map_filterMap {α : Type} {spans : List Span} {inside : Option SpanId}
    {ids : List SpanId} (h : Lineage spans inside ids) {view : Span → α} {known : SpanId → α}
    (hknown : ∀ id ∈ ids, ∀ s, spans[id]? = some s → view s = known id) :
    (ids.filterMap (spans[·]?)).map view = ids.map known := by
  induction h with
  | nothing => rfl
  | @span id s rest made _ ih =>
    rw [List.forall_mem_cons] at hknown
    rw [List.filterMap_cons_some made, List.map_cons, List.map_cons, hknown.1 s made, ih hknown.2]

end SpanTree

namespace Session

open SpanTree Console Text

/-- A step puts a text on the console of the logger. -/
def Shows (s : Session) (now : Moment) (step : Step) (text : String) : Prop :=
  ∃ l l', s.loggers = [l] ∧ (s.step now step).1.loggers = [l'] ∧ l'.console = l.console ++ [text]

/-- The text of a span is that of its history. -/
theorem follows_spanText (sinks : Nat) :
    Follows sinks (fun _ ↦ True) fun batches s ↦ s.text = spanText batches where
  made := fun _ _ _ ↦ String.empty_append.symm
  released := fun h ↦ h
  recorded := by
    intro batches s htext more _
    rw [spanText_concat, ← htext]
    rfl

variable {t t₀ : FileTree} {settings : LoggingSettings} {color : Bool} {origin : Origin}
  {l₀ : Logger} {step : Step} {e : Event} {around : Around}

/-- The record of an event on a console for people shows the spans around it by their histories. -/
theorem exists_shown (h : Logger.ofSettings t settings color origin = (t₀, .ok l₀))
    (hpretty : settings.pretty = true) (before : List (Moment × Step))
    (hstep : step.event? 0 = some (e, around)) (hadmits : settings.level ≤ e.severity)
    (now : Moment) :
    ∃ ids, ((start t₀ [l₀]).run before).Inside around ids ∧
      ((start t₀ [l₀]).run before).Shows now step (record color settings.debug now e
        (ids.reverse.map fun id ↦
          spanText (history (Stage.initial.allBatches l₀.structuredSinks before) id))) := by
  obtain ⟨l, l', hl, hl', hspans, hlocate, hsettings, -, htold⟩ :=
    told_of_event h before now hstep hadmits
  obtain ⟨l'', hl'', -, hstart⟩ := told_of_start h before
  obtain rfl := List.singleton_inj.mp (hl.symm.trans hl'')
  have hcolor : l.color = color := by
    obtain ⟨file, rfl, -⟩ := ofSettings_eq_ok h
    exact hstart.color
  obtain ⟨ids, hchain, -, hscope⟩ :=
    (Grounded.initial.afterAll l₀.structuredSinks before).exists_lineage around
  have hbears := bears_of_run (follows_spanText l₀.structuredSinks) before fun _ _ _ _ ↦ trivial
  have htexts : (ids.reverse.filterMap
      ((Stage.initial.afterAll l₀.structuredSinks before).spans.spans[·]?)).map Span.text =
        ids.reverse.map fun id ↦
          spanText (history (Stage.initial.allBatches l₀.structuredSinks before) id) := by
    rw [List.filterMap_reverse, List.map_reverse, List.map_reverse,
      hchain.map_filterMap fun id _ s hs ↦ hbears.span id s hs]
  rw [run_concat] at hl'
  refine ⟨ids, ⟨l, hl, ?_⟩, l, l', hl, hl', ?_⟩
  · rw [hspans, hlocate]
    exact hchain
  · rw [htold.console, hscope, List.map_singleton, Logger.shows, Logger.consoleRecord, hsettings,
      if_pos hpretty, hcolor, htexts]

/-! ### The layout of a line -/

/-- A line is the time, a space, the label, the call site if it is captured and known, a space, the
message, and words, each behind a space: those of the spans around the event, from the outermost on,
and then the pairs of the event. The words of a span that are not empty are the pairs of all it was
given, in order; and these are all its words if every recording on it shows a pair. -/
theorem layout_of_run (h : Logger.ofSettings t settings color origin = (t₀, .ok l₀))
    (hpretty : settings.pretty = true) (before : List (Moment × Step))
    (hstep : step.event? 0 = some (e, around)) (hadmits : settings.level ≤ e.severity)
    (now : Moment) :
    let s := (start t₀ [l₀]).run before
    let gifts := Stage.initial.allGifts l₀.structuredSinks before
    let batches := Stage.initial.allBatches l₀.structuredSinks before
    ∃ ids, s.Inside around ids ∧
      s.Shows now step (now.clock.text ++ " " ++ label color e.severity ++
        siteText settings.debug e ++ " " ++ messageText e ++
          String.join (((ids.reverse.flatMap fun id ↦ words (history batches id)) ++
            pairs e.fields).map (" " ++ ·)) ++ "\n" ++
              (if Structured.traceLevel ≤ e.severity then stack now else "")) ∧
      (∀ id, ((words (history batches id)).filter fun word ↦ word ≠ "") = pairs (given gifts id)) ∧
      ∀ id, (∀ fields ∈ (history batches id).tail, pairs fields ≠ []) →
        words (history batches id) = pairs (given gifts id) := by
  intro s gifts batches
  obtain ⟨ids, hinside, hshows⟩ := exists_shown h hpretty before hstep hadmits now
  refine ⟨ids, hinside, ?_, fun id ↦ ?_, fun id hshown ↦ ?_⟩
  · rw [Console.record_eq, title_eq, ← Function.comp_def, ← List.map_map, tail_eq,
      List.flatMap_map] at hshows
    simpa only [String.append_assoc] using hshows
  · rw [given_allGifts]
    exact filter_words _
  · rw [given_allGifts]
    exact words_eq_pairs hshown

/-- The steps before the event among those of a small run. -/
def recordedSteps : List (Moment × Step) :=
  [(smallMoment, .span (some 0) "span" [⟨"k", some (.str "a b")⟩] .current),
    (smallMoment, .enter "span"),
    (smallMoment, .record "span" [⟨"k", some (.str "")⟩])]

/-- A value and the one that is recorded over it both stand on the line. -/
theorem layout_of_run_recorded :
    ((start smallTree [prettyLogger]).run recordedSteps).Shows smallMoment
      (.event (some 0) prettyEvent .current) "00:00:00 AM INFO m k=\"a b\" k=\"\" n=true\n" := by
  obtain ⟨ids, hinside, hshows, -, hwords⟩ :=
    layout_of_run ofSettings_pretty rfl recordedSteps
      (show (Step.event (some 0) prettyEvent .current).event? 0 = _ from rfl) (by decide)
      smallMoment
  obtain rfl : ids = [0] := hinside.unique ⟨_, rfl, .span rfl .nothing⟩
  have hspan := hwords 0 (by decide)
  rw [List.reverse_singleton, List.flatMap_singleton, hspan] at hshows
  have htext : smallMoment.clock.text ++ " " ++ label false prettyEvent.severity ++
      siteText prettySettings.debug prettyEvent ++ " " ++ messageText prettyEvent ++
        String.join ((pairs (given (Stage.initial.allGifts prettyLogger.structuredSinks
          recordedSteps) 0) ++ pairs prettyEvent.fields).map (" " ++ ·)) ++ "\n" ++
            (if Structured.traceLevel ≤ prettyEvent.severity then stack smallMoment else "") =
      "00:00:00 AM INFO m k=\"a b\" k=\"\" n=true\n" := by
    decide +kernel
  rwa [htext] at hshows

/-- A name that was declared is recorded without a value. -/
def blankSteps : List (Moment × Step) :=
  [(smallMoment, .span (some 0) "span" [⟨"k", some (.str "1")⟩] .current),
    (smallMoment, .enter "span"),
    (smallMoment, .record "span" [⟨"k", none⟩])]

/-- A span that has a field named like a message. -/
def messageSteps : List (Moment × Step) :=
  [(smallMoment, .span (some 0) "span" [⟨"message", some (.str "x")⟩] .current),
    (smallMoment, .enter "span")]

/-- The line is not always the pairs of what was given. A recording that shows nothing, on a span
that shows something, leaves a second space; and a field of a span that is named like a message is
missing. -/
theorem stray_space_and_missing_pair :
    given (Stage.initial.allGifts prettyLogger.structuredSinks blankSteps) 0 =
        [⟨"k", some (.str "1")⟩, ⟨"k", none⟩] ∧
      ((start smallTree [prettyLogger]).run (blankSteps ++
        [(smallMoment, .event (some 0) prettyEvent .current)])).loggers.map Logger.console =
          [["00:00:00 AM INFO m k=1  n=true\n"]] ∧
      given (Stage.initial.allGifts prettyLogger.structuredSinks messageSteps) 0 =
        [⟨"message", some (.str "x")⟩] ∧
      ((start smallTree [prettyLogger]).run (messageSteps ++
        [(smallMoment, .event (some 0) prettyEvent .current)])).loggers.map Logger.console =
          [["00:00:00 AM INFO m n=true\n"]] :=
  ⟨rfl, by decide +kernel, rfl, by decide +kernel⟩

/-! ### Line feeds -/

/-- A line ends with a line feed, and before it there are just the line feeds of the call site and
of the message, whatever the spans and the event hold under names without line feeds. -/
theorem lineFeeds_of_run (h : Logger.ofSettings t settings color origin = (t₀, .ok l₀))
    (hpretty : settings.pretty = true) (before : List (Moment × Step))
    (hstep : step.event? 0 = some (e, around)) (hadmits : settings.level ≤ e.severity)
    (hspans : ∀ p ∈ before, ∀ f ∈ p.2.spanFields, '\n' ∉ f.name.toList)
    (hfields : ∀ f ∈ e.fields, '\n' ∉ f.name.toList) (now : Moment) :
    ∃ line, ((start t₀ [l₀]).run before).Shows now step (line ++ "\n" ++
        (if Structured.traceLevel ≤ e.severity then stack now else "")) ∧
      lineFeeds line = lineFeeds (siteText settings.debug e) + lineFeeds (messageText e) := by
  obtain ⟨ids, hinside, hshows⟩ := exists_shown h hpretty before hstep hadmits now
  rw [Console.record_eq, ← Function.comp_def, ← List.map_map] at hshows
  refine ⟨_, hshows, lineFeeds_line color settings.debug now.clock (fun batches hbatches f hf ↦ ?_)
    fun f hf ↦ lineFeeds_eq_zero_iff.mpr (hfields f hf)⟩
  obtain ⟨id, -, rfl⟩ := List.mem_map.mp hbatches
  exact lineFeeds_eq_zero_iff.mpr (forall_mem_history hspans _ _ id f hf)

/-- A span with a line feed in its value. -/
def feedSteps : List (Moment × Step) :=
  [(smallMoment, .span (some 0) "span" [⟨"k", some (.str "a\nb")⟩] .current),
    (smallMoment, .enter "span")]

/-- An event with these message and field. -/
def feedEvent (message value : String) : Event :=
  ⟨.info, "target", .unknown, [⟨"message", some (.str message)⟩, ⟨"n", some (.str value)⟩]⟩

/-- Line feeds in the values of a span and of an event do not break the line. -/
theorem lineFeeds_of_run_values :
    ∃ line, ((start smallTree [prettyLogger]).run feedSteps).Shows smallMoment
        (.event (some 0) (feedEvent "m" "c\nd") .current) (line ++ "\n") ∧ lineFeeds line = 0 := by
  obtain ⟨line, hshows, hfeeds⟩ :=
    lineFeeds_of_run ofSettings_pretty rfl feedSteps
      (show (Step.event (some 0) (feedEvent "m" "c\nd") .current).event? 0 = _ from rfl) (by decide)
      (by simp [feedSteps, Step.spanFields]) (by simp [feedEvent]) smallMoment
  have hstack : ¬ Structured.traceLevel ≤ (feedEvent "m" "c\nd").severity := by
    decide
  rw [if_neg hstack, String.append_empty] at hshows
  exact ⟨line, hshows, hfeeds.trans (by decide +kernel)⟩

/-- A message with a line feed breaks the line, and what follows begins a new one. -/
theorem message_breaks_line :
    (feedEvent "a\n00:00:00 AM PANIC b" "c").severity < .error ∧
      ((start smallTree [prettyLogger]).run [(smallMoment,
        .event (some 0) (feedEvent "a\n00:00:00 AM PANIC b" "c") .current)]).loggers.map
          Logger.console = [["00:00:00 AM INFO a\n00:00:00 AM PANIC b n=c\n"]] ∧
      lineFeeds "00:00:00 AM INFO a\n00:00:00 AM PANIC b n=c\n" = 2 := by
  refine ⟨?_, ?_, ?_⟩ <;> decide +kernel

end Session

end Logbook
