import Logbook.Proofs.Record.Agreement
import Logbook.Proofs.Rotation.Latest
import Logbook.Proofs.Sinks.Records

/-!
# The console and the log file tell the same story

A logger with a console for people and a log file tells every admitted event twice, on a line and in
a structured record. Whatever spans are made, given fields, entered, left and let go, the pairs on
the line and the keys of the record say the same (`same_story`): this holds of each span, because
every step that gives it fields adds them to both of its forms (`keeps_agree`), and so of all spans
around an event.

Bytes on a span are the exception. They are shown in hexadecimal on the line and as numbers in the
record (`not_same_story_bytes`).
-/

set_option autoImplicit false
set_option relaxedAutoImplicit false

namespace Logbook.Session

open Structured

/-- The two forms of the fields of a span stay in agreement. -/
theorem keeps_agree {sinks : Nat} (hsinks : 0 < sinks) :
    Keeps sinks sinks Field.Uniform fun s s' ↦ s' = s ∧ Agree s.text s.fields := by
  apply keeps_of_forall
  · intro _ fields hfields
    exact agree_ofFields hfields
  · intro s hs
    exact hs
  · intro s hs fields hfields
    have hrecorded := hs.exact.foldl_record (fun f hf ↦ (hfields f hf).noFloat) hsinks
    rw [Span.recorded, hrecorded]
    exact hs.record hfields

/-- What is told of an admitted event comes from a step that hands it to the logger. -/
theorem exists_step_of_admitted {level : Severity} {sinks : Nat} {stage : Stage}
    {steps : List (Moment × Step)} {p : Moment × Handed}
    (hp : p ∈ admitted level (stage.story sinks steps)) :
    ∃ q ∈ steps, ∃ around, q.2.event? 0 = some (p.2.event, around) := by
  have hmem : (p.1, p.2.event) ∈
      steps.filterMap fun q ↦ (q.2.admitted? level).map fun e ↦ (q.1, e) := by
    rw [← events_admitted level sinks stage steps]
    exact List.mem_map_of_mem hp
  obtain ⟨q, hq, hevent⟩ := List.mem_filterMap.mp hmem
  obtain ⟨e, he, heq⟩ := Option.map_eq_some_iff.mp hevent
  refine ⟨q, hq, ?_⟩
  rw [Step.admitted?] at he
  cases hstep : q.2.event? 0 with
  | none =>
    rw [hstep] at he
    exact absurd he (by simp)
  | some r =>
    rw [hstep] at he
    dsimp only at he
    split_ifs at he
    obtain rfl := Option.some.inj he
    exact ⟨r.2, by rw [← (Prod.mk.inj heq).2]⟩

variable {t t₀ : FileTree} {settings : LoggingSettings} {color : Bool} {origin : Origin}
  {l₀ l : Logger} {steps : List (Moment × Step)} {f : LogFile}

/-- The record of an event that is told. -/
def recordOf (settings : LoggingSettings) (origin : Origin) (p : Moment × Handed) : Json.Object :=
  recordFor settings origin (p.1, p.2.delivery)

/-- A log file to which no write has failed stands open and holds the latest of what was told, at
least the last record, behind what was there or, after a rotation, behind nothing. -/
theorem isOpen_of_told (ht : t.WellFormed)
    (h : Logger.ofSettings t settings color origin = (t₀, .ok l₀)) (hfile : l₀.file = some f)
    {told : List (Moment × Handed)} {files : FileTree} (htold : Told t₀ l₀ told files l)
    (hfailures : l.failures = []) :
    ∃ f' id content, l.file = some f' ∧ f'.place = f.place ∧
      LogFile.IsOpen files f' LogFile.nowhere id content [] ∧
      LogFile.EndsWith ((t.content? f.place).getD ByteArray.empty) content
        (told.map fun p ↦ (lineOf (recordOf settings origin p)).toUTF8) := by
  have hline := lineFor_eq h
  obtain ⟨file, hbuild, hopened⟩ := ofSettings_eq_ok h
  obtain ⟨place, id, hprepare, hf⟩ := hopened f (by rw [← hfile, hbuild]; rfl)
  obtain ⟨f', failures, hwrites, hfile', hfailures'⟩ := htold.file f hfile
  obtain rfl : failures = [] := by
    rw [hfailures'] at hfailures
    exact (List.append_eq_nil_iff.mp hfailures).2
  have hsizes : ∀ w ∈ told.map l₀.writes, w.2.size ≠ 0 := by
    intro w hw
    obtain ⟨p, -, rfl⟩ := List.mem_map.mp hw
    exact l₀.size_writes p
  have hplace : f.place = place := hf ▸ LogFile.place_start ht hprepare _ _
  obtain ⟨next, content, hopen, hplace', hends⟩ :=
    LogFile.latest_of_writeAll ht hprepare hf hsizes hwrites
  rw [← hplace, List.map_map] at hends
  refine ⟨f', next, content, hfile', hplace', hopen, ?_⟩
  have hwritten : (Prod.snd ∘ l₀.writes) =
      fun p ↦ (lineOf (recordOf settings origin p)).toUTF8 := by
    funext p
    rw [Function.comp_apply, l₀.writes_eq, Logger.writeFor, hline, recordOf]
  rwa [hwritten] at hends

/-- A log file holds one record for each of the records that were written to it, if no write fails:
the active file ends with the latest of them. -/
theorem endsWith_of_told (ht : t.WellFormed)
    (h : Logger.ofSettings t settings color origin = (t₀, .ok l₀)) (hfile : l₀.file = some f)
    {told : List (Moment × Handed)} {files : FileTree} (htold : Told t₀ l₀ told files l)
    (hfailures : l.failures = []) :
    ∃ content, files.content? f.place = some content ∧
      LogFile.EndsWith ((t.content? f.place).getD ByteArray.empty) content
        (told.map fun p ↦ (lineOf (recordOf settings origin p)).toUTF8) := by
  obtain ⟨f', id, content, -, hplace, hopen, hends⟩ := isOpen_of_told ht h hfile htold hfailures
  exact ⟨content, hplace ▸ hopen.stands.content?_eq, hends⟩

/-- The console and the log file tell the same story. Every admitted event is told by one record on
the console and, where no write fails, by one in the log file: the active file ends with the latest
records, and if all backups are kept they hold the others. A reader of the line of an event finds
behind its title the pairs of the fields. What it finds last under a name is the value that the
record has under it, and all keys of the record but its own are found. -/
theorem same_story (ht : t.WellFormed)
    (h : Logger.ofSettings t settings color origin = (t₀, .ok l₀)) (hpretty : settings.pretty = true)
    (hfile : l₀.file = some f) (hspans : ∀ p ∈ steps, ∀ g ∈ p.2.spanFields, g.Uniform)
    (hevents : ∀ p ∈ steps, ∀ e around, p.2.event? 0 = some (e, around) → ∀ g ∈ e.fields, g.Clear)
    (hrun : ((start t₀ [l₀]).run steps).loggers = [l]) (hfailures : l.failures = []) :
    ∃ told : List (Moment × Handed),
      let files := ((start t₀ [l₀]).run steps).files
      (told.map fun p ↦ (p.1, p.2.event)) = steps.filterMap (fun p ↦
          (p.2.admitted? settings.level).map fun e ↦ (p.1, e)) ∧
        l.console = told.map l₀.shows ∧
        (∃ content, files.content? f.place = some content ∧
          LogFile.EndsWith ((t.content? f.place).getD ByteArray.empty) content
            (told.map fun p ↦ (lineOf (recordOf settings origin p)).toUTF8)) ∧
        (settings.file.maxBackups = 0 → (t.content? f.place).getD ByteArray.empty = ByteArray.empty →
          Holds t₀ files f.place (told.map (recordOf settings origin))) ∧
        ∀ p ∈ told, ∃ line,
          l₀.shows p = p.1.clock.text ++ Console.title color settings.debug p.2.event ++ line ++
            "\n" ++ (if traceLevel ≤ p.2.event.severity then Console.stack p.1 else "") ∧
          Legible (recordOf settings origin p) ∧ SaysSame line (recordOf settings origin p) := by
  have hsinks : 0 < l₀.structuredSinks := by
    rw [Logger.structuredSinks, hfile]
    exact Nat.succ_pos _
  obtain ⟨l', hrun', -, htold⟩ := told_of_start h steps
  obtain rfl : l = l' := List.singleton_inj.mp (hrun.symm.trans hrun')
  have hnone : ∀ s ∈ Stage.initial.spans.spans, Agree s.text s.fields :=
    fun _ hs ↦ absurd hs List.not_mem_nil
  have hscopes := story_keeps (keeps_agree hsinks) hnone hspans
  have hends := endsWith_of_told ht h hfile htold hfailures
  refine ⟨admitted settings.level (Stage.initial.story l₀.structuredSinks steps),
    events_admitted .., ?_, hends, fun hkeep hempty ↦ ?_, fun p hp ↦ ?_⟩
  · obtain ⟨file, rfl, -⟩ := ofSettings_eq_ok h
    exact htold.console
  · have hholds := (holds_of_run ht h hfile hkeep hempty hrun hfailures).1
    obtain ⟨file, rfl, -⟩ := ofSettings_eq_ok h
    rw [start_build, deliveries_eq, List.map_map] at hholds
    exact hholds
  · have hscope := hscopes p (List.mem_of_mem_filter hp)
    have hevent : ∀ g ∈ p.2.event.fields, g.Clear := by
      obtain ⟨q, hq, around, hstep⟩ := exists_step_of_admitted hp
      exact hevents q hq _ _ hstep
    have hrecord : recordOf settings origin p =
        record settings.debug [] p.1 p.2.event (p.2.scope.map Span.fields) := by
      have horigin : Logger.originFields settings origin = [] := if_pos hpretty
      rw [recordOf, recordFor, horigin]
      rfl
    refine ⟨Console.tail p.2.event (p.2.scope.map Span.text), ?_, ?_, ?_⟩
    · obtain ⟨file, rfl, -⟩ := ofSettings_eq_ok h
      have hshows : (Logger.build settings color origin file).shows p =
          Console.record color settings.debug p.1 p.2.event (p.2.scope.map Span.text) :=
        if_pos hpretty
      rw [hshows, Console.record_eq]
    · refine legible_recordFor fun s hs ↦ ?_
      obtain ⟨span, hspan, rfl⟩ := List.mem_map.mp hs
      exact (hscope span hspan).exact.stored
    · rw [hrecord]
      exact saysSame_record hscope hevent settings.debug p.1

/-- A console for people and a log file. -/
def prettySettings : LoggingSettings :=
  { smallSettings with pretty := true }

/-- The logger of these settings. -/
def prettyLogger : Logger :=
  .build prettySettings false smallOrigin smallLogger.file

theorem ofSettings_pretty :
    Logger.ofSettings .empty prettySettings false smallOrigin = (smallTree, .ok prettyLogger) :=
  rfl

/-- An event with a field of its own. -/
def prettyEvent : Event :=
  ⟨.info, "target", .unknown, [⟨"message", some (.str "m")⟩, ⟨"n", some (.bool true)⟩]⟩

/-- The event inside a span whose field has another value by then. -/
def prettySteps : List (Moment × Step) :=
  [(smallMoment, .span (some 0) "span" [⟨"k", some (.str "a b")⟩] .current),
    (smallMoment, .enter "span"),
    (smallMoment, .record "span" [⟨"k", some (.str "c=\"d\"")⟩]),
    (smallMoment, .event (some 0) prettyEvent .current)]

theorem clearOnSpan_k {value : FieldValue} (h : ∀ x, value ≠ .float x) :
    (Field.mk "k" (some value)).ClearOnSpan where
  noFloat := fun x hx ↦ h x (Option.some.inj hx)
  name := by simp
  early := by simp [lateKeys]
  noMessage := by simp [Field.isMessage, Field.messageName]
  plainName := List.all_eq_true.mp (show "k".toList.all Json.isPlainChar = true by decide)
  noLog := show "k".startsWith "log." = false by decide +kernel
  noRaw := show "k".startsWith "r#" = false by decide +kernel

theorem uniform_k (value : String) : (Field.mk "k" (some (.str value))).Uniform :=
  ⟨clearOnSpan_k (by simp), by simp⟩

theorem clear_prettyEvent : ∀ g ∈ prettyEvent.fields, g.Clear := by
  intro g hg
  simp only [prettyEvent, List.mem_cons, List.not_mem_nil, or_false] at hg
  rcases hg with rfl | rfl
  · exact ⟨fun _ h ↦ by simp at h, by simp, by simp [lateKeys]⟩
  · exact ⟨fun _ h ↦ by simp at h, by simp, by simp [lateKeys]⟩

theorem uniform_prettySteps : ∀ p ∈ prettySteps, ∀ g ∈ p.2.spanFields, g.Uniform := by
  intro p hp g hg
  simp only [prettySteps, List.mem_cons, List.not_mem_nil, or_false] at hp
  rcases hp with rfl | rfl | rfl | rfl <;>
    simp only [Step.spanFields, List.mem_singleton, List.not_mem_nil] at hg
  · exact hg ▸ uniform_k _
  · exact hg ▸ uniform_k _

theorem clear_prettySteps : ∀ p ∈ prettySteps, ∀ e around, p.2.event? 0 = some (e, around) →
    ∀ g ∈ e.fields, g.Clear := by
  intro p hp e around hstep g hg
  simp only [prettySteps, List.mem_cons, List.not_mem_nil, or_false] at hp
  rcases hp with rfl | rfl | rfl | rfl <;> simp [Step.event?] at hstep
  exact clear_prettyEvent g (hstep.1 ▸ hg)

/-- The record has the value that was given last. -/
theorem same_story_recorded :
    ∃ l line r, ((start smallTree [prettyLogger]).run prettySteps).loggers = [l] ∧
      l.console = ["00:00:00 AM INFO m" ++ line ++ "\n"] ∧ SaysSame line r ∧
      line = " k=\"a b\" k=\"c=\\\"d\\\"\" n=true" ∧
      (Keyed.get? r "k").map Json.Value.plainText = some "c=\"d\"" := by
  obtain ⟨l, hrun, -⟩ := told_of_start ofSettings_pretty prettySteps
  have hall : ((start smallTree [prettyLogger]).run prettySteps).loggers.map
      (fun l ↦ (l.console, l.failures)) =
        [(["00:00:00 AM INFO m" ++ " k=\"a b\" k=\"c=\\\"d\\\"\" n=true" ++ "\n"], [])] := by
    decide +kernel
  rw [hrun] at hall
  obtain ⟨hshown, hfailures⟩ := Prod.mk.inj (List.singleton_inj.mp hall)
  obtain ⟨told, htold, hconsole, -, -, hsame⟩ := same_story FileTree.wellFormed_empty
    ofSettings_pretty rfl rfl uniform_prettySteps clear_prettySteps hrun hfailures
  obtain ⟨p, rfl, hp⟩ := List.map_eq_singleton_iff.mp htold
  obtain ⟨hmoment, hevent⟩ := Prod.mk.inj hp
  obtain ⟨line, hline, -, hsays⟩ := hsame p List.mem_cons_self
  have htitle : smallMoment.clock.text ++ Console.title false false prettyEvent =
      "00:00:00 AM INFO m" := by
    decide +kernel
  have hstack : ¬ traceLevel ≤ prettyEvent.severity := by
    decide
  have htext : l.console = ["00:00:00 AM INFO m" ++ line ++ "\n"] := by
    rw [hconsole, List.map_singleton, hline, hmoment, hevent, if_neg hstack, String.append_empty]
    exact congrArg (fun head ↦ [head ++ line ++ "\n"]) htitle
  have hread : line = " k=\"a b\" k=\"c=\\\"d\\\"\" n=true" := by
    have hlines := List.singleton_inj.mp (htext.symm.trans hshown)
    exact (String.append_right_inj _).mp ((String.append_left_inj _).mp hlines)
  refine ⟨l, line, _, hrun, htext, hsays, hread, hsays.shown _ _ ?_⟩
  rw [hread]
  decide +kernel

/-- Bytes. -/
def bytesField : Field :=
  ⟨"k", some (.bytes [0x61, 0x62])⟩

/-- An event inside a span with bytes. -/
def bytesSteps : List (Moment × Step) :=
  [(smallMoment, .span (some 0) "span" [bytesField] .current),
    (smallMoment, .enter "span"),
    (smallMoment, .event (some 0) prettyEvent .current)]

/-- Of bytes on a span, the line shows the hexadecimal digits and the record has the numbers. -/
theorem not_same_story_bytes :
    ∃ l line r, ((start smallTree [prettyLogger]).run bytesSteps).loggers = [l] ∧
      l.failures = [] ∧ l.console = ["00:00:00 AM INFO m" ++ line ++ "\n"] ∧
      ((start smallTree [prettyLogger]).run bytesSteps).files.content? ["app.log"] =
        some (lineOf r).toUTF8 ∧
      bytesField.ClearOnSpan ∧ (∀ g ∈ prettyEvent.fields, g.Clear) ∧
      Keyed.last? (Console.readPairs line) "k" = some "[61 62]" ∧
      (Keyed.get? r "k").map Json.Value.plainText = some "[97,98]" ∧ ¬SaysSame line r := by
  obtain ⟨l, hrun, -⟩ := told_of_start ofSettings_pretty bytesSteps
  have hall : ((start smallTree [prettyLogger]).run bytesSteps).loggers.map
      (fun l ↦ (l.failures, l.console)) =
        [([], ["00:00:00 AM INFO m" ++ " k=\"[61 62]\" n=true" ++ "\n"])] := by
    decide +kernel
  rw [hrun] at hall
  obtain ⟨hfailures, hshown⟩ := Prod.mk.inj (List.singleton_inj.mp hall)
  have hline : Keyed.last? (Console.readPairs " k=\"[61 62]\" n=true") "k" = some "[61 62]" := by
    decide +kernel
  have hrecord : (Keyed.get? (record false [] smallMoment prettyEvent
      [SpanFields.ofFields [bytesField]]) "k").map Json.Value.plainText = some "[97,98]" := by
    decide +kernel
  refine ⟨l, _, record false [] smallMoment prettyEvent [SpanFields.ofFields [bytesField]], hrun,
    hfailures, hshown, by decide +kernel, clearOnSpan_k (by simp), clear_prettyEvent, hline, hrecord,
    fun hsays ↦ ?_⟩
  have hsame := hsays.shown _ _ hline
  rw [hrecord] at hsame
  exact absurd hsame (by decide)

end Logbook.Session
