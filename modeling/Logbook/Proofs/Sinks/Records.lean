import Logbook.Proofs.Capture
import Logbook.Proofs.Sinks.Deliveries

/-!
# What the sinks of a logger hold

A logger is made from its settings and used for any number of steps. Whatever is logged, a sink of
structured records holds one line for every admitted event, in order, and every line says what its
record says (`lines_of_run`). For the console this is what a writer in memory shows; for the log
file, the lines are those of the backups and then of the active file, each of which holds whole
lines only.

Each record has the keys of its contributions in the order in which they first come, each with the
value that comes last (`record_of_run`); this needs that the fields of spans are read back without
fail in every run. The console and the log file are delivered the same records, but for what each
takes from its own moment (`sinks_agree`).
-/

set_option autoImplicit false
set_option relaxedAutoImplicit false

namespace Logbook

open Structured

/-! ### A logger that has been made -/

theorem Logger.isFlat_of_mem_originFields (settings : LoggingSettings) (origin : Origin) :
    ∀ p ∈ originFields settings origin, p.2.isFlat = true := by
  intro p hp
  rw [originFields] at hp
  split_ifs at hp
  · exact absurd hp List.not_mem_nil
  · rw [Origin.fields, List.mem_cons, List.mem_singleton] at hp
    rcases hp with rfl | rfl <;> rfl

namespace Session

variable {t t₀ : FileTree} {settings : LoggingSettings} {color : Bool} {origin : Origin}
  {l₀ l l' : Logger} {steps steps' : List (Moment × Step)} {f : LogFile}

/-- A logger is made with its log file just opened, or without one. -/
theorem ofSettings_eq_ok (h : Logger.ofSettings t settings color origin = (t₀, .ok l₀)) :
    ∃ file, l₀ = Logger.build settings color origin file ∧
      ∀ f, file = some f → ∃ place id,
        LogFile.prepare t ⟨settings.file.path⟩ = (t₀, .ok (place, id)) ∧
        f = LogFile.start t₀ ⟨settings.file.path⟩ place id (byteLimit settings.file.maxSizeMb)
          settings.file.maxBackups := by
  unfold Logger.ofSettings at h
  split_ifs at h with henabled
  · split at h
    · exact absurd (congrArg Prod.snd h) (by simp)
    next left f hopen =>
    simp only [Prod.mk.injEq, Except.ok.injEq] at h
    obtain ⟨rfl, rfl⟩ := h
    refine ⟨some f, rfl, fun g hg ↦ ?_⟩
    obtain rfl := Option.some.inj hg
    unfold Logger.openFile at hopen
    split at hopen
    · exact absurd (congrArg Prod.snd hopen) (by simp)
    next left' place id hprepare =>
    simp only [Prod.mk.injEq, Except.ok.injEq] at hopen
    obtain ⟨rfl, rfl⟩ := hopen
    exact ⟨place, id, hprepare, rfl⟩
  · simp only [Prod.mk.injEq, Except.ok.injEq] at h
    obtain ⟨-, rfl⟩ := h
    exact ⟨none, rfl, fun f hf ↦ absurd hf (by simp)⟩

/-- A logger has a log file if its settings say so. -/
theorem isSome_file (h : Logger.ofSettings t settings color origin = (t₀, .ok l₀)) :
    l₀.file.isSome = settings.file.enabled := by
  unfold Logger.ofSettings at h
  by_cases henabled : settings.file.enabled = true
  · rw [if_pos henabled] at h
    split at h
    · exact absurd (congrArg Prod.snd h) (by simp)
    · simp only [Prod.mk.injEq, Except.ok.injEq] at h
      rw [← h.2, henabled]
      rfl
  · rw [if_neg henabled] at h
    simp only [Prod.mk.injEq, Except.ok.injEq] at h
    rw [← h.2, Bool.eq_false_of_not_eq_true henabled]
    rfl

theorem start_build (t₀ : FileTree) (settings : LoggingSettings) (color : Bool) (origin : Origin)
    (file : Option LogFile) : start t₀ [Logger.build settings color origin file] =
      Stage.session ⟨.empty, []⟩ t₀ (Logger.build settings color origin file) :=
  rfl

/-- A run of a logger that has just been made tells the part of its story that the logger admits. -/
theorem told_of_start (h : Logger.ofSettings t settings color origin = (t₀, .ok l₀))
    (steps : List (Moment × Step)) :
    ∃ l, ((start t₀ [l₀]).run steps).loggers = [l] ∧
      l.spans = (Stage.initial.afterAll l₀.structuredSinks steps).spans ∧
      Told t₀ l₀ (admitted settings.level (Stage.initial.story l₀.structuredSinks steps))
        ((start t₀ [l₀]).run steps).files l := by
  obtain ⟨file, rfl, -⟩ := ofSettings_eq_ok h
  obtain ⟨files, l, hrun, htold⟩ :=
    told_of_run ⟨.empty, []⟩ t₀ (Logger.build settings color origin file) steps
  rw [start_build, hrun]
  exact ⟨_, rfl, rfl, htold.settings, htold.color, htold.origin, htold.console, htold.noFile,
    htold.file⟩

/-- A step that hands the logger an event it admits tells that event, with the spans around it. -/
theorem told_of_event (h : Logger.ofSettings t settings color origin = (t₀, .ok l₀))
    (before : List (Moment × Step)) (now : Moment) {step : Step} {e : Event} {around : Around}
    (hstep : step.event? 0 = some (e, around)) (hadmits : settings.level ≤ e.severity) :
    let stage := Stage.initial.afterAll l₀.structuredSinks before
    let s := (start t₀ [l₀]).run before
    let s' := (start t₀ [l₀]).run (before ++ [(now, step)])
    ∃ l l', s.loggers = [l] ∧ s'.loggers = [l'] ∧ l.spans = stage.spans ∧
      l.locate (s.inside 0 around) = stage.locate around ∧
      l.settings = settings ∧ l.origin = Logger.originFields settings origin ∧
      Told s.files l [(now, ⟨e, stage.spans.scope (stage.locate around)⟩)] s'.files l' := by
  intro stage s s'
  obtain ⟨file, rfl, -⟩ := ofSettings_eq_ok h
  obtain ⟨files, l, hrun, htold⟩ :=
    told_of_run .initial t₀ (Logger.build settings color origin file) before
  have hs : s = stage.session files l := hrun
  obtain ⟨files', l', hnext, htold'⟩ := told_of_step stage files l now step
  have hs' : s' = (stage.after l.structuredSinks step).session files' l' := by
    rw [← hnext, ← hs]
    exact run_concat ..
  have hsettings : l.settings = settings := htold.settings
  rw [stage.admitted_handed? hstep (hsettings ▸ hadmits)] at htold'
  rw [hs, hs']
  exact ⟨_, _, rfl, rfl, rfl, stage.inside_session around, hsettings, htold.origin, htold'.settings,
    htold'.color, htold'.origin, htold'.console, htold'.noFile, htold'.file⟩

/-- What a run of a logger that has just been made leaves. -/
theorem wrote_of_start (h : Logger.ofSettings t settings color origin = (t₀, .ok l₀))
    (steps : List (Moment × Step)) :
    ∃ l, ((start t₀ [l₀]).run steps).loggers = [l] ∧ l.spans.AllStored ∧
      Wrote t₀ l₀ ((start t₀ [l₀]).deliveries 0 steps) ((start t₀ [l₀]).run steps).files l ∧
      ∀ d ∈ (start t₀ [l₀]).deliveries 0 steps, d.2.AllStored := by
  obtain ⟨file, rfl, -⟩ := ofSettings_eq_ok h
  obtain ⟨later, files, l, hrun, hlater, hwrote, hds⟩ :=
    wrote_of_run ⟨.empty, []⟩ SpanTree.allStored_empty t₀ (Logger.build settings color origin file)
      steps
  rw [start_build, hrun]
  exact ⟨_, rfl, hlater, ⟨hwrote.settings, hwrote.origin, hwrote.console, hwrote.file⟩, hds⟩

/-- The record of a delivery of a logger with these settings. -/
def recordFor (settings : LoggingSettings) (origin : Origin) (d : Moment × Delivery) :
    Json.Object :=
  d.2.record settings.debug (Logger.originFields settings origin) d.1

theorem lineFor_eq (h : Logger.ofSettings t settings color origin = (t₀, .ok l₀)) :
    l₀.lineFor = fun d ↦ lineOf (recordFor settings origin d) := by
  obtain ⟨file, rfl, -⟩ := ofSettings_eq_ok h
  rfl

/-! ### The log file -/

theorem joined_toUTF8 (texts : List String) :
    LogFile.joined (texts.map String.toUTF8) = (String.join texts).toUTF8 := by
  induction texts using List.reverseRecOn with
  | nil => rfl
  | append_singleton texts s ih =>
    rw [List.map_append, List.map_singleton, LogFile.joined_concat, ih]
    simp

/-- Groups of values under a function come from groups of the values themselves. -/
theorem exists_groups {α β : Type} (g : α → β) {xs : List α} {groups : List (List β)}
    (h : groups.flatten = xs.map g) :
    ∃ parts : List (List α), parts.flatten = xs ∧ parts.map (List.map g) = groups := by
  induction groups generalizing xs with
  | nil =>
    obtain rfl : xs = [] := List.map_eq_nil_iff.mp h.symm
    exact ⟨[], rfl, rfl⟩
  | cons group rest ih =>
    rw [List.flatten_cons] at h
    obtain ⟨first, second, rfl, rfl, hsecond⟩ := List.map_eq_append_iff.mp h.symm
    obtain ⟨parts, rfl, rfl⟩ := ih hsecond.symm
    exact ⟨first :: parts, rfl, rfl⟩

/-- The new files of a tree, in the order in which they were made, and then the file at a place hold
the lines of records, each file some of them. -/
def Holds (origin files : FileTree) (place : Place) (records : List Json.Object) : Prop :=
  ∃ (older : List (List Json.Object)) (latest : List Json.Object),
    older.flatten ++ latest = records ∧
    (LogFile.filesWhere files (LogFile.isNew origin)).map Prod.snd =
      older.map (fun part ↦ (String.join (part.map lineOf)).toUTF8) ∧
    files.content? place = some (String.join (latest.map lineOf)).toUTF8

/-- A log file that starts with nothing in it and keeps all backups holds the lines that were
delivered, if no write failed. -/
theorem holds_of_run (ht : t.WellFormed)
    (h : Logger.ofSettings t settings color origin = (t₀, .ok l₀)) (hfile : l₀.file = some f)
    (hkeep : settings.file.maxBackups = 0)
    (hempty : (t.content? f.place).getD ByteArray.empty = ByteArray.empty)
    (hrun : ((start t₀ [l₀]).run steps).loggers = [l]) (hfailures : l.failures = []) :
    Holds t₀ ((start t₀ [l₀]).run steps).files f.place
        (((start t₀ [l₀]).deliveries 0 steps).map (recordFor settings origin)) ∧
      ∀ file ∈ LogFile.filesWhere ((start t₀ [l₀]).run steps).files (LogFile.isNew t₀),
        ∃ b, file.1 = f.backupPlace b := by
  have hline := lineFor_eq h
  obtain ⟨file, hbuild, hopened⟩ := ofSettings_eq_ok h
  obtain ⟨place, id, hprepare, hf⟩ := hopened f (by rw [← hfile, hbuild]; rfl)
  obtain ⟨l', hrun', -, hwrote, -⟩ := wrote_of_start h steps
  obtain rfl : l = l' := List.singleton_inj.mp (hrun.symm.trans hrun')
  obtain ⟨f', failures, hwrites, -, hfailures'⟩ := hwrote.file f hfile
  obtain rfl : failures = [] := by
    rw [hfailures'] at hfailures
    exact (List.append_eq_nil_iff.mp hfailures).2
  rw [hkeep] at hf
  have hplace : f.place = place := by
    rw [hf]
    exact LogFile.place_start ht hprepare _ 0
  rw [hplace] at hempty
  have hjournal := LogFile.journal_start ht hprepare hempty (byteLimit settings.file.maxSizeMb)
  rw [← hf] at hjournal
  set ds := (start t₀ [l₀]).deliveries 0 steps with hds
  have hsizes : ∀ w ∈ ds.map l₀.writeFor, w.2.size ≠ 0 := by
    intro w hw
    obtain ⟨d, -, rfl⟩ := List.mem_map.mp hw
    exact l₀.size_writeFor d
  obtain ⟨groups, hjournal', hflatten, hdirectory, hname⟩ := hjournal.writeAll hsizes hwrites
  have htexts : groups.flatten =
      (ds.map (recordFor settings origin)).map fun r ↦ (lineOf r).toUTF8 := by
    rw [hflatten, List.map_map, List.map_map]
    simp [Function.comp_def, Logger.writeFor, hline]
  obtain ⟨parts, hparts, rfl⟩ := exists_groups _ htexts
  obtain ⟨id', active, backups, hopen, hjoined, hnames⟩ := hjournal'.files
  have hplace' : f'.place = f.place := by
    rw [LogFile.place, LogFile.place, hdirectory, hname]
  have htext : ∀ part : List Json.Object, LogFile.joined (part.map fun r ↦ (lineOf r).toUTF8) =
      (String.join (part.map lineOf)).toUTF8 := by
    intro part
    rw [← joined_toUTF8, List.map_map]
    rfl
  rcases List.eq_nil_or_concat parts with rfl | ⟨older, latest, rfl⟩
  · simp at hjoined
  rw [List.concat_eq_append, List.map_append, List.map_append] at hjoined
  obtain ⟨hbackups, hactive⟩ := List.append_inj' hjoined rfl
  rw [List.concat_eq_append, List.flatten_append] at hparts
  refine ⟨⟨older, latest, ?_, ?_, ?_⟩, ?_⟩
  · rw [← hparts]
    simp
  · rw [hopen.stands.filesWhere_eq, ← hbackups, List.map_map]
    exact List.map_congr_left fun part _ ↦ htext part
  · rw [← hplace', hopen.stands.content?_eq, ← htext]
    exact congrArg some (List.singleton_inj.mp hactive).symm
  · rw [hopen.stands.filesWhere_eq]
    intro file hfile
    obtain ⟨b, hb⟩ := hnames file hfile
    refine ⟨b, ?_⟩
    rw [hb, LogFile.backupPlace, LogFile.backupPlace, hdirectory, hname]

/-! ### A small run -/

/-- Structured records on the console and in a log file. -/
def smallSettings : LoggingSettings where
  file := { enabled := true, path := "app.log" }

/-- A process. -/
def smallOrigin : Origin := ⟨"host", default⟩

/-- The tree in which the log file has been opened. -/
def smallTree : FileTree := (FileTree.empty.addFile ["app.log"] ByteArray.empty).1

/-- The logger of the settings. -/
def smallLogger : Logger :=
  .build smallSettings false smallOrigin
    (some (LogFile.start smallTree ⟨"app.log"⟩ ["app.log"] 0 (byteLimit 100) 0))

/-- An error with a line feed in its message and a field that is named like the severity. -/
def smallEvent : Event :=
  ⟨.error, "target", .unknown,
    [⟨"message", some (.str "x\ny")⟩, ⟨"level", some (.bool true)⟩]⟩

/-- A moment. -/
def smallMoment : Moment := ⟨default, default, "20240229T235959", "main"⟩

/-- The error inside a span that has line feeds in a name and in a value. -/
def smallSteps (now : Moment) : List (Moment × Step) :=
  [(now, .span (some 0) "span" [⟨"a\n", some (.str "\"\n")⟩] .current),
    (now, .enter "span"),
    (now, .event (some 0) smallEvent .current)]

theorem ofSettings_small :
    Logger.ofSettings .empty smallSettings false smallOrigin = (smallTree, .ok smallLogger) :=
  rfl

theorem failures_small {l : Logger}
    (h : ((start smallTree [smallLogger]).run (smallSteps smallMoment)).loggers = [l]) :
    l.failures = [] := by
  have hall : ((start smallTree [smallLogger]).run (smallSteps smallMoment)).loggers.map
      Logger.failures = [[]] := by decide +kernel
  rw [h] at hall
  exact List.singleton_inj.mp hall

/-! ### Lines -/

theorem legible_recordFor {d : Moment × Delivery} (hd : d.2.AllStored) :
    Legible (recordFor settings origin d) :=
  legible_record (Logger.isFlat_of_mem_originFields settings origin) hd

theorem console_of_run (h : Logger.ofSettings t settings color origin = (t₀, .ok l₀))
    (hpretty : settings.pretty = false) (hrun : ((start t₀ [l₀]).run steps).loggers = [l]) :
    l.console =
      (((start t₀ [l₀]).deliveries 0 steps).map (recordFor settings origin)).map lineOf := by
  have hline := lineFor_eq h
  obtain ⟨l', hrun', -, hwrote, -⟩ := wrote_of_start h steps
  obtain rfl : l = l' := List.singleton_inj.mp (hrun.symm.trans hrun')
  obtain ⟨file, rfl, -⟩ := ofSettings_eq_ok h
  have hnone : (Logger.build settings color origin file).console = [] := rfl
  rw [hwrote.console hpretty, hnone, hline, List.nil_append, List.map_map]
  rfl

/-- The lines of records that a console shows, when it is captured. -/
theorem lines_ofConsole_map (records : List Json.Object) :
    (Capture.ofConsole (records.map lineOf)).lines 0 =
      records.map fun r ↦ (Json.Value.object r).text := by
  have hprintable : ∀ text ∈ records.map (fun r ↦ (Json.Value.object r).chars),
      Json.Printable text := by
    intro text htext
    obtain ⟨r, -, rfl⟩ := List.mem_map.mp htext
    exact Json.printable_chars _
  have hlines := Capture.lines_ofConsole hprintable
  rw [List.map_map, List.map_map] at hlines
  exact hlines

/-- In every run of a logger each sink of structured records holds one line for every admitted
event, in order, and every line says what its record says. The console is captured as these lines
and these records; the log file, if it starts with nothing in it, keeps all backups and no write to
it fails, holds them in its backups and then in the active file, with no line in two files. -/
theorem lines_of_run (ht : t.WellFormed)
    (h : Logger.ofSettings t settings color origin = (t₀, .ok l₀))
    (steps : List (Moment × Step)) :
    let ds := (start t₀ [l₀]).deliveries 0 steps
    let records := ds.map (recordFor settings origin)
    (ds.map fun d ↦ (d.1, d.2.event)) = steps.filterMap (fun p ↦
        (p.2.admitted? settings.level).map fun e ↦ (p.1, e)) ∧
      (∀ r ∈ records, Legible r) ∧
      ∃ l, ((start t₀ [l₀]).run steps).loggers = [l] ∧
        (settings.pretty = false →
          (Capture.ofConsole l.console).contents 0 = String.join (records.map lineOf) ∧
          (Capture.ofConsole l.console).lines 0 =
            records.map (fun r ↦ (Json.Value.object r).text) ∧
          (Capture.ofConsole l.console).jsonLines 0 =
            records.map fun r ↦ .object (r.map fun p ↦ (p.1, p.2.readBack))) ∧
        ∀ f, l₀.file = some f → settings.file.maxBackups = 0 →
          (t.content? f.place).getD ByteArray.empty = ByteArray.empty → l.failures = [] →
          Holds t₀ ((start t₀ [l₀]).run steps).files f.place records ∧
            ∀ file ∈ LogFile.filesWhere ((start t₀ [l₀]).run steps).files (LogFile.isNew t₀),
              ∃ b, file.1 = f.backupPlace b := by
  intro ds records
  obtain ⟨l, hrun, -, -, hds⟩ := wrote_of_start h steps
  have hlegible : ∀ r ∈ records, Legible r := by
    intro r hr
    obtain ⟨d, hd, rfl⟩ := List.mem_map.mp hr
    exact legible_recordFor (hds d hd)
  refine ⟨?_, hlegible, l, hrun, fun hpretty ↦ ?_, fun f hfile hkeep hempty hfailures ↦ ?_⟩
  · obtain ⟨file, rfl, -⟩ := ofSettings_eq_ok h
    exact events_deliveries ⟨.empty, []⟩ t₀ (Logger.build settings color origin file) steps
  · have hlines := lines_ofConsole_map records
    rw [console_of_run h hpretty hrun]
    refine ⟨Capture.contents_ofConsole _, hlines, ?_⟩
    rw [Capture.jsonLines, hlines, List.filterMap_map, ← List.filterMap_eq_map']
    exact List.filterMap_congr fun r hr ↦ (hlegible r hr).reads
  · exact holds_of_run ht h hfile hkeep hempty hrun hfailures

/-- Four line feeds were logged, and there is one line. -/
theorem lines_of_run_small :
    ∃ l, ((start smallTree [smallLogger]).run (smallSteps smallMoment)).loggers = [l] ∧
      (Capture.ofConsole l.console).lines 0 =
        ["\x7b\"level\":true,\"time\":0,\"msg\":\"x\\ny\",\"hostname\":\"host\",\"pid\":0," ++
          "\"a\\n\":\"\\\"\\n\",\"stacktrace\":\"main\"\x7d"] ∧
      Holds smallTree ((start smallTree [smallLogger]).run (smallSteps smallMoment)).files
        ["app.log"] (((start smallTree [smallLogger]).deliveries 0 (smallSteps smallMoment)).map
          (recordFor smallSettings smallOrigin)) := by
  obtain ⟨-, -, l, hrun, hconsole, hfile⟩ :=
    lines_of_run FileTree.wellFormed_empty ofSettings_small (smallSteps smallMoment)
  refine ⟨l, hrun, (hconsole rfl).2.1.trans (by decide +kernel), ?_⟩
  exact (hfile _ rfl rfl rfl (failures_small hrun)).1

/-! ### Records -/

/-- In every run of a logger, the record of an event has the keys of what goes into it, each once,
in the order in which they first come and with the value that comes last: level, time, call site, an
empty message, the fields of the process, the fields of each span around the event, the message, the
fields of the event, and the stack. The fields of a span come in ascending order of their names,
from a text that can always be read, and every value but a float is the one that was stored. -/
theorem record_of_run (h : Logger.ofSettings t settings color origin = (t₀, .ok l₀))
    (steps : List (Moment × Step)) :
    ∃ l, ((start t₀ [l₀]).run steps).loggers = [l] ∧ l.settings = settings ∧
      l.origin = (if settings.pretty then [] else
        [("hostname", .string origin.host), ("pid", .number (.integer origin.id))]) ∧
      ∀ (inside : Inside) (e : Event) (now : Moment) (capture : Bool)
        (static : List (String × Json.Value)),
        let scope := l.spans.scope (l.locate inside)
        let spans := scope.map Span.fields
        (record capture static now e spans).KeepsLast (sources capture static now e spans) ∧
        (∀ s ∈ spans, Keyed.Ascending s ∧
          Json.read? (Json.Value.object s).text = some (.object s.readBack) ∧
          ∀ p ∈ s, p.2.isFloat = false → p.2.readBack = p.2) ∧
        line capture static now e spans =
          (Json.Value.object (record capture static now e spans)).text ++ "\n" ∧
        l.fileRecord now e scope = line settings.debug l.origin now e spans ∧
        (settings.pretty = false →
          l.consoleRecord now e scope = line settings.debug l.origin now e spans) := by
  obtain ⟨l, hrun, hstored, hwrote, -⟩ := wrote_of_start h steps
  obtain ⟨file, rfl, -⟩ := ofSettings_eq_ok h
  have hsettings : l.settings = settings := hwrote.settings
  refine ⟨l, hrun, hsettings, hwrote.origin, fun inside e now capture static ↦ ?_⟩
  intro scope spans
  have hspans : ∀ s ∈ spans, s.Stored := by
    intro s hs
    obtain ⟨span, hspan, rfl⟩ := List.mem_map.mp hs
    exact hstored.scope _ span hspan
  refine ⟨keepsLast_record hspans, fun s hs ↦ ⟨(hspans s hs).ascending, (hspans s hs).read?_text,
    fun p hp ↦ Json.readBack_of_isFlat ((hspans s hs).flat p hp)⟩, ?_, ?_, fun hpretty ↦ ?_⟩
  · rw [line_eq, lineOf, Json.Value.text, String.ofList_append]
  · rw [Logger.fileRecord, hsettings]
  · rw [Logger.consoleRecord, hsettings, if_neg (by simp [hpretty])]

/-- The field of the event stands at the place of the severity. -/
theorem record_of_run_small :
    ∃ l, ((start smallTree [smallLogger]).run (smallSteps smallMoment)).loggers = [l] ∧
      (record false l.origin smallMoment smallEvent
        ((l.spans.scope (l.locate .current)).map Span.fields)).keys =
          ["level", "time", "msg", "hostname", "pid", "a\n", "stacktrace"] := by
  obtain ⟨l, hrun, -, -, hrecord⟩ := record_of_run ofSettings_small (smallSteps smallMoment)
  refine ⟨l, hrun, (hrecord .current smallEvent smallMoment false l.origin).1.keys.trans ?_⟩
  have hkeys : ((start smallTree [smallLogger]).run (smallSteps smallMoment)).loggers.map
      (fun l ↦ ((sources false l.origin smallMoment smallEvent
        ((l.spans.scope (l.locate .current)).map Span.fields)).map Prod.fst).eraseDups) =
      [["level", "time", "msg", "hostname", "pid", "a\n", "stacktrace"]] := by decide +kernel
  rw [hrun] at hkeys
  exact List.singleton_inj.mp hkeys

/-! ### Two sinks -/

/-- The console and the log file are delivered the same records in the same order, whatever the
steps and wherever the file is rotated. Each sink takes the time and the stack at moments of its
own, those of `steps` and of `steps'`, and in nothing else do the records differ. -/
theorem sinks_agree (ht : t.WellFormed)
    (h : Logger.ofSettings t settings color origin = (t₀, .ok l₀)) (hpretty : settings.pretty = false)
    (hfile : l₀.file = some f) (hkeep : settings.file.maxBackups = 0)
    (hempty : (t.content? f.place).getD ByteArray.empty = ByteArray.empty)
    (hsteps : steps.map Prod.snd = steps'.map Prod.snd) :
    let shown := ((start t₀ [l₀]).deliveries 0 steps).map (recordFor settings origin)
    let kept := ((start t₀ [l₀]).deliveries 0 steps').map (recordFor settings origin)
    ∃ l l', ((start t₀ [l₀]).run steps).loggers = [l] ∧
      ((start t₀ [l₀]).run steps').loggers = [l'] ∧
      l.console = shown.map lineOf ∧
      (l'.failures = [] → Holds t₀ ((start t₀ [l₀]).run steps').files f.place kept) ∧
      List.Forall₂ (fun r r' ↦ ∃ (d : Delivery) (now now' : Moment),
        r = recordFor settings origin (now, d) ∧ r' = recordFor settings origin (now', d) ∧
          SameBut now now' r r') shown kept ∧
      (steps = steps' → shown = kept) := by
  intro shown kept
  obtain ⟨l, hshown, -⟩ := wrote_of_start h steps
  obtain ⟨l', hkept, -⟩ := wrote_of_start h steps'
  have hagree : List.Forall₂ (fun d d' ↦ d.2 = d'.2) ((start t₀ [l₀]).deliveries 0 steps)
      ((start t₀ [l₀]).deliveries 0 steps') := by
    obtain ⟨file, rfl, -⟩ := ofSettings_eq_ok h
    rw [start_build]
    exact deliveries_agree rfl rfl _ t₀ t₀ hsteps
  refine ⟨l, l', hshown, hkept, console_of_run h hpretty hshown,
    fun hfailures ↦ (holds_of_run ht h hfile hkeep hempty hkept hfailures).1, ?_, fun heq ↦ ?_⟩
  · rw [List.forall₂_map_left_iff, List.forall₂_map_right_iff]
    refine hagree.imp fun d d' hdd' ↦ ?_
    obtain ⟨now, d⟩ := d
    obtain ⟨now', d'⟩ := d'
    obtain rfl : d = d' := hdd'
    exact ⟨d, now, now', rfl, rfl, sameBut_record⟩
  · simp only [shown, kept, heq]

/-- The console takes another stack than the log file. -/
theorem sinks_agree_small :
    ∃ shown kept : List Json.Object,
      Holds smallTree ((start smallTree [smallLogger]).run (smallSteps smallMoment)).files
        ["app.log"] kept ∧
      List.Forall₂ (fun r r' ↦ ∃ (d : Delivery) (now now' : Moment),
        r = recordFor smallSettings smallOrigin (now, d) ∧
          r' = recordFor smallSettings smallOrigin (now', d) ∧ SameBut now now' r r') shown kept := by
  obtain ⟨l, l', -, hkept, -, hholds, hagree, -⟩ :=
    sinks_agree FileTree.wellFormed_empty ofSettings_small rfl rfl rfl rfl
      (show (smallSteps { smallMoment with trace := "console" }).map Prod.snd =
        (smallSteps smallMoment).map Prod.snd from rfl)
  exact ⟨_, _, hholds (failures_small hkept), hagree⟩

end Session

end Logbook
