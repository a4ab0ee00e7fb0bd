import Logbook.Config.Settings
import Logbook.Rotation.LogFile
import Logbook.Span

/-!
# Loggers

A logger has one or two sinks: the console always, and a rotating log file if that is switched on.
The console shows lines for people or structured records, the file always structured records; every
sink has the same minimum severity. Outside the form for people, structured records carry the host
and the process.

An event that is admitted goes to every sink. A write to the log file that fails is noted
(`Logger.failures`) and touches nothing else.
-/

set_option autoImplicit false
set_option relaxedAutoImplicit false

namespace Logbook

/-- The process that logs. -/
structure Origin where
  host : String
  id : Json.Integer

namespace Origin

/-- The fields of a process in structured records. -/
def fields (p : Origin) : List (String × Json.Value) :=
  [("hostname", .string p.host), ("pid", .number (.integer p.id))]

end Origin

/-- Why a sink could not be made. -/
structure SinkError where
  path : String
  cause : IoError
  deriving DecidableEq, Repr

/-- The text of the error. -/
def SinkError.message (e : SinkError) : String :=
  "failed to open log file " ++ e.path ++ ": " ++ e.cause.message

/-- The span an event or a new span lies in: the current one, none, or a given one. -/
inductive Inside where
  | current
  | nothing
  | span (id : SpanId)
  deriving DecidableEq, Repr

/-- A logger: its settings, whether labels are colored, the fields of its process, its spans, the
records delivered to the console, its log file, and the writes to it that failed. -/
structure Logger where
  settings : LoggingSettings
  color : Bool
  origin : List (String × Json.Value)
  spans : SpanTree
  console : List String
  file : Option LogFile
  failures : List LogFile.WriteError

namespace Logger

/-! ### Making a logger -/

/-- Opens the log file of the settings. -/
def openFile (t : FileTree) (s : FileSettings) : FileTree × Except SinkError LogFile :=
  match LogFile.prepare t ⟨s.path⟩ with
  | (left, .error e) => (left, .error ⟨s.path, e⟩)
  | (left, .ok (place, id)) =>
    (left, .ok (LogFile.start left ⟨s.path⟩ place id (byteLimit s.maxSizeMb) s.maxBackups))

/-- The fields of the process in the records of a logger. -/
def originFields (settings : LoggingSettings) (origin : Origin) : List (String × Json.Value) :=
  if settings.pretty then [] else origin.fields

/-- A logger with the given log file. -/
def build (settings : LoggingSettings) (color : Bool) (origin : Origin) (file : Option LogFile) :
    Logger :=
  { settings, color, origin := originFields settings origin
    spans := .empty, console := [], file, failures := [] }

/-- Makes the logger of the settings. Only opening the log file can fail. -/
def ofSettings (t : FileTree) (settings : LoggingSettings) (color : Bool) (origin : Origin) :
    FileTree × Except SinkError Logger :=
  if settings.file.enabled then
    match openFile t settings.file with
    | (left, .error e) => (left, .error e)
    | (left, .ok f) => (left, .ok (build settings color origin (some f)))
  else (t, .ok (build settings color origin none))

/-- How many sinks a logger has. -/
def sinkCount (l : Logger) : Nat :=
  1 + if l.file.isSome then 1 else 0

/-- How many of the sinks show structured records. -/
def structuredSinks (l : Logger) : Nat :=
  (if l.settings.pretty then 0 else 1) + if l.file.isSome then 1 else 0

/-! ### Records -/

/-- The record of an event on the console. -/
def consoleRecord (l : Logger) (now : Moment) (e : Event) (scope : List Span) : String :=
  if l.settings.pretty then
    Console.record l.color l.settings.debug now e (scope.map Span.text)
  else Structured.line l.settings.debug l.origin now e (scope.map Span.fields)

/-- The record of an event in the log file. -/
def fileRecord (l : Logger) (now : Moment) (e : Event) (scope : List Span) : String :=
  Structured.line l.settings.debug l.origin now e (scope.map Span.fields)

/-- The span something lies in, if any. -/
def locate (l : Logger) : Inside → Option SpanId
  | .current => l.spans.current?
  | .nothing => none
  | .span id => some id

/-- Delivers a record to the console. -/
def toConsole (l : Logger) (record : String) : Logger :=
  { l with console := l.console ++ [record] }

/-- Delivers a record to the log file, if there is one. -/
def toFile (t : FileTree) (l : Logger) (now : Moment) (record : String) : FileTree × Logger :=
  match l.file with
  | none => (t, l)
  | some f =>
    let (left, f, failed) := f.write t now.stamp record.toUTF8
    (left, { l with file := some f, failures := l.failures ++ failed.toList })

/-- Hands an event to every sink, if it is admitted. -/
def emit (t : FileTree) (l : Logger) (now : Moment) (e : Event) (inside : Inside) :
    FileTree × Logger :=
  if l.settings.level.admits e.metadata then
    let scope := l.spans.scope (l.locate inside)
    toFile t (l.toConsole (l.consoleRecord now e scope)) now (l.fileRecord now e scope)
  else (t, l)

/-- What an event leaves in the buffer in which the sinks of a thread put together their records.
Each sink empties it when its write has come to an end. One that panics leaves the record there, and
the next record that is made on the thread is put behind it. -/
def unfinished (t : FileTree) (l : Logger) (now : Moment) (e : Event) (inside : Inside) : String :=
  let after := (l.emit t now e inside).2
  if (after.failures.drop l.failures.length).any LogFile.WriteError.isPanic then
    l.fileRecord now e (l.spans.scope (l.locate inside))
  else ""

/-! ### Spans -/

/-- The key of a request's correlation field. -/
def requestKey : String := "reqId"

/-- The field of a span that tags everything inside it with a request's identifier. -/
def requestField (value : String) : Field :=
  ⟨requestKey, some (.str value)⟩

/-- What is known of that span before its field is looked at. -/
def requestData : Metadata :=
  ⟨.info, "service_logger::observability::logger", true⟩

/-- Makes a span. -/
def createSpan (l : Logger) (inside : Inside) (fields : List Field) : Logger × SpanId :=
  let (spans, id) := l.spans.create (l.locate inside) fields
  ({ l with spans }, id)

/-- Enters a span. -/
def enter (l : Logger) (id : SpanId) : Logger :=
  { l with spans := l.spans.enter id }

/-- Leaves a span. -/
def exit (l : Logger) (id : SpanId) : Logger :=
  { l with spans := l.spans.exit id }

/-- Records fields on a span. -/
def recordOn (l : Logger) (id : SpanId) (fields : List Field) : Logger :=
  { l with spans := l.spans.record id l.structuredSinks fields }

/-- Lets go of the handle of a span. -/
def release (l : Logger) (id : SpanId) : Logger :=
  { l with spans := l.spans.release id }

end Logger

/-! ### Last words -/

/-- What a program says before it ends: some fields and a message. -/
structure LastWords where
  fields : List (String × FieldValue)
  message : String

namespace LastWords

/-- The event of last words under a reserved target. -/
def event (w : LastWords) (target : String) (site : CallSite) : Event where
  level := .error
  target := target
  site := site
  fields := ⟨Field.messageName, some (.shown w.message)⟩ ::
    w.fields.map fun (name, value) ↦ ⟨name, some value⟩

/-- The event that precedes a panic. -/
def panicEvent (w : LastWords) (site : CallSite) : Event :=
  w.event Severity.panicTarget site

/-- The event that precedes the end of the process. -/
def fatalEvent (w : LastWords) (site : CallSite) : Event :=
  w.event Severity.fatalTarget site

/-- The exit status after fatal last words. -/
def fatalStatus : Nat := 1

end LastWords

end Logbook
