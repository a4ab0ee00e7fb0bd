import Logbook.Logger

/-!
# Sessions

Several loggers over one tree of files, and what a program does with them step by step. Spans are
known by handles, names the program chooses; a handle belongs to the logger its span was made with,
and acts on that one whichever logger a step is addressed to. Making a span under a handle that is
in use lets the old one go, also where no logger sees the new one: the handle is then in use, and
nothing done with it has an effect.

A session may share its files with others (`Happening`). What happens to it is followed one thing
after the other (`after`). A write that panics ends the program, so only what happens until then is
followed in its life (`live`); every other failure of a write leaves it as it is. A run (`run`) is
what steps do that are all made.

A thread has one buffer for the records it makes, which is empty whenever a record is begun, because
it is emptied behind every write but for one that panics. What is in it then (`unfinished`) comes to
light only if another program goes on with the same thread.
-/

set_option autoImplicit false
set_option relaxedAutoImplicit false

namespace Logbook

/-- The span of a logger that a handle stands for. -/
structure HandleTarget where
  logger : Nat
  span : SpanId
  deriving DecidableEq, Repr

/-- Loggers, the files they write to, and the handles in use, each with the span it stands for if a
logger has seen that. -/
structure Session where
  files : FileTree
  loggers : List Logger
  handles : List (String × Option HandleTarget)

namespace Session

/-- The span something is said to lie in: the current one, none, or that of a handle. A handle that
is not in use, or of another logger's span, means none. -/
inductive Around where
  | current
  | nothing
  | handle (name : String)
  deriving DecidableEq, Repr

/-- One step of a program. A step that is addressed to no logger is seen by none. -/
inductive Step where
  | event (logger : Option Nat) (e : Event) (around : Around)
  | span (logger : Option Nat) (handle : String) (fields : List Field) (around : Around)
      (level : Level := .info) (target : String := "")
  | request (logger : Option Nat) (handle : String) (id : String)
  | enter (handle : String)
  | exit (handle : String)
  | record (handle : String) (fields : List Field)
  | close (handle : String)
  | panic (logger : Option Nat) (words : LastWords) (site : CallSite)

/-- What the program learns from a step. -/
inductive Reply where
  | nothing
  /-- Whether the handle is in use. -/
  | known (b : Bool)
  /-- The step ended in a panic with this message. -/
  | panicked (message : String)
  deriving DecidableEq, Repr

/-- The span a handle stands for. -/
def target? (s : Session) (handle : String) : Option HandleTarget :=
  (s.handles.lookup handle).join

/-- Whether a handle is in use. -/
def isUsed (s : Session) (handle : String) : Bool :=
  (s.handles.lookup handle).isSome

/-- What `around` means for a logger. -/
def inside (s : Session) (logger : Nat) : Around → Inside
  | .current => .current
  | .nothing => .nothing
  | .handle name =>
    match s.target? name with
    | some h => if h.logger = logger then .span h.span else .nothing
    | none => .nothing

/-- Hands an event to a logger. -/
def emit (s : Session) (now : Moment) (logger : Nat) (e : Event) (around : Around) : Session :=
  match s.loggers[logger]? with
  | none => s
  | some l =>
    let (files, l) := l.emit s.files now e (s.inside logger around)
    { s with files, loggers := s.loggers.set logger l }

/-- What an event that is handed to a logger leaves in the buffer of the thread. -/
def unfinishedBy (s : Session) (now : Moment) (logger : Nat) (e : Event) (around : Around) :
    String :=
  match s.loggers[logger]? with
  | none => ""
  | some l => l.unfinished s.files now e (s.inside logger around)

/-- Changes the logger a handle belongs to. -/
def onTarget (s : Session) (h : HandleTarget) (change : Logger → SpanId → Logger) : Session :=
  { s with loggers := s.loggers.modify h.logger fun l ↦ change l h.span }

/-- Changes the logger a handle belongs to, if a logger knows it. -/
def through (s : Session) (handle : String) (change : Logger → SpanId → Logger) : Session :=
  match s.target? handle with
  | some h => s.onTarget h change
  | none => s

/-- Lets go of a handle, if it is in use. -/
def close (s : Session) (handle : String) : Session :=
  { s.through handle Logger.release with handles := s.handles.filter fun p ↦ p.1 ≠ handle }

/-- Gives a handle to a span, or to one that no logger sees. What it stood for is let go. -/
def assign (s : Session) (handle : String) (target : Option HandleTarget) : Session :=
  let s := s.close handle
  { s with handles := (handle, target) :: s.handles }

/-- Makes a span in a logger under a handle, if the logger admits it. -/
def create (s : Session) (logger : Nat) (handle : String) (data : Metadata) (fields : List Field)
    (around : Around) : Session :=
  match s.loggers[logger]? with
  | none => s
  | some l =>
    if l.settings.level.admits data then
      let (l, id) := l.createSpan (s.inside logger around) fields
      { s with loggers := s.loggers.set logger l }.assign handle (some ⟨logger, id⟩)
    else s.assign handle none

/-- One step, at a moment. -/
def step (s : Session) (now : Moment) : Step → Session × Reply
  | .event none _ _ => (s, .nothing)
  | .event (some logger) e around => (s.emit now logger e around, .nothing)
  | .span none handle _ _ _ _ => (s.assign handle none, .nothing)
  | .span (some logger) handle fields around level target =>
    (s.create logger handle ⟨level, target, true⟩ fields around, .nothing)
  | .request none handle _ => (s.assign handle none, .nothing)
  | .request (some logger) handle id =>
    (s.create logger handle Logger.requestData [Logger.requestField id] .current, .nothing)
  | .enter handle => (s.through handle Logger.enter, .known (s.isUsed handle))
  | .exit handle => (s.through handle Logger.exit, .known (s.isUsed handle))
  | .record handle fields =>
    (s.through handle fun l id ↦ l.recordOn id fields, .known (s.isUsed handle))
  | .close handle => (s.close handle, .known (s.isUsed handle))
  | .panic none words _ => (s, .panicked words.message)
  | .panic (some logger) words site =>
    (s.emit now logger (words.panicEvent site) .current, .panicked words.message)

/-! ### What happens to a session -/

/-- Something that happens: a step of the program at a moment, or a change that somebody else makes
to the files. -/
inductive Happening where
  | step (now : Moment) (step : Step)
  | files (change : FileTree → FileTree)

/-- What happens to a session. -/
def happen (s : Session) : Happening → Session
  | .step now step => (s.step now step).1
  | .files change => { s with files := change s.files }

/-- The session after several happenings. -/
def after (s : Session) (life : List Happening) : Session :=
  life.foldl happen s

/-- Steps with nobody else at the files. -/
def undisturbed (steps : List (Moment × Step)) : List Happening :=
  steps.map fun p ↦ .step p.1 p.2

/-- The session after several steps, each at its moment. All of them are made: a program makes no
more than those up to one that panics (`live`). -/
def run (s : Session) (steps : List (Moment × Step)) : Session :=
  s.after (undisturbed steps)

/-- Whether a write to a log file has panicked. -/
def hasPanicked (s : Session) : Bool :=
  s.loggers.any fun l ↦ l.failures.any LogFile.WriteError.isPanic

/-- What happens until a write panics. -/
def untilPanic (s : Session) : List Happening → List Happening
  | [] => []
  | next :: rest => if s.hasPanicked then [] else next :: (s.happen next).untilPanic rest

/-- The session of a program that is not alone with its files, until a write ends it. -/
def live (s : Session) (life : List Happening) : Session :=
  s.after (s.untilPanic life)

/-- What a step leaves in the buffer of its thread. -/
def unfinished (s : Session) (now : Moment) : Step → String
  | .event (some logger) e around => s.unfinishedBy now logger e around
  | .panic (some logger) words site => s.unfinishedBy now logger (words.panicEvent site) .current
  | _ => ""

/-! ### Beginning -/

/-- Why a session could not begin. -/
abbrev OpenError := SinkError

/-- Makes the loggers of several settings one after the other over one tree of files. -/
def openAll (t : FileTree) (color : Bool) (origin : Origin) :
    List LoggingSettings → FileTree × Except OpenError (List Logger)
  | [] => (t, .ok [])
  | settings :: rest =>
    match Logger.ofSettings t settings color origin with
    | (left, .error e) => (left, .error e)
    | (left, .ok l) =>
      match openAll left color origin rest with
      | (all, .error e) => (all, .error e)
      | (all, .ok ls) => (all, .ok (l :: ls))

/-- The session that begins with the given loggers. -/
def start (t : FileTree) (loggers : List Logger) : Session :=
  ⟨t, loggers, []⟩

end Session

end Logbook
