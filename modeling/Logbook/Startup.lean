import Logbook.CommandLine.Options
import Logbook.Config.Load
import Logbook.Logger
import Logbook.Net.Listener
import Logbook.TargetFilter

/-!
# Starting the service

What happens from the command line to the point where the service listens: the configuration is
loaded, options override it, the logger is made, a first record says that the service starts, and
the address to listen at is taken. The first of these that fails ends the program
(`Startup.Failure`). Overriding options are not validated again.

A filter by target, which the environment may set, decides before the logger whether an event is
let through.
-/

set_option autoImplicit false
set_option relaxedAutoImplicit false

namespace Logbook.Startup

open CommandLine (Options)

/-! ### Failures -/

/-- Why the service does not start. -/
inductive Failure where
  | config (e : Config.Error)
  | level (e : Severity.Unknown)
  | sink (e : SinkError)
  | listen (e : ListenError)
  deriving DecidableEq, Repr

/-- An error of the file system with all its parts. -/
def ioDetail (e : IoError) : String :=
  match e.code? with
  | some n =>
    "Os \x7b code: " ++ toString n ++ ", kind: " ++ e.kind ++ ", message: " ++
      Text.quoted e.reason ++ " \x7d"
  | none =>
    "Error \x7b kind: " ++ e.kind ++ ", message: " ++ Text.quoted e.reason ++ " \x7d"

/-- A setting that makes no sense, with all its parts. -/
def invalidDetail : Invalid → String
  | .bindAddress address => "InvalidBindAddress(" ++ Text.quoted address ++ ")"
  | .emptyLogPath => "EmptyLogFilePath"

/-- An error of the file system at a path, with all its parts. -/
def pathDetail (name path : String) (e : IoError) : String :=
  name ++ " \x7b path: " ++ Text.quoted path ++ ", source: " ++ ioDetail e ++ " \x7d"

namespace Failure

/-- The failure with all its parts. -/
def detail : Failure → String
  | config (.io path e) => pathDetail "Io" path e
  | config .malformed => "Parse(" ++ Text.quoted "not TOML" ++ ")"
  | config (.shape e) => "Parse(" ++ Text.quoted e.message ++ ")"
  | config (.invalid problems) =>
    "Validation([" ++ ", ".intercalate (problems.map invalidDetail) ++ "])"
  | level e => "UnknownSeverity(" ++ Text.quoted e.name ++ ")"
  | sink e => pathDetail "SinkInit" e.path e.cause
  | listen e => e.detail

/-- What the program says when it fails. -/
def message (f : Failure) : String :=
  "Error: " ++ f.detail ++ "\n"

/-- The exit status of a program that fails. -/
def status : Nat := 1

end Failure

/-! ### Settings -/

/-- The settings under the options that override them. -/
def override (o : Options) (s : ServiceSettings) : Except Failure ServiceSettings := do
  let level ← match o.level with
    | none => .ok s.logging.level
    | some name => (Severity.ofName name).mapError .level
  .ok
    { listener := { bindAddress := o.bind.getD s.listener.bindAddress }
      logging :=
        { s.logging with
          pretty := s.logging.pretty || o.pretty
          debug := s.logging.debug || o.debug
          level } }

/-- The settings the service starts with: those of the configuration, if one is named, or the
defaults, under the options. -/
def settings (t : FileTree) (o : Options) : Except Failure ServiceSettings := do
  let s ← match o.config with
    | none => .ok {}
    | some path => (Config.load t ⟨path⟩).mapError .config
  override o s

/-! ### The environment -/

/-- What the service finds around it: the files, its process, the moment, the place its first
record comes from, two variables, and whether an address can be listened at. -/
structure Environment where
  files : FileTree
  origin : Origin
  now : Moment
  site : CallSite
  /-- The filter by target, if one is set. -/
  filter : Option String
  /-- Asks for color whatever the output is, unless it is zero. -/
  forceColor : Option String
  listen : SocketAddress → Option ListenError

namespace Environment

/-- Whether labels are colored. -/
def color (env : Environment) : Bool :=
  match env.forceColor with
  | none => false
  | some v => v != "0"

/-- The filter where none is set, or one that is malformed. -/
def defaultFilter : TargetFilter :=
  [.plain (some "service_logger") (some .debug), .plain (some "tower_http") (some .debug)]

/-- The filter by target. -/
def targetFilter (env : Environment) : TargetFilter :=
  (env.filter.bind TargetFilter.read?).getD defaultFilter

end Environment

/-! ### The start -/

/-- The first record of the service. -/
def event (s : ServiceSettings) (site : CallSite) : Event where
  level := .info
  target := "service_logger"
  site := site
  fields :=
    [⟨Field.messageName, some (.shown "service-logger v0.1.0 starting")⟩,
     ⟨"min_level", some (.shown s.logging.level.text)⟩,
     ⟨"file_logging", some (.bool s.logging.file.enabled)⟩]

/-- How a start has ended: the files, the logger if one was made, and the failure if there is one.
Without a failure the service listens. -/
structure Outcome where
  files : FileTree
  logger : Option Logger
  failure : Option Failure

/-- Takes the address of the settings. -/
def listen (env : Environment) (s : ServiceSettings) : Option Failure :=
  match SocketAddress.ofText s.listener.bindAddress with
  | .error e => some (.listen e)
  | .ok a => (env.listen a).map .listen

/-- Makes the logger of the settings and delivers the first record. -/
def announce (env : Environment) (s : ServiceSettings) : FileTree × Except SinkError Logger :=
  match Logger.ofSettings env.files s.logging env.color env.origin with
  | (files, .error e) => (files, .error e)
  | (files, .ok l) =>
    let first := event s env.site
    if env.targetFilter.admits first then
      let (files, l) := l.emit files env.now first .current
      (files, .ok l)
    else (files, .ok l)

/-- Starts the service. -/
def run (env : Environment) (o : Options) : Outcome :=
  match settings env.files o with
  | .error e => ⟨env.files, none, some e⟩
  | .ok s =>
    match announce env s with
    | (files, .error e) => ⟨files, none, some (.sink e)⟩
    | (files, .ok l) => ⟨files, some l, listen env s⟩

end Logbook.Startup
