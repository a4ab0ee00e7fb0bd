import Logbook.Startup
import Std.Time.DateTime.Timestamp

/-!
# The program

The command line around `Startup.run`: what the start needs is read from the system beforehand, and
the records and log files it has made are written afterwards. The program ends where the service
would listen; what it does with requests from there on is `Http.serve`.
-/

set_option autoImplicit false
set_option relaxedAutoImplicit false

namespace Logbook.Program

open CommandLine (Options Refusal)

/-- Adds the file at a path to a tree, if it can be read. Other things at the path are added as a
directory. -/
def observe (t : FileTree) (path : String) : IO FileTree := do
  let p : FilePath := ⟨path⟩
  let (t, _) := t.createParents p
  try
    let content ← IO.FS.readBinFile path
    return (t.addFile p.segments content).1
  catch
    | .noFileOrDirectory .. => return t
    | _ => return t.addDirectory p.segments

/-- The files the start reads: the configuration, and the log file it names. -/
def observeAll (o : Options) : IO FileTree := do
  let t ← match o.config with
    | none => pure FileTree.empty
    | some path => observe FileTree.empty path
  match Startup.settings t o with
  | .ok s => if s.logging.file.enabled then observe t s.logging.file.path else return t
  | .error _ => return t

/-- Writes the log file of the settings, and the backups beside it, where they have changed. -/
def store (s : FileSettings) (before after : FileTree) : IO Unit := do
  let path : FilePath := ⟨s.path⟩
  let name := path.segments.getLast?.getD ""
  let directory := String.ofList (s.path.toList.take (s.path.length - name.length))
  for place in after.files do
    if place.dropLast == path.segments.dropLast then
      match after.content? place with
      | some content =>
        if some content.toList != (before.content? place).map ByteArray.toList then
          if !directory.isEmpty then IO.FS.createDirAll directory
          IO.FS.writeBinFile (directory ++ place.getLast?.getD "") content
      | none => pure ()

/-- The name of the host, if the system tells it. -/
def hostName : IO String := do
  try
    let text ← IO.FS.readFile "/etc/hostname"
    let name := String.ofList (Text.trim text.toList)
    return if name.isEmpty then "unknown" else name
  catch _ => return "unknown"

/-- The number of the process, if the system tells it. -/
def processNumber : IO Nat := do
  try
    let text ← IO.FS.readFile "/proc/self/stat"
    return ((text.splitOn " ").head?.bind String.toNat?).getD 0
  catch _ => return 0

/-- The moment it is, in universal time. -/
def moment : IO Moment := do
  let now ← Std.Time.Timestamp.now
  let millis := now.toMillisecondsSinceUnixEpoch.val.toNat
  let second := millis / 1000 % 86400
  return {
    time := .ofUInt64 millis.toUInt64
    clock := ⟨second / 3600, second / 60 % 60, second % 60, millis % 1000 * 1000000⟩
    stamp := (Timestamp.ofSeconds (millis / 1000)).text
    trace := "" }

/-- What the start finds around it. -/
def environment (files : FileTree) : IO Startup.Environment := do
  return {
    files
    origin := ⟨← hostName, .ofUInt64 (← processNumber).toUInt64⟩
    now := ← moment
    site := CallSite.unknown
    filter := ← IO.getEnv "RUST_LOG"
    forceColor := ← IO.getEnv "CLICOLOR_FORCE"
    listen := fun _ ↦ none }

/-- Starts the service under options. -/
def start (o : Options) : IO UInt32 := do
  let files ← observeAll o
  let outcome := Startup.run (← environment files) o
  if let some l := outcome.logger then
    for record in l.console do
      IO.print record
    if l.settings.file.enabled then store l.settings.file files outcome.files
  match outcome.failure with
  | none => return 0
  | some e =>
    IO.eprint e.message
    return Startup.Failure.status.toUInt32

/-- Says why there are no options. -/
def refuse (r : Refusal) : IO UInt32 := do
  match r with
  | .help => IO.print r.message
  | _ => IO.eprintln r.message
  return r.status.toUInt32

end Logbook.Program

/-- Runs the program. -/
def main (arguments : List String) : IO UInt32 := do
  match Logbook.CommandLine.Options.read arguments with
  | .ok o => Logbook.Program.start o
  | .error r => Logbook.Program.refuse r
