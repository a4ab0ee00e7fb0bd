import Logbook.FileTree
import Logbook.Rotation.BackupName

/-!
# Log files that rotate

A log file is appended to until it holds more bytes than its limit; the next write first moves it
to a backup and starts it anew, so that a write is never split over two files. Of the backups only
the newest `keep` stay, or all of them if `keep` is zero. The limit is looked at between writes, and
opening a file moves and removes nothing.

A rotation can fail midway, at the move or at the removal of old backups; the write it precedes
then fails as a whole, and the next write goes on from the state that was reached. Before the move
it is taken for granted that the file is there, that the next backup can be numbered, and that
neither a known backup nor anything else has its name. Where that is not so, the rotation is no such
failure but a panic (`WriteError.panic?`).
-/

set_option autoImplicit false
set_option relaxedAutoImplicit false

namespace Logbook

/-- The cap on the size of a log file, in megabytes, where none is set. -/
def defaultMegabytes : Nat := 100

/-- The size of a log file in bytes for a size in megabytes. Zero means the default, and a size that
does not fit in 64 bits is cut to the largest one. -/
def byteLimit (megabytes : Nat) : Nat :=
  min ((if megabytes = 0 then defaultMegabytes else megabytes) * 0x100000) 0xFFFFFFFFFFFFFFFF

theorem byteLimit_pos (megabytes : Nat) : 0 < byteLimit megabytes := by
  unfold byteLimit defaultMegabytes
  split <;> omega

/-- An open log file: the path it was opened by and where that leads to, its limit and the number of
backups to keep, the number of the file written to, the bytes written to it so far, and its backups,
newest first. -/
structure LogFile where
  path : FilePath
  directory : Place
  name : String
  limit : Nat
  keep : Nat
  handle : Option Nat
  count : Nat
  backups : List BackupName

namespace LogFile

/-- Why a log file was not opened. -/
inductive OpenError where
  | io (e : IoError)
  /-- A limit of zero bytes would rotate before every write. -/
  | zeroLimit
  deriving DecidableEq, Repr

/-- Why a write failed. -/
inductive WriteError where
  | io (e : IoError)
  /-- The number of the next backup would not fit in 64 bits. -/
  | outOfNumbers
  /-- The name of the next backup is taken by one of the known backups. -/
  | nameTaken
  /-- Something else stands at the place of the next backup. -/
  | placeTaken
  /-- The file is gone and cannot be made again. -/
  | fileGone
  deriving DecidableEq, Repr

namespace WriteError

/-- The message of a failure that is a panic, which ends the program that writes. Other failures end
no more than the write. -/
def panic? : WriteError → Option String
  | io _ => none
  | outOfNumbers => some "attempt to add with overflow"
  | nameTaken => some "assertion failed: suffix.is_none()"
  | placeTaken => some "assertion failed: !new_path.exists()"
  | fileGone => some "assertion failed: old_path.exists()"

/-- Whether a failure is a panic. -/
def isPanic (e : WriteError) : Bool :=
  e.panic?.isSome

/-- What keeps a log file from being moved to its next backup. -/
def ofMove : IoError → WriteError
  | .alreadyExists => placeTaken
  | .notFound => fileGone
  | e => io e

end WriteError

/-- The place of the file. -/
def place (f : LogFile) : Place :=
  f.directory ++ [f.name]

/-- The place of a backup. -/
def backupPlace (f : LogFile) (b : BackupName) : Place :=
  f.directory ++ [b.fileName f.name]

/-- The path by which a backup is named. -/
def backupPath (f : LogFile) (b : BackupName) : FilePath :=
  ⟨b.fileName f.path.text⟩

/-! ### Backups in order -/

/-- Adds a backup to a list that is ordered from the newest on, unless it is known already. -/
def insertBackup (b : BackupName) : List BackupName → List BackupName
  | [] => [b]
  | c :: rest =>
    if b.same c then c :: rest
    else if b.newer c then b :: c :: rest
    else c :: insertBackup b rest

/-- The backups of a log file among the files of its directory, newest first. -/
def scan (t : FileTree) (directory : Place) (name : String) : List BackupName :=
  ((t.filesIn directory).filterMap (BackupName.ofFileName? name)).foldl
    (fun known b ↦ insertBackup b known) []

/-! ### Opening -/

/-- Makes the file of a path and the directories above it where they are missing, and opens it: its
place and its number. The tree that is left also holds what was made before an error. -/
def prepare (t : FileTree) (p : FilePath) : FileTree × Except IoError (Place × Nat) :=
  match t.createParents p with
  | (made, some e) => (made, .error e)
  | (made, none) =>
    match made.openAppend p with
    | .error e => (made, .error e)
    | .ok (opened, place, id) => (opened, .ok (place, id))

/-- The log file at the place a path leads to, just opened. -/
def start (t : FileTree) (path : FilePath) (place : Place) (id limit keep : Nat) : LogFile :=
  let directory := place.dropLast
  let name := place.getLast?.getD ""
  { path, directory, name, limit, keep
    handle := some id
    count := ((t.content? place).getD ByteArray.empty).size
    backups := scan t directory name }

/-- Opens the log file of a path. A limit of zero is refused after the file has been made. -/
def openAt (t : FileTree) (p : FilePath) (limit keep : Nat) :
    FileTree × Except OpenError LogFile :=
  match prepare t p with
  | (left, .error e) => (left, .error (.io e))
  | (left, .ok (place, id)) =>
    if limit = 0 then (left, .error .zeroLimit) else (left, .ok (start left p place id limit keep))

/-! ### Writing -/

/-- Whether the path still leads to the directory of the file. A name on its own names none. -/
def hasDirectory (t : FileTree) (f : LogFile) : Bool :=
  !f.path.isBare && t.leadsToDirectory f.path.segments.dropLast

/-- Opens the file at its own place again, in a directory that is there, making it if it is
missing. -/
def reopen (t : FileTree) (f : LogFile) : FileTree × LogFile :=
  match t.node? f.place with
  | some (.file id _) => (t, { f with handle := some id })
  | some .directory => (t, { f with handle := none })
  | none =>
    let (made, id) := t.addFile f.place ByteArray.empty
    (made, { f with handle := some id })

/-- Makes sure that the file has a directory. Where the path does not lead to one, it is made anew
with all above it, and the file is opened in it; if that cannot be, there is no file any more. -/
def restore (t : FileTree) (f : LogFile) : FileTree × Option LogFile :=
  if hasDirectory t f then (t, some f)
  else
    match t.createParents f.path with
    | (made, some _) => (made, none)
    | (made, none) =>
      let (opened, f) := reopen made f
      (opened, some f)

/-- Makes sure that the file written to is the one at the log file's place, and counts its bytes
anew if it was not. -/
def settle (t : FileTree) (f : LogFile) : FileTree × LogFile :=
  if (t.node? f.place).isSome && f.handle.isSome then (t, f)
  else
    let (t, f) := reopen t f
    (t, { f with count := ((t.content? f.place).getD ByteArray.empty).size })

/-- The name of the next backup: the second it is made in, with a number above that of the newest
backup if that one has the same second. -/
def nextBackup (f : LogFile) (now : String) : BackupName :=
  match f.backups.head? with
  | some newest =>
    ⟨now, if newest.stamp = now then some (newest.number.getD 0 + 1) else none, false⟩
  | none => ⟨now, none, false⟩

/-- Removes backups, all that can be, and gives the first error. -/
def removeAll (t : FileTree) (f : LogFile) : List BackupName → FileTree × Option IoError
  | [] => (t, none)
  | b :: rest =>
    match t.removeFile (f.backupPath b) (f.backupPlace b) with
    | .ok removed => removeAll removed f rest
    | .error e =>
      let (left, _) := removeAll t f rest
      (left, some e)

/-- Removes the backups beyond those to keep, the oldest first. They are forgotten also where their
removal fails. -/
def prune (t : FileTree) (f : LogFile) : FileTree × LogFile × Option IoError :=
  if f.keep = 0 then (t, f, none)
  else
    let (left, failed) := removeAll t f (f.backups.drop f.keep).reverse
    (left, { f with backups := f.backups.take f.keep }, failed)

/-- Moves the file to a new backup, starts it anew and removes old backups. -/
def rotate (t : FileTree) (f : LogFile) (now : String) :
    FileTree × LogFile × Option WriteError :=
  match restore t f with
  | (t, none) => (t, { f with handle := none }, some .fileGone)
  | (t, some f) =>
    let (t, f) := settle t f
    let f := { f with handle := none }
    let backup := nextBackup f now
    if !backup.fitsWord then (t, f, some .outOfNumbers)
    else if f.backups.any (·.same backup) then (t, f, some .nameTaken)
    else
      match t.rename f.directory f.name (f.backupPath backup) (backup.fileName f.name) with
      | .error e => (t, f, some (.ofMove e))
      | .ok moved =>
        let f := { f with backups := insertBackup backup f.backups }
        let (fresh, f) := reopen moved f
        let (left, f, failed) := prune fresh { f with count := 0 }
        (left, f, failed.map .io)

/-- Writes bytes as a whole, after a rotation if the file holds more than its limit. An empty write
does nothing. `now` is the timestamp of the clock at that moment. -/
def write (t : FileTree) (f : LogFile) (now : String) (bytes : ByteArray) :
    FileTree × LogFile × Option WriteError :=
  if bytes.size = 0 then (t, f, none)
  else
    let (t, f, failed) := if f.limit < f.count then rotate t f now else (t, f, none)
    match failed with
    | some e => (t, f, some e)
    | none =>
      let t := match f.handle with
        | some id => t.append id bytes
        | none => t
      (t, { f with count := f.count + bytes.size }, none)

end LogFile

end Logbook
