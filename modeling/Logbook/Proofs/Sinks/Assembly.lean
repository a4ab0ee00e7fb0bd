import Logbook.Logger
import Logbook.Proofs.Rotation.Opening

/-!
# Assembling the sinks of a logger

The only step of making a logger that can fail is opening its log file, and that step is harmless
however it ends (`Logger.opening_is_harmless`): no file that is there loses or changes a byte, the
only file it can add is the empty log file itself, and what it can leave behind where it fails are
directories. The limit on the size of the file is never zero, so that the one refusal that would end
the program (`LogFile.OpenError.zeroLimit`) is out of reach.
-/

set_option autoImplicit false
set_option relaxedAutoImplicit false

namespace Logbook

open FileTree

namespace Logger

variable {t left : FileTree} {s : FileSettings}

/-- How opening a log file may end. -/
inductive Opening (t : FileTree) (s : FileSettings) : FileTree × Except SinkError LogFile → Prop
  /-- The error names the path that was set, and no file is new or changed. -/
  | refused {left : FileTree} {e : SinkError} (path : e.path = s.path)
      (files : SameFiles t left) : Opening t s (left, .error e)
  /-- The log file stands at the path that was set, with what it held before or empty; no other
  file is new or changed. Its size is limited to the megabytes that were set. -/
  | opened {left : FileTree} {f : LogFile}
      (limit : f.limit = min ((if s.maxSizeMb = 0 then 100 else s.maxSizeMb) * 2 ^ 20) (2 ^ 64 - 1))
      (keep : f.keep = s.maxBackups)
      (place : left.placeOf? ⟨s.path⟩ = some f.place)
      (content : left.content? f.place = some ((t.content? f.place).getD ByteArray.empty))
      (elsewhere : ∀ q, q ≠ f.place → left.content? q = t.content? q) : Opening t s (left, .ok f)

theorem opening_openFile (t : FileTree) (s : FileSettings) : Opening t s (openFile t s) := by
  unfold openFile
  split
  · next left e hprepare => exact .refused rfl (LogFile.sameFiles_of_prepare_error hprepare)
  · next left place id hprepare =>
    obtain ⟨directory, name, rfl, hreaches, hnode, helsewhere⟩ := LogFile.prepare_opens hprepare
    have hplace : (LogFile.start left ⟨s.path⟩ (directory ++ [name]) id (byteLimit s.maxSizeMb)
        s.maxBackups).place = directory ++ [name] := by
      simp [LogFile.place, LogFile.start]
    have hcontent : left.content? (directory ++ [name]) =
        some ((t.content? (directory ++ [name])).getD ByteArray.empty) := by
      rw [content?, hnode]
    refine .opened rfl rfl ?_ ?_ ?_ <;> rw [hplace]
    · exact hreaches.placeOf?_eq (by rw [hcontent]; rfl)
    · exact hcontent
    · exact helsewhere

/-- A log file is opened with a limit that is not refused. -/
theorem openAt_byteLimit (t : FileTree) (s : FileSettings) :
    LogFile.openAt t ⟨s.path⟩ (byteLimit s.maxSizeMb) s.maxBackups =
      ((openFile t s).1, (openFile t s).2.mapError fun e ↦ .io e.cause) := by
  have hlimit := (byteLimit_pos s.maxSizeMb).ne'
  rcases hprepare : LogFile.prepare t ⟨s.path⟩ with ⟨left, e | file⟩ <;>
    simp [LogFile.openAt, openFile, hprepare, hlimit, Except.mapError]

/-- Opening the log file and making a logger always come to an end that is no panic, and to no harm.
The limit on the size of the log file is positive; the opening that refuses a limit of zero ends
just as `openFile` does, which leaves every file as it was but for a new empty log file. A logger is
not made if and only if its settings ask for a log file that cannot be opened, and what is left is
then what that opening left. -/
theorem opening_is_harmless (t : FileTree) (settings : LoggingSettings) (color : Bool)
    (origin : Origin) :
    0 < byteLimit settings.file.maxSizeMb ∧
    LogFile.openAt t ⟨settings.file.path⟩ (byteLimit settings.file.maxSizeMb)
        settings.file.maxBackups =
      ((openFile t settings.file).1, (openFile t settings.file).2.mapError fun e ↦ .io e.cause) ∧
    Opening t settings.file (openFile t settings.file) ∧
    ((ofSettings t settings color origin).2.isOk = false ↔
      settings.file.enabled = true ∧ (openFile t settings.file).2.isOk = false) ∧
    (match ofSettings t settings color origin with
      | (left, .error e) => openFile t settings.file = (left, .error e)
      | (left, .ok l) =>
        if settings.file.enabled then
          ∃ f, openFile t settings.file = (left, .ok f) ∧ l.file = some f ∧ l.sinkCount = 2
        else left = t ∧ l.file = none ∧ l.sinkCount = 1) := by
  refine ⟨byteLimit_pos _, openAt_byteLimit t settings.file, opening_openFile t settings.file, ?_, ?_⟩
  · unfold ofSettings
    cases settings.file.enabled
    · simp [Except.isOk, Except.toBool]
    · rcases openFile t settings.file with ⟨left, _ | f⟩ <;> simp [Except.isOk, Except.toBool]
  · unfold ofSettings
    cases settings.file.enabled
    · simp [build, sinkCount]
    · rcases openFile t settings.file with ⟨left, _ | f⟩ <;> simp [build, sinkCount]

end Logger

end Logbook
