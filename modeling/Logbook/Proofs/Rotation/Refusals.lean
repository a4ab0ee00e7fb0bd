import Logbook.Proofs.Rotation.Removals

/-!
# Names that leave no room for a backup

Opening a log file tries its own name and path only. A backup has a longer name in the same
directory and a longer path, so there are names under which a log file can be opened and filled but
not rotated. Nothing else can go wrong with texts that are written one after the other, in a
directory without backups and with a clock that does not go backwards (`refuses_long_names`): a
write fails exactly if the file is full and the name or the path of the next backup is too long
(`refusal?`), it then leaves all files as they are (`Refuses`), and the files hold all the texts
whose writes have not failed (`Accepts`).

The names and paths of backups grow by a timestamp and a number (`utf8ByteSize_nth`). A name of up
to 218 bytes under a path of up to 4058 has room for both, and no write fails; a name of more than
239 or a path of more than 4079 has room for neither (`Ready.refusal?_of_lt`), and a log file that
is full stays so.
-/

set_option autoImplicit false
set_option relaxedAutoImplicit false

namespace Logbook

open Decimal

/-! ### The size of a name -/

theorem utf8ByteSize_ofList_of_ascii {cs : List Char} (h : ∀ c ∈ cs, c.toNat ≤ 127) :
    (String.ofList cs).utf8ByteSize = cs.length := by
  induction cs with
  | nil => rfl
  | cons c rest ih =>
    have hsize : c.utf8Size = 1 :=
      Char.utf8Size_eq_one_iff.mpr (UInt32.le_iff_toNat_le.mpr (h c List.mem_cons_self))
    rw [String.ofList_cons, String.utf8ByteSize_append, String.utf8ByteSize_singleton, hsize,
      ih fun d hd ↦ h d (List.mem_cons_of_mem c hd), List.length_cons, Nat.add_comm]

theorem toNat_le_of_isDigit {c : Char} (h : isDigit c = true) : c.toNat ≤ 127 := by
  have hnine := ((isDigit_iff c).mp h).2
  have hvalue : '9'.toNat = 57 := rfl
  omega

/-- A reading is written with fifteen bytes. -/
theorem Timestamp.utf8ByteSize_text {t : Timestamp} (h : t.IsReading) :
    t.text.utf8ByteSize = 15 := by
  obtain ⟨hyear, hmonth, hday, hhour, hminute, hsecond⟩ := h.bounds
  have hascii : ∀ c ∈ t.text.toList, c.toNat ≤ 127 := by
    intro c hc
    rcases isDigit_or_mark_of_mem_text hc with hdigit | rfl
    · exact toNat_le_of_isDigit hdigit
    · decide
  rw [← String.ofList_toList (s := t.text), utf8ByteSize_ofList_of_ascii hascii]
  have hmark : "T".toList.length = 1 := rfl
  simp only [text, String.toList_append, List.length_append, hmark,
    length_padded (by decide : 0 < 4) hyear, length_padded (by decide : 0 < 2) hmonth,
    length_padded (by decide : 0 < 2) hday, length_padded (by decide : 0 < 2) hhour,
    length_padded (by decide : 0 < 2) hminute, length_padded (by decide : 0 < 2) hsecond]

namespace BackupName

variable {now : Timestamp} {k : Nat} {path : FilePath} {name : String}

/-- The name of a backup is that of the log file with a point, a timestamp and, from the second one
of a second on, a point and a number. -/
theorem utf8ByteSize_nth (hnow : now.IsReading) (k : Nat) (name : String) :
    ((nth now.text k).fileName name).utf8ByteSize = name.utf8ByteSize + 16 +
      if k = 0 then 0 else 1 + (Nat.toDigits 10 k).length := by
  have hpoint : ".".utf8ByteSize = 1 := rfl
  have hstamp := Timestamp.utf8ByteSize_text hnow
  by_cases hk : k = 0
  · simp [nth, fileName, hk, String.utf8ByteSize_append, hpoint, hstamp]
  · have hdigits : k.repr.utf8ByteSize = (Nat.toDigits 10 k).length :=
      utf8ByteSize_ofList_of_ascii fun c hc ↦ toNat_le_of_isDigit (isDigit_of_mem_toDigits hc)
    simp [nth, fileName, hk, String.utf8ByteSize_append, hpoint, hstamp, hdigits]

/-- A timestamp and a number that is a machine word take up to 37 bytes. -/
theorem utf8ByteSize_nth_le (hnow : now.IsReading) (hk : k < UInt64.size) (name : String) :
    ((nth now.text k).fileName name).utf8ByteSize ≤ name.utf8ByteSize + 37 := by
  have hdigits : (Nat.toDigits 10 k).length ≤ 20 :=
    (Nat.length_toDigits_le_iff (b := 10) (by decide) (by decide)).mpr
      (hk.trans (by decide : UInt64.size < 10 ^ 20))
  rw [utf8ByteSize_nth hnow]
  split_ifs <;> omega

/-- There is room for a timestamp and for any number that is a machine word. -/
theorem isLong_nth_of_le (hnow : now.IsReading) (hk : k < UInt64.size)
    (hname : name.utf8ByteSize ≤ 218) (hpath : path.text.utf8ByteSize ≤ 4058) :
    (nth now.text k).isLong path name = false := by
  have hshort := utf8ByteSize_nth_le hnow hk name
  have hshort' := utf8ByteSize_nth_le hnow hk path.text
  rw [isLong, FilePath.isLongName, FilePath.isLong, FilePath.maxName, FilePath.maxLength,
    Bool.or_eq_false_iff, decide_eq_false_iff_not, decide_eq_false_iff_not]
  dsimp only
  omega

/-- There is no room for a timestamp. -/
theorem isLong_nth_of_lt (hnow : now.IsReading)
    (hlong : 239 < name.utf8ByteSize ∨ 4079 < path.text.utf8ByteSize) :
    (nth now.text k).isLong path name = true := by
  have hname := utf8ByteSize_nth hnow k name
  have hpath := utf8ByteSize_nth hnow k path.text
  rw [isLong, FilePath.isLongName, FilePath.isLong, FilePath.maxName, FilePath.maxLength,
    Bool.or_eq_true, decide_eq_true_iff, decide_eq_true_iff]
  dsimp only
  omega

end BackupName

namespace LogFile

open FileTree

variable {t t' made : FileTree} {f f' : LogFile} {id limit keep : Nat} {active bytes : ByteArray}
  {backups : Backups} {past : List Timestamp} {now : Timestamp} {failed : Option WriteError}
  {u : Upkeep} {l : Ledger} {writes done : List (Timestamp × ByteArray)}

/-! ### One write -/

/-- Why a write fails: there is something to write, the file is full, and the name or the path of
the next backup is too long. -/
def refusal? (t : FileTree) (f : LogFile) (now : Timestamp) (bytes : ByteArray) :
    Option WriteError :=
  if bytes.size ≠ 0 ∧ f.limit < ((t.content? f.place).getD ByteArray.empty).size ∧
      (nextBackup f now.text).isLong f.path f.name = true then
    some (.io .nameTooLong)
  else none

/-- A log file that knows its backups, none of which is newer than the clock. It is open, or it has
just been refused a rotation. -/
structure Ready (past : List Timestamp) (t : FileTree) (f : LogFile) (id : Nat)
    (active : ByteArray) (backups : Backups) : Prop where
  archive : Archive past t f.path f.directory f.name id active backups
  known : f.backups = (backups.map Prod.fst).reverse
  count : f.count = active.size
  handle : f.handle = some id ∨ f.handle = none ∧ f.limit < active.size

namespace Ready

theorem steady (h : Ready past t f id active backups) : Steady t f id active :=
  ⟨h.archive.stands.wellFormed, h.archive.reaches, h.archive.stands.node?_eq, h.count, h.handle⟩

theorem follows (h : Ready past t f id active backups) :
    Follows (f.reopened id) id active backups :=
  ⟨rfl, h.count, h.known⟩

/-- Time passes and nothing else happens. -/
theorem later (h : Ready past t f id active backups) (now : Timestamp) :
    Ready (past ++ [now]) t f id active backups :=
  { h with archive := h.archive.later now }

end Ready

/-- A write opens the file again before it does anything else. -/
theorem Steady.write_reopened (h : Steady t f id active) (hbytes : bytes.size ≠ 0)
    (now : Timestamp) :
    LogFile.write t f now.text bytes = LogFile.write t (f.reopened id) now.text bytes := by
  by_cases hlimit : f.limit < active.size
  · have hfull : f.limit < f.count := by rwa [h.count]
    have hfull' : (f.reopened id).limit < (f.reopened id).count := hfull
    rw [LogFile.write, LogFile.write, if_neg hbytes, if_neg hbytes, if_pos hfull, if_pos hfull',
      h.rotate_reopened]
  · have hhandle : f.handle = some id := h.handle.resolve_right fun hclosed ↦ hlimit hclosed.2
    have hf : f.reopened id = f := by rw [LogFile.reopened, ← hhandle]
    rw [hf]

/-- A full log file whose next backup has too long a name cannot be rotated. -/
theorem Ready.write_of_long (h : Ready past t f id active backups) (hnow : now.IsReading)
    (hpast : ∀ s ∈ past, s.IsReading ∧ s ≤ now) (hwords : (past ++ [now]).count now ≤ UInt64.size)
    (hbytes : bytes.size ≠ 0) (hlimit : f.limit < active.size)
    (hlong : (nextBackup f now.text).isLong f.path f.name = true) :
    LogFile.write t f now.text bytes = (t, { f with handle := none }, some (.io .nameTooLong)) := by
  obtain ⟨k, hk, hnext, -, hsame⟩ := h.archive.exists_next h.known hnow hpast
  have hfits : (nextBackup f now.text).fitsWord = true := by
    rw [hnext]
    exact BackupName.fitsWord_nth now.text (hk.trans_le hwords)
  have hobstacle : obstacle? t f now.text = some (.io .nameTooLong) := by
    rw [obstacle?, if_neg (by simp [hfits]), if_neg (by simp [hsame]), if_pos hlong]
  have hfull : f.limit < f.count := by rwa [h.count]
  rw [LogFile.write, if_neg hbytes, if_pos hfull, h.steady.rotate_of_obstacle hobstacle]

/-- What a write does to a log file that knows its backups: it fails only where it is refused, it
then leaves the files, and otherwise it changes their bytes as the ledger says. -/
theorem Ready.write (h : Ready past t f id active backups) (hnow : now.IsReading)
    (hpast : ∀ s ∈ past, s.IsReading ∧ s ≤ now) (hwords : (past ++ [now]).count now ≤ UInt64.size)
    (hwrite : LogFile.write t f now.text bytes = (t', f', failed))
    (hactive : l.active = active) (hbackups : l.backups = backups.map Prod.snd)
    (hlimits : l.limits = some (f.limit, f.keep)) :
    failed = refusal? t f now bytes ∧ (failed.isSome = true → t' = t) ∧
      (f'.path = f.path ∧ f'.directory = f.directory ∧ f'.name = f.name ∧ f'.limit = f.limit ∧
        f'.keep = f.keep) ∧
      ∃ id' backups', Ready (past ++ [now]) t' f' id'
          (if failed.isSome then l else l.step (.write now bytes)).active backups' ∧
        (if failed.isSome then l else l.step (.write now bytes)).backups =
          backups'.map Prod.snd ∧
        (if failed.isSome then l else l.step (.write now bytes)).limits = l.limits := by
  have hsteady := h.steady
  have hcontent : (t.content? f.place).getD ByteArray.empty = active := by
    rw [content?, hsteady.node]
    rfl
  have hstep : l.step (.write now bytes) =
      if bytes.size = 0 then l else l.put f.limit f.keep bytes := by
    simp only [Ledger.step, hlimits]
  rw [refusal?, hcontent]
  by_cases hbytes : bytes.size = 0
  · rw [LogFile.write, if_pos hbytes, Prod.mk.injEq, Prod.mk.injEq] at hwrite
    obtain ⟨rfl, rfl, rfl⟩ := hwrite
    rw [if_neg (fun hrefused ↦ hrefused.1 hbytes), hstep, if_pos hbytes]
    refine ⟨rfl, fun _ ↦ rfl, ⟨rfl, rfl, rfl, rfl, rfl⟩, id, backups, ?_, ?_, rfl⟩
    · simpa [hactive] using h.later now
    · simpa using hbackups
  rw [hstep, if_neg hbytes]
  by_cases hlong : f.limit < active.size ∧ (nextBackup f now.text).isLong f.path f.name = true
  · rw [h.write_of_long hnow hpast hwords hbytes hlong.1 hlong.2, Prod.mk.injEq,
      Prod.mk.injEq] at hwrite
    obtain ⟨rfl, rfl, rfl⟩ := hwrite
    rw [if_pos ⟨hbytes, hlong⟩]
    refine ⟨rfl, fun _ ↦ rfl, ⟨rfl, rfl, rfl, rfl, rfl⟩, id, backups, ?_, ?_, rfl⟩
    · rw [if_pos (by rfl), hactive]
      exact { h.later now with handle := Or.inr ⟨rfl, hlong.1⟩ }
    · simpa using hbackups
  · have hshort : f.limit < active.size →
        (nextBackup f now.text).isLong f.path f.name = false :=
      fun hlimit ↦ Bool.eq_false_iff.mpr fun htrue ↦ hlong ⟨hlimit, htrue⟩
    obtain ⟨left, next, kept, hput, harchive, hkept, -⟩ :=
      Archive.write_of_short (f := f.reopened id) h.archive h.follows hnow hpast hwords
        hshort hbytes hactive hbackups
    rw [hsteady.write_reopened hbytes, hput, Prod.mk.injEq, Prod.mk.injEq] at hwrite
    obtain ⟨rfl, rfl, rfl⟩ := hwrite
    rw [if_neg fun hrefused ↦ hlong hrefused.2]
    refine ⟨rfl, fun hsome ↦ absurd hsome (by simp), ⟨rfl, rfl, rfl, rfl, rfl⟩, next, kept, ?_,
      hkept, ?_⟩
    · exact ⟨harchive, rfl, rfl, Or.inl rfl⟩
    · unfold Ledger.put
      split_ifs <;> rfl

/-- A name and a path that leave room for every backup let no write fail. -/
theorem Ready.refusal?_of_le (h : Ready past t f id active backups) (hnow : now.IsReading)
    (hpast : ∀ s ∈ past, s.IsReading ∧ s ≤ now) (hwords : (past ++ [now]).count now ≤ UInt64.size)
    (hname : f.name.utf8ByteSize ≤ 218) (hpath : f.path.text.utf8ByteSize ≤ 4058)
    (bytes : ByteArray) : refusal? t f now bytes = none := by
  obtain ⟨k, hk, hnext, -, -⟩ := h.archive.exists_next h.known hnow hpast
  refine if_neg ?_
  rintro ⟨-, -, hlong⟩
  rw [hnext, BackupName.isLong_nth_of_le hnow (hk.trans_le hwords) hname hpath] at hlong
  exact absurd hlong Bool.false_ne_true

/-- Under a name or a path that leaves no room for any backup a log file that is full stays so. -/
theorem Ready.refusal?_of_lt (h : Ready past t f id active backups) (hnow : now.IsReading)
    (hpast : ∀ s ∈ past, s.IsReading ∧ s ≤ now)
    (hname : 239 < f.name.utf8ByteSize ∨ 4079 < f.path.text.utf8ByteSize)
    (hbytes : bytes.size ≠ 0) (hlimit : f.limit < active.size) :
    refusal? t f now bytes = some (.io .nameTooLong) := by
  obtain ⟨k, -, hnext, -, -⟩ := h.archive.exists_next h.known hnow hpast
  refine if_pos ⟨hbytes, ?_, ?_⟩
  · rw [content?, h.steady.node]
    exact hlimit
  · rw [hnext]
    exact BackupName.isLong_nth_of_lt hnow hname

/-! ### Every run -/

/-- Writes as turns. -/
def turns (writes : List (Timestamp × ByteArray)) : List Turn :=
  writes.map fun w ↦ .write w.1 w.2

/-- The writes that have not failed. -/
def succeeded (writes : List (Timestamp × ByteArray)) (outcomes : List (Option WriteError)) :
    List Action :=
  (writes.zip outcomes).filterMap fun w ↦
    if w.2.isSome then none else some (.write w.1.1 w.1.2)

theorem succeeded_concat {outcomes : List (Option WriteError)}
    (hlength : writes.length = outcomes.length) :
    succeeded (writes ++ [(now, bytes)]) (outcomes ++ [failed]) =
      succeeded writes outcomes ++ if failed.isSome then [] else [.write now bytes] := by
  rw [succeeded, List.zip_append hlength, List.filterMap_append, succeeded]
  cases failed <;> rfl

/-- The readings of the clock at writes. -/
def seconds (writes : List (Timestamp × ByteArray)) : List Timestamp :=
  writes.map Prod.fst

/-- A log file that is written to knows its backups, and the files are those of a ledger. -/
structure Upkeep.Matches (f : LogFile) (past : List Timestamp) (u : Upkeep) (l : Ledger) : Prop where
  path : u.file.path = f.path
  directory : u.file.directory = f.directory
  name : u.file.name = f.name
  limit : u.file.limit = f.limit
  limits : l.limits = some (u.file.limit, u.file.keep)
  ready : ∃ id backups, Ready past u.files u.file id l.active backups ∧
    l.backups = backups.map Prod.snd

/-- A write fails only where it is refused, and the ledger is that of the other writes. -/
theorem Upkeep.Matches.write (h : u.Matches f past l) (hnow : now.IsReading)
    (hpast : ∀ s ∈ past, s.IsReading ∧ s ≤ now) (hwords : (past ++ [now]).count now ≤ UInt64.size)
    (bytes : ByteArray) (hfailed : failed = refusal? u.files u.file now bytes) :
    (u.turn (.write now bytes)).outcomes = u.outcomes ++ [failed] ∧
      (failed.isSome = true → (u.turn (.write now bytes)).files = u.files) ∧
      (u.turn (.write now bytes)).Matches f (past ++ [now])
        (if failed.isSome then l else l.step (.write now bytes)) := by
  obtain ⟨id, backups, hready, hbackups⟩ := h.ready
  rcases hwrite : LogFile.write u.files u.file now.text bytes with ⟨left, g, outcome⟩
  obtain ⟨houtcome, hleft, ⟨hpath, hdirectory, hname, hlimit, hkeep⟩, id', backups', hready',
    hbackups', hlimits⟩ := hready.write hnow hpast hwords hwrite rfl hbackups h.limits
  obtain rfl : outcome = failed := houtcome.trans hfailed.symm
  rw [Upkeep.turn_write hwrite]
  refine ⟨rfl, hleft, ⟨hpath.trans h.path, hdirectory.trans h.directory, hname.trans h.name,
    hlimit.trans h.limit, ?_, id', backups', hready', hbackups'⟩⟩
  rw [hlimits, h.limits]
  dsimp only
  rw [hlimit, hkeep]

/-- A log file that has just been opened in a directory without backups of it. -/
theorem matches_of_openAt {path : FilePath} (ht : t.WellFormed)
    (hopen : openAt t path limit keep = (made, .ok f))
    (hnone : ∀ q, isBackupPlace f.directory f.name q = true → made.node? q = none) :
    (Upkeep.run made f []).Matches f []
      ((Ledger.initial t f.place).run [.openWith limit keep]) := by
  obtain ⟨directory, name, id, hprepare, hf, -⟩ := openAt_eq_ok ht hopen
  have hdirectory : f.directory = directory := by rw [hf]; simp [start]
  have hname : f.name = name := by rw [hf]; simp [start]
  obtain ⟨harchive, -⟩ := archive_of_prepare [] ht hprepare (hdirectory ▸ hname ▸ hnone)
  rw [harchive.start_eq] at hf
  subst hf
  exact ⟨rfl, rfl, rfl, rfl, rfl, id, [], ⟨harchive, rfl, rfl, Or.inl rfl⟩, rfl⟩

/-- Behind any writes the files are those of the ledger of the writes that have not failed. -/
theorem matches_of_writes (hstart : (Upkeep.run made f []).Matches f []
      ((Ledger.initial t f.place).run [.openWith limit keep]))
    (hreadings : ∀ s ∈ seconds done, s.IsReading) (hclock : (seconds done).Pairwise (· ≤ ·))
    (hwords : ∀ s ∈ seconds done, (seconds done).count s ≤ UInt64.size) :
    (Upkeep.run made f (turns done)).outcomes.length = done.length ∧
      (Upkeep.run made f (turns done)).Matches f (seconds done)
        ((Ledger.initial t f.place).run (.openWith limit keep ::
          succeeded done (Upkeep.run made f (turns done)).outcomes)) := by
  induction done using List.reverseRecOn with
  | nil => exact ⟨rfl, hstart⟩
  | append_singleton done w ih =>
    obtain ⟨now, bytes⟩ := w
    have hseconds : seconds (done ++ [(now, bytes)]) = seconds done ++ [now] := List.map_append
    have hturns : turns (done ++ [(now, bytes)]) = turns done ++ [.write now bytes] :=
      List.map_append
    rw [hseconds] at hreadings hclock hwords ⊢
    obtain ⟨hnow, hpast⟩ := reading_of_prefix hreadings hclock (List.prefix_refl _)
    obtain ⟨hlength, hmatches⟩ := ih (fun s hs ↦ hreadings s (List.mem_append_left _ hs))
      (List.pairwise_append.mp hclock).1 fun s hs ↦
        ((List.sublist_append_left _ _).count_le s).trans (hwords s (List.mem_append_left _ hs))
    rw [hturns, Upkeep.run_concat]
    obtain ⟨houtcomes, -, hnext⟩ :=
      hmatches.write hnow hpast (hwords now (by simp)) bytes rfl
    rw [houtcomes, succeeded_concat hlength.symm]
    refine ⟨by simp [hlength], ?_⟩
    split_ifs at hnext ⊢ with hrefused
    · rwa [List.append_nil]
    · rw [← List.cons_append, Ledger.run_concat]
      exact hnext

/-- What becomes of a write. It fails exactly where it is refused, and it then leaves all files as
they are. Names and paths that leave room for every backup let no write be refused, and those that
leave room for none let each write to a full file be. -/
structure Refuses (f : LogFile) (now : Timestamp) (bytes : ByteArray) (before after : Upkeep) :
    Prop where
  outcomes : after.outcomes =
    before.outcomes ++ [refusal? before.files before.file now bytes]
  files : refusal? before.files before.file now bytes ≠ none → after.files = before.files
  never : f.name.utf8ByteSize ≤ 218 → f.path.text.utf8ByteSize ≤ 4058 →
    refusal? before.files before.file now bytes = none
  always : 239 < f.name.utf8ByteSize ∨ 4079 < f.path.text.utf8ByteSize → bytes.size ≠ 0 →
    (∃ content, before.files.content? f.place = some content ∧ f.limit < content.size) →
      refusal? before.files before.file now bytes = some (.io .nameTooLong)

/-- What writes have left: the files of a ledger, which accounts for what there was at first and for
the text of each write that has not failed. -/
structure Accepts (f : LogFile) (l : Ledger) (initial : ByteArray)
    (writes : List (Timestamp × ByteArray)) (run : Upkeep) : Prop where
  length : run.outcomes.length = writes.length
  describes : l.Describes run.files f.directory f.name
  accounts : l.Accounts (initial :: entered true (succeeded writes run.outcomes))

theorem Upkeep.Matches.refuses (h : u.Matches f past l) (hnow : now.IsReading)
    (hpast : ∀ s ∈ past, s.IsReading ∧ s ≤ now) (hwords : (past ++ [now]).count now ≤ UInt64.size)
    (bytes : ByteArray) : Refuses f now bytes u (u.turn (.write now bytes)) := by
  obtain ⟨houtcomes, hfiles, -⟩ := h.write hnow hpast hwords bytes rfl
  obtain ⟨id, backups, hready, -⟩ := h.ready
  refine ⟨houtcomes, fun hrefused ↦ hfiles (Option.isSome_iff_ne_none.mpr hrefused),
    fun hname hpath ↦ ?_, fun hlong hbytes ⟨content, hcontent, hfull⟩ ↦ ?_⟩
  · exact hready.refusal?_of_le hnow hpast hwords (by rwa [h.name]) (by rwa [h.path]) bytes
  · have hplace : u.file.place = f.place := by
      rw [LogFile.place, LogFile.place, h.directory, h.name]
    rw [← hplace, content?, hready.steady.node] at hcontent
    obtain rfl := Option.some.inj hcontent
    exact hready.refusal?_of_lt hnow hpast (by rwa [h.name, h.path]) hbytes (by rwa [h.limit])

/-- Texts are written to a log file that was opened in a directory without backups of it. A write
fails exactly where the file is full and the next backup would have too long a name or path, and it
then leaves all files as they are. The files are those of a ledger of the other writes, which
accounts for each of their texts. -/
theorem refuses_long_names {path : FilePath} (ht : t.WellFormed)
    (hopen : openAt t path limit keep = (made, .ok f))
    (hnone : ∀ q, isBackupPlace f.directory f.name q = true → made.node? q = none)
    (hreadings : ∀ s ∈ seconds writes, s.IsReading) (hclock : (seconds writes).Pairwise (· ≤ ·))
    (hwords : ∀ s ∈ seconds writes, (seconds writes).count s ≤ UInt64.size) :
    (∀ done now bytes, done ++ [(now, bytes)] <+: writes →
        Refuses f now bytes (Upkeep.run made f (turns done))
          (Upkeep.run made f (turns (done ++ [(now, bytes)])))) ∧
      ∀ done, done <+: writes →
        let run := Upkeep.run made f (turns done)
        Accepts f
          ((Ledger.initial t f.place).run (.openWith limit keep :: succeeded done run.outcomes))
          ((t.content? f.place).getD ByteArray.empty) done run := by
  have hstart := matches_of_openAt ht hopen hnone
  have hmatches : ∀ done, done <+: writes →
      (Upkeep.run made f (turns done)).outcomes.length = done.length ∧
        (Upkeep.run made f (turns done)).Matches f (seconds done)
          ((Ledger.initial t f.place).run (.openWith limit keep ::
            succeeded done (Upkeep.run made f (turns done)).outcomes)) := by
    intro done hdone
    have hwritten : seconds done <+: seconds writes := hdone.map Prod.fst
    exact matches_of_writes hstart (fun s hs ↦ hreadings s (hwritten.subset hs))
      (hclock.sublist hwritten.sublist) fun s hs ↦
        (hwritten.sublist.count_le s).trans (hwords s (hwritten.subset hs))
  constructor
  · intro done now bytes hdone
    obtain ⟨-, hbefore⟩ := hmatches done ((List.prefix_append done _).trans hdone)
    have hwritten : seconds done ++ [now] <+: seconds writes := by
      simpa [seconds] using hdone.map Prod.fst
    obtain ⟨hnow, hpast⟩ := reading_of_prefix hreadings hclock hwritten
    have hcount : (seconds done ++ [now]).count now ≤ UInt64.size :=
      (hwritten.sublist.count_le now).trans (hwords now (hwritten.subset (by simp)))
    have hturns : turns (done ++ [(now, bytes)]) = turns done ++ [.write now bytes] :=
      List.map_append
    rw [hturns, Upkeep.run_concat]
    exact hbefore.refuses hnow hpast hcount bytes
  · intro done hdone run
    obtain ⟨hlength, hrun⟩ := hmatches done hdone
    obtain ⟨id, backups, hready, hbackups⟩ := hrun.ready
    refine ⟨hlength, ?_, ?_⟩
    · rw [← hrun.directory, ← hrun.name]
      exact hready.archive.describes hbackups
    · exact Ledger.accounts_run (Ledger.accounts_initial t f.place)
        (.openWith limit keep :: succeeded done run.outcomes)

/-- A log file that is full under a name or a path that leaves no room for any backup stays as it
is: every further text is refused. -/
theorem Upkeep.Matches.stays_full (h : u.Matches f past l)
    (hlong : 239 < f.name.utf8ByteSize ∨ 4079 < f.path.text.utf8ByteSize)
    (hfull : f.limit < l.active.size) (hbytes : ∀ w ∈ writes, w.2.size ≠ 0)
    (hreadings : ∀ s ∈ past ++ seconds writes, s.IsReading)
    (hclock : (past ++ seconds writes).Pairwise (· ≤ ·))
    (hwords : ∀ s ∈ past ++ seconds writes, (past ++ seconds writes).count s ≤ UInt64.size) :
    ((turns writes).foldl Upkeep.turn u).outcomes =
        u.outcomes ++ List.replicate writes.length (some (.io .nameTooLong)) ∧
      ((turns writes).foldl Upkeep.turn u).files = u.files := by
  induction writes generalizing u past with
  | nil => exact ⟨(List.append_nil _).symm, rfl⟩
  | cons w rest ih =>
    obtain ⟨now, bytes⟩ := w
    rw [List.forall_mem_cons] at hbytes
    have hreached : past ++ [now] <+: past ++ seconds ((now, bytes) :: rest) :=
      ⟨seconds rest, by simp [seconds]⟩
    obtain ⟨hnow, hpast⟩ := reading_of_prefix hreadings hclock hreached
    have hcount : (past ++ [now]).count now ≤ UInt64.size :=
      (hreached.sublist.count_le now).trans (hwords now (hreached.subset (by simp)))
    obtain ⟨id, backups, hready, -⟩ := h.ready
    have hrefused : some (.io .nameTooLong) = refusal? u.files u.file now bytes :=
      (hready.refusal?_of_lt hnow hpast (by rwa [h.name, h.path]) hbytes.1
        (by rwa [h.limit])).symm
    obtain ⟨houtcomes, hfiles, hnext⟩ := h.write hnow hpast hcount bytes hrefused
    have hsplit : past ++ seconds ((now, bytes) :: rest) = past ++ [now] ++ seconds rest := by
      simp [seconds]
    rw [hsplit] at hreadings hclock hwords
    obtain ⟨hrest, hsame⟩ := ih (by simpa using hnext) hbytes.2 hreadings hclock hwords
    have hturns : turns ((now, bytes) :: rest) = .write now bytes :: turns rest := rfl
    rw [hturns, List.foldl_cons, hrest, hsame, houtcomes, List.append_assoc]
    exact ⟨rfl, hfiles rfl⟩

/-! ### Long names and long paths -/

/-- A name of so many letters. -/
def longName (n : Nat) : String :=
  String.ofList (List.replicate n 'a')

/-- The path of a name behind so many steps to the directory one is in. -/
def dotted : Nat → String → FilePath
  | 0, name => ⟨name⟩
  | n + 1, name => ⟨"./" ++ (dotted n name).text⟩

variable {name : String}

theorem utf8ByteSize_longName (n : Nat) : (longName n).utf8ByteSize = n := by
  rw [longName, utf8ByteSize_ofList_of_ascii, List.length_replicate]
  intro c hc
  rw [List.eq_of_mem_replicate hc]
  decide

theorem utf8ByteSize_dotted (n : Nat) (name : String) :
    (dotted n name).text.utf8ByteSize = 2 * n + name.utf8ByteSize := by
  induction n with
  | zero => simp [dotted]
  | succ n ih =>
    have hstep : "./".utf8ByteSize = 2 := rfl
    rw [dotted, String.utf8ByteSize_append, ih, hstep]
    omega

theorem pieces_dotted (n : Nat) (hslash : '/' ∉ name.toList) :
    (dotted n name).pieces = List.replicate n "." ++ [name] := by
  induction n with
  | zero =>
    have hsplit : name.toList.splitOn '/' = [name.toList] :=
      List.splitOnP_eq_singleton fun c hc ↦ beq_eq_false_iff_ne.mpr fun hc' ↦ hslash (hc' ▸ hc)
    rw [dotted, FilePath.pieces, hsplit, List.map_singleton, String.ofList_toList]
    rfl
  | succ n ih =>
    have hsplit : ("./" ++ (dotted n name).text).toList.splitOn '/' =
        ['.'] :: (dotted n name).text.toList.splitOn '/' := by
      have hstep : "./".toList = ['.', '/'] := rfl
      simp [String.toList_append, hstep, List.splitOn, List.splitOnP_cons_eq_if_modifyHead]
    rw [dotted, FilePath.pieces, hsplit, List.map_cons, ← FilePath.pieces, ih]
    rfl

theorem hasNul_dotted (n : Nat) (name : String) :
    (dotted n name).hasNul = FilePath.hasNul ⟨name⟩ := by
  induction n with
  | zero => rfl
  | succ n ih =>
    rw [← ih, dotted, FilePath.hasNul, String.toList_append, List.any_append]
    exact Bool.false_or _

/-- However many steps are taken to the directory one is in, the file is the same. -/
theorem reaches_dotted (t : FileTree) (n : Nat) (hslash : '/' ∉ name.toList)
    (hnul : '\x00' ∉ name.toList) (hempty : name ≠ "") (hhere : name ≠ ".") (hup : name ≠ "..")
    (hshort : FilePath.isLongName name = false) (hlong : (dotted n name).isLong = false) :
    Reaches t (dotted n name) [] name := by
  have hpieces := pieces_dotted n hslash
  have hname : FilePath.isName name = true := by simp [FilePath.isName, hempty, hhere]
  have hdot : FilePath.isName "." = false := rfl
  have hsegments : (dotted n name).segments = [name] := by
    simp [FilePath.segments, hpieces, hname, hdot]
  have hparent : (dotted n name).parent = ⟨""⟩ := by
    simp [FilePath.parent, hpieces, hname, hdot]
  have hsize : (dotted n name).text ≠ "" := by
    intro htext
    have hbytes := utf8ByteSize_dotted n name
    rw [htext] at hbytes
    have hzero : name.utf8ByteSize = 0 := by simp at hbytes; omega
    exact hempty (String.utf8ByteSize_eq_zero_iff.mp hzero)
  have hnul' : (dotted n name).hasNul = false := by
    rw [hasNul_dotted, FilePath.hasNul, List.any_eq_false]
    exact fun c hc ↦ by simpa using fun heq : c = '\x00' ↦ hnul (heq ▸ hc)
  refine ⟨?_, ?_, ?_, ?_, ?_, rfl, ?_, hup, hshort⟩
  · simp [refused?, hnul', hlong]
  · rw [hparent]
    decide
  · simpa [FilePath.isEmpty] using hsize
  · rw [hsegments]
    rfl
  · rw [hsegments]
    rfl
  · simp [FilePath.ending, hpieces, hname]

/-- Nothing but an empty log file of this name. -/
def emptyLog (name : String) : FileTree :=
  (FileTree.empty.addFile [name] ByteArray.empty).1

/-- Three writes in one second and one in the next, each of which fills a file of one byte. -/
def fourWrites : List (Timestamp × ByteArray) :=
  [(⟨2024, 2, 29, 23, 59, 59⟩, "ab".toUTF8), (⟨2024, 2, 29, 23, 59, 59⟩, "cd".toUTF8),
    (⟨2024, 2, 29, 23, 59, 59⟩, "ef".toUTF8), (⟨2024, 3, 1, 0, 0, 0⟩, "gh".toUTF8)]

theorem wellFormed_emptyLog (name : String) : (emptyLog name).WellFormed :=
  wellFormed_empty.addFile (by simp) (by simp [places, FileTree.empty]) _

theorem node?_emptyLog (name : String) :
    (emptyLog name).node? [name] = some (.file 0 ByteArray.empty) := by
  simp [node?, emptyLog, addFile, FileTree.empty]

theorem initial_emptyLog (name : String) :
    Ledger.initial (emptyLog name) [name] = ⟨ByteArray.empty, [], none⟩ := by
  rw [Ledger.initial, content?, node?_emptyLog]
  rfl

/-- An empty log file is opened by any path that leads to it. -/
theorem openAt_emptyLog {path : FilePath} (h : Reaches (emptyLog name) path [] name) :
    openAt (emptyLog name) path 1 0 =
      (emptyLog name, .ok (follower path [] name 0 ByteArray.empty [] (1, 0))) ∧
    ∀ q, isBackupPlace [] name q = true → (emptyLog name).node? q = none := by
  have hnone : ∀ q, isBackupPlace [] name q = true → (emptyLog name).node? q = none := by
    intro q hq
    rw [← Option.not_isSome_iff_eq_none, isSome_node?_iff]
    rintro (rfl | hmem)
    · exact absurd hq (by simp [isBackupPlace, backupAt?])
    · obtain rfl : q = [] ++ [name] := by
        simpa [places, emptyLog, FileTree.empty, FileTree.addFile] using hmem
      rw [isBackupPlace_self] at hq
      exact absurd hq Bool.false_ne_true
  have hprepare := h.prepare_eq (node?_emptyLog name)
  obtain ⟨harchive, -⟩ := archive_of_prepare [] (wellFormed_emptyLog _) hprepare hnone
  rw [List.nil_append, initial_emptyLog] at harchive
  refine ⟨?_, hnone⟩
  rw [openAt_of_prepare hprepare Nat.one_pos, harchive.start_eq]

/-- A log file of a short name is opened by a path that leaves no room for a backup. All texts but
the first are refused, and the files are those of the first. -/
theorem refuses_long_names_dotted :
    let f := follower (dotted 2040 "app.log") [] "app.log" 0 ByteArray.empty [] (1, 0)
    let run := Upkeep.run (emptyLog "app.log") f (turns fourWrites)
    run.outcomes = none :: List.replicate 3 (some (.io .nameTooLong)) ∧
      (Ledger.mk "ab".toUTF8 [] (some (1, 0))).Describes run.files [] "app.log" := by
  have hreadings : ∀ s ∈ seconds fourWrites, s.IsReading := by decide
  -- Nothing but its length is needed of the path.
  have hlong : ∀ path : FilePath, Reaches (emptyLog "app.log") path [] "app.log" →
      4079 < path.text.utf8ByteSize →
        let f := follower path [] "app.log" 0 ByteArray.empty [] (1, 0)
        let run := Upkeep.run (emptyLog "app.log") f (turns fourWrites)
        run.outcomes = none :: List.replicate 3 (some (.io .nameTooLong)) ∧
          (Ledger.mk "ab".toUTF8 [] (some (1, 0))).Describes run.files [] "app.log" := by
    intro path hreaches hsize f run
    obtain ⟨hopen, hnone⟩ := openAt_emptyLog hreaches
    obtain ⟨hrefuses, haccepts⟩ := refuses_long_names (wellFormed_emptyLog "app.log") hopen hnone
      hreadings (by decide) (by decide)
    have hnext : ∀ {done now bytes}, done ++ [(now, bytes)] <+: fourWrites → bytes.size ≠ 0 →
        (Upkeep.run (emptyLog "app.log") f (turns done)).files.content? f.place =
          some "ab".toUTF8 →
        (Upkeep.run (emptyLog "app.log") f (turns (done ++ [(now, bytes)]))).outcomes =
            (Upkeep.run (emptyLog "app.log") f (turns done)).outcomes ++
              [some (.io .nameTooLong)] ∧
          (Upkeep.run (emptyLog "app.log") f (turns (done ++ [(now, bytes)]))).files.content?
            f.place = some "ab".toUTF8 := by
      intro done now bytes hdone hbytes hcontent
      have hrefused := hrefuses done now bytes hdone
      have hlimit : f.limit < "ab".toUTF8.size := Nat.one_lt_two
      have hrefusal := hrefused.always (Or.inr hsize) hbytes ⟨_, hcontent, hlimit⟩
      exact ⟨hrefusal ▸ hrefused.outcomes, (hrefused.files (by simp [hrefusal])).symm ▸ hcontent⟩
    have hfirst : (Upkeep.run (emptyLog "app.log") f (turns (fourWrites.take 1))).outcomes =
        [none] := rfl
    have hcontent : (Upkeep.run (emptyLog "app.log") f
        (turns (fourWrites.take 1))).files.content? f.place = some "ab".toUTF8 := rfl
    obtain ⟨hsecond, hcontent⟩ := hnext ⟨_, rfl⟩ (by decide) hcontent
    obtain ⟨hthird, hcontent⟩ := hnext ⟨_, rfl⟩ (by decide) hcontent
    obtain ⟨hfourth, -⟩ := hnext ⟨_, rfl⟩ (by decide) hcontent
    have houtcomes : run.outcomes = none :: List.replicate 3 (some (.io .nameTooLong)) := by
      refine hfourth.trans ?_
      rw [hthird, hsecond, hfirst]
      rfl
    have hdescribes := (haccepts fourWrites (List.prefix_refl _)).describes
    rw [houtcomes, show f.place = ["app.log"] from rfl, initial_emptyLog] at hdescribes
    exact ⟨houtcomes, hdescribes⟩
  have hsize : (dotted 2040 "app.log").text.utf8ByteSize = 4087 := utf8ByteSize_dotted _ _
  have hshort : (dotted 2040 "app.log").isLong = false := by
    rw [FilePath.isLong, hsize]
    rfl
  have hreaches : Reaches (emptyLog "app.log") (dotted 2040 "app.log") [] "app.log" :=
    reaches_dotted _ 2040 (by decide) (by decide) (by decide) (by decide) (by decide) rfl hshort
  exact hlong _ hreaches (by omega)

/-- An empty log file whose name or path leaves no room for a backup is opened, but takes one text
only. -/
theorem run_emptyLog {path : FilePath} (hreaches : Reaches (emptyLog name) path [] name)
    (hlong : 239 < name.utf8ByteSize ∨ 4079 < path.text.utf8ByteSize) :
    let f := follower path [] name 0 ByteArray.empty [] (1, 0)
    let run := Upkeep.run (emptyLog f.name) f (turns fourWrites)
    openAt (emptyLog f.name) f.path 1 0 = (emptyLog f.name, .ok f) ∧
      (∀ s ∈ seconds fourWrites, s.IsReading) ∧ (seconds fourWrites).Pairwise (· ≤ ·) ∧
      run.outcomes = none :: List.replicate 3 (some (.io .nameTooLong)) ∧
      run.files.nodes.map Prod.fst = [f.place] ∧
      run.files.content? f.place = some "ab".toUTF8 := by
  intro f run
  obtain ⟨hopen, hnone⟩ := openAt_emptyLog hreaches
  have hempty : (emptyLog name).content? f.place = some ByteArray.empty := by
    rw [content?, show f.place = [name] from rfl, node?_emptyLog]
  have hroom : none = refusal? (emptyLog name) f ⟨2024, 2, 29, 23, 59, 59⟩ "ab".toUTF8 := by
    rw [refusal?, hempty, if_neg]
    exact fun hrefused ↦ absurd hrefused.2.1 (Nat.not_lt_zero _)
  have hreadings : ∀ s ∈ seconds fourWrites, s.IsReading := by decide
  obtain ⟨houtcome, -, hfirst⟩ :=
    (matches_of_openAt (wellFormed_emptyLog name) hopen hnone).write (hreadings _ (by decide))
      (by simp) (by decide) "ab".toUTF8 hroom
  have hfull : f.limit < ((Ledger.initial (emptyLog name) f.place).run
      [.openWith 1 0, .write ⟨2024, 2, 29, 23, 59, 59⟩ "ab".toUTF8]).active.size := by
    rw [show f.place = [name] from rfl, initial_emptyLog]
    exact Nat.one_lt_two
  have hothers : ∀ w ∈ fourWrites.tail, w.2.size ≠ 0 := by decide
  obtain ⟨houtcomes, hfiles⟩ :=
    hfirst.stays_full hlong hfull hothers hreadings (by decide) (by decide)
  have hsplit : run = (turns fourWrites.tail).foldl Upkeep.turn
      ((Upkeep.run (emptyLog name) f []).turn
        (.write ⟨2024, 2, 29, 23, 59, 59⟩ "ab".toUTF8)) := List.foldl_cons ..
  rw [← hsplit] at houtcomes hfiles
  rw [houtcome] at houtcomes
  have hwritten : run.files = (emptyLog name).append 0 "ab".toUTF8 := hfiles
  refine ⟨hopen, hreadings, by decide, houtcomes, by rw [hwritten]; rfl, ?_⟩
  rw [hwritten, show f.place = [name] from rfl]
  simp [content?, node?, append, emptyLog, addFile, FileTree.empty]

/-- A log file is opened under a name that leaves no room for a backup. All texts but the first are
refused, and are in no file. -/
theorem not_all_accepted :
    let f := follower ⟨longName 250⟩ [] (longName 250) 0 ByteArray.empty [] (1, 0)
    let run := Upkeep.run (emptyLog f.name) f (turns fourWrites)
    openAt (emptyLog f.name) f.path 1 0 = (emptyLog f.name, .ok f) ∧
      (∀ s ∈ seconds fourWrites, s.IsReading) ∧ (seconds fourWrites).Pairwise (· ≤ ·) ∧
      run.outcomes = none :: List.replicate 3 (some (.io .nameTooLong)) ∧
      run.files.nodes.map Prod.fst = [f.place] ∧
      run.files.content? f.place = some "ab".toUTF8 := by
  have hsize : (longName 250).utf8ByteSize = 250 := utf8ByteSize_longName 250
  have hletters : ∀ c ∈ (longName 250).toList, c = 'a' := by
    intro c hc
    rw [longName, String.toList_ofList] at hc
    exact List.eq_of_mem_replicate hc
  have hne : ∀ other : String, other.utf8ByteSize ≤ 2 → longName 250 ≠ other := by
    intro other hother heq
    rw [heq] at hsize
    omega
  have hreaches : Reaches (emptyLog (longName 250)) ⟨longName 250⟩ [] (longName 250) := by
    refine reaches_dotted _ 0 (fun hc ↦ ?_) (fun hc ↦ ?_) (hne "" (by decide)) (hne "." (by decide))
      (hne ".." (by decide)) ?_ ?_
    · exact absurd (hletters _ hc) (by decide)
    · exact absurd (hletters _ hc) (by decide)
    · rw [FilePath.isLongName, hsize]
      rfl
    · rw [FilePath.isLong, utf8ByteSize_dotted, hsize]
      rfl
  exact run_emptyLog hreaches (Or.inl (by omega))

end LogFile

end Logbook
