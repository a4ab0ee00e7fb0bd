import Logbook.Proofs.Rotation.Names
import Logbook.Proofs.Rotation.OnDisk

/-!
# A log file among its backups

The backups of a log file are found again by their names: a scan of the directory lists them in the
reverse of the order in which they were made (`Archive.scan_eq`). What makes this so is an invariant
of the directory (`Archive`): every backup has a name that reads back, every backup is newer by name
than those before it, and the newest was made at a reading of the clock that has passed, with a
number that counts fewer rotations than there were readings of that second.

A write with the file open keeps the invariant and changes the bytes as a `Ledger` says
(`Archive.write_eq`): the name of the next backup is newer than all others, so it is free and the
move succeeds, and the backups that are pruned are the oldest ones.
-/

set_option autoImplicit false
set_option relaxedAutoImplicit false

namespace Logbook.LogFile

open FileTree

/-! ### The ledger -/

/-- The backups to keep: the last ones, or all of them for zero. -/
def keepLast {α : Type} (keep : Nat) (backups : List α) : List α :=
  if keep = 0 then backups else backups.drop (backups.length - keep)

theorem map_keepLast {α β : Type} (g : α → β) (keep : Nat) (backups : List α) :
    (keepLast keep backups).map g = keepLast keep (backups.map g) := by
  unfold keepLast
  split_ifs with hkeep
  · rfl
  · rw [List.map_drop, List.length_map]

/-- The bytes of a log file and of its backups, oldest first, and the limit and the number of
backups to keep while it is open. -/
structure Ledger where
  active : ByteArray
  backups : List ByteArray
  limits : Option (Nat × Nat)

/-- The bytes of a log file that is open, behind a write. -/
def Ledger.put (l : Ledger) (limit keep : Nat) (bytes : ByteArray) : Ledger :=
  if limit < l.active.size then
    { l with active := bytes, backups := keepLast keep (l.backups ++ [l.active]) }
  else { l with active := l.active ++ bytes }

/-! ### Backups by their names -/

/-- The backup of a log file that a place stands for. -/
def backupAt? (directory : Place) (name : String) (q : Place) : Option BackupName :=
  if q.dropLast = directory then q.getLast?.bind (BackupName.ofFileName? name) else none

/-- Whether a place has the name of a backup. -/
def isBackupPlace (directory : Place) (name : String) (q : Place) : Bool :=
  (backupAt? directory name q).isSome

variable {t : FileTree} {directory : Place} {name : String}

theorem backupAt?_concat (directory : Place) (name last : String) :
    backupAt? directory name (directory ++ [last]) = BackupName.ofFileName? name last := by
  simp [backupAt?]

theorem isBackupPlace_self (directory : Place) (name : String) :
    isBackupPlace directory name (directory ++ [name]) = false := by
  rw [isBackupPlace, backupAt?_concat, BackupName.ofFileName?_self]
  rfl

/-- A scan reads the names of the files at the places of backups. -/
theorem scan_eq (t : FileTree) (directory : Place) (name : String) :
    scan t directory name =
      ((filesWhere t (isBackupPlace directory name)).filterMap fun file ↦
        backupAt? directory name file.1).foldl (fun known b ↦ insertBackup b known) [] := by
  unfold scan filesIn files filesWhere
  rw [List.filterMap_filterMap, List.filterMap_filterMap, List.filterMap_filterMap]
  congr 1
  refine List.filterMap_congr fun entry _ ↦ ?_
  obtain ⟨place, node⟩ := entry
  cases node with
  | directory => rfl
  | file id content =>
    by_cases hdirectory : place.dropLast = directory
    · cases hlast : place.getLast? with
      | none => simp [chosen, isBackupPlace, backupAt?, hlast, hdirectory]
      | some last =>
        cases hbackup : BackupName.ofFileName? name last <;>
          simp [chosen, isBackupPlace, backupAt?, hlast, hdirectory, hbackup]
    · simp [chosen, isBackupPlace, backupAt?, hdirectory]

/-- A backup that is newer than the newest one goes to the front. -/
theorem insertBackup_newest {b : BackupName} {known : List BackupName}
    (h : ∀ c ∈ known.head?, b.newer c = true) : insertBackup b known = b :: known := by
  cases known with
  | nil => rfl
  | cons c rest =>
    have hnewer := h c rfl
    rw [insertBackup, BackupName.not_same_of_newer hnewer, hnewer]
    rfl

/-- Names that are read in ascending order come out in descending order. -/
theorem foldl_insertBackup (names : List BackupName)
    (h : names.Pairwise fun a b ↦ b.newer a = true) :
    names.foldl (fun known b ↦ insertBackup b known) [] = names.reverse := by
  induction names using List.reverseRecOn with
  | nil => rfl
  | append_singleton names b ih =>
    rw [List.pairwise_append] at h
    obtain ⟨hnames, -, hlast⟩ := h
    rw [List.foldl_concat, ih hnames, List.reverse_concat]
    refine insertBackup_newest fun c hc ↦ hlast c ?_ b List.mem_cons_self
    exact List.mem_reverse.mp (List.mem_of_mem_head? hc)

/-! ### The archive -/

/-- The name and the bytes of every backup, oldest first. -/
abbrev Backups := List (BackupName × ByteArray)

/-- The places of backups and their bytes. -/
def Backups.files (directory : Place) (name : String) (backups : Backups) :
    List (Place × ByteArray) :=
  backups.map fun backup ↦ (directory ++ [backup.1.fileName name], backup.2)

/-- A log file and its backups, all of which were made at the readings of the clock so far. -/
structure Archive (past : List Timestamp) (t : FileTree) (path : FilePath) (directory : Place)
    (name : String) (id : Nat) (active : ByteArray) (backups : Backups) : Prop where
  reaches : Reaches t path directory name
  stands : Stands t (isBackupPlace directory name) (directory ++ [name]) id active
    (backups.files directory name)
  readable : ∀ backup ∈ backups,
    BackupName.ofFileName? name (backup.1.fileName name) = some backup.1
  short : ∀ backup ∈ backups, backup.1.isLong path name = false
  ascending : (backups.map Prod.fst).Pairwise fun a b ↦ b.newer a = true
  newest : ∀ b ∈ (backups.map Prod.fst).getLast?,
    ∃ s ∈ past, ∃ k < past.count s, b = BackupName.nth s.text k

variable {past : List Timestamp} {path : FilePath} {id : Nat} {active : ByteArray}
  {backups : Backups}

theorem Archive.scan_eq (h : Archive past t path directory name id active backups) :
    scan t directory name = (backups.map Prod.fst).reverse := by
  have hnames : (backups.files directory name).filterMap
      (fun file ↦ backupAt? directory name file.1) = backups.map Prod.fst := by
    rw [Backups.files, List.filterMap_map, ← List.filterMap_eq_map]
    refine List.filterMap_congr fun backup hbackup ↦ ?_
    rw [Function.comp_apply, backupAt?_concat, h.readable backup hbackup]
    rfl
  rw [LogFile.scan_eq, h.stands.filesWhere_eq, hnames, foldl_insertBackup _ h.ascending]

/-- Time passes and nothing else happens. -/
theorem Archive.later (h : Archive past t path directory name id active backups) (now : Timestamp) :
    Archive (past ++ [now]) t path directory name id active backups :=
  { h with
    newest := by
      intro b hb
      obtain ⟨s, hs, k, hk, rfl⟩ := h.newest b hb
      refine ⟨s, List.mem_append_left _ hs, k, ?_, rfl⟩
      rw [List.count_append]
      omega }

/-- An open log file that knows its backups. -/
structure Follows (f : LogFile) (id : Nat) (active : ByteArray) (backups : Backups) : Prop where
  handle : f.handle = some id
  count : f.count = active.size
  known : f.backups = (backups.map Prod.fst).reverse

/-- The log file that knows its bytes and its backups, while it is open with these limits. -/
def follower (path : FilePath) (directory : Place) (name : String) (id : Nat) (active : ByteArray)
    (backups : Backups) (limits : Nat × Nat) : LogFile :=
  { path, directory, name, limit := limits.1, keep := limits.2
    handle := some id
    count := active.size
    backups := (backups.map Prod.fst).reverse }

/-- A log file that has just been opened knows its bytes and its backups. -/
theorem Archive.start_eq (h : Archive past t path directory name id active backups)
    (limit keep : Nat) :
    start t path (directory ++ [name]) id limit keep =
      follower path directory name id active backups (limit, keep) := by
  simp [start, follower, h.stands.content?_eq, h.scan_eq]

/-! ### Writing -/

variable {f : LogFile} {now : Timestamp}

/-- The next backup gets a number below the number of readings of its second, and is newer than the
newest backup, where that was made at a reading that has passed. -/
theorem nextBackup_eq (hnow : now.IsReading) (hpast : ∀ s ∈ past, s.IsReading ∧ s ≤ now)
    (hnewest : ∀ b ∈ f.backups.head?,
      ∃ s ∈ past, ∃ k < past.count s, b = BackupName.nth s.text k) :
    ∃ k < (past ++ [now]).count now, nextBackup f now.text = BackupName.nth now.text k ∧
      ∀ b ∈ f.backups.head?, (BackupName.nth now.text k).newer b = true := by
  have hcount : (past ++ [now]).count now = past.count now + 1 := by simp
  cases hhead : f.backups.head? with
  | none =>
    refine ⟨0, by omega, ?_, fun b hb ↦ absurd hb (Option.not_mem_none b)⟩
    rw [nextBackup, hhead]
    rfl
  | some newest =>
    obtain ⟨s, hs, k, hk, rfl⟩ := hnewest newest hhead
    obtain ⟨hreading, hle⟩ := hpast s hs
    rcases Timestamp.lt_or_eq hle with hlt | rfl
    · have htext : s.text < now.text := Timestamp.text_lt_text hreading hnow hlt
      have hne : s.text ≠ now.text := by
        intro heq
        rw [heq] at htext
        exact String.lt_irrefl _ htext
      refine ⟨0, by omega, ?_, fun b hb ↦ ?_⟩
      · rw [nextBackup, hhead]
        simp [hne, BackupName.nth]
      · obtain rfl := Option.mem_some.mp hb
        exact BackupName.nth_newer_of_lt htext 0 k
    · have hless : k + 1 < (past ++ [s]).count s := by omega
      refine ⟨k + 1, hless, ?_, fun b hb ↦ ?_⟩
      · rw [nextBackup, hhead]
        simp only [BackupName.nth_stamp, BackupName.nth_number, ↓reduceIte]
        rfl
      · obtain rfl := Option.mem_some.mp hb
        exact BackupName.nth_succ_newer s.text k

/-- A backup that is newer than the newest one is newer than all. -/
theorem newer_of_newest {b : BackupName} {names : List BackupName}
    (hascending : names.Pairwise fun a c ↦ c.newer a = true)
    (hnewest : ∀ c ∈ names.getLast?, b.newer c = true) : ∀ c ∈ names, b.newer c = true := by
  rcases List.eq_nil_or_concat names with rfl | ⟨init, last, rfl⟩
  · simp
  · rw [List.concat_eq_append] at hascending hnewest ⊢
    have hlast : b.newer last = true := hnewest last (by simp)
    rw [List.pairwise_append] at hascending
    intro c hc
    rcases List.mem_append.mp hc with hc | hc
    · exact BackupName.newer_trans hlast (hascending.2.2 c hc last List.mem_cons_self)
    · rwa [List.mem_singleton.mp hc]

/-- The backups beyond those to keep are removed, and the archive goes on with the rest. -/
theorem Archive.prune_eq (h : Archive past t f.path f.directory f.name id active backups)
    (hfollows : Follows f id active backups) :
    ∃ left, prune t f =
        (left, { f with backups := ((keepLast f.keep backups).map Prod.fst).reverse }, none) ∧
      Archive past left f.path f.directory f.name id active (keepLast f.keep backups) ∧
      SameElsewhere (isBackupPlace f.directory f.name) f.place t left := by
  by_cases hkeep : f.keep = 0
  · refine ⟨t, ?_, ?_, SameElsewhere.refl _ _ t⟩
    · rw [prune, if_pos hkeep, keepLast, if_pos hkeep, ← hfollows.known]
    · rwa [keepLast, if_pos hkeep]
  rw [keepLast, if_neg hkeep]
  set m := backups.length - f.keep with hm
  have hlength : (backups.map Prod.fst).length - f.keep = m := by rw [List.length_map]
  have hgone : (f.backups.drop f.keep).reverse = (backups.take m).map Prod.fst := by
    rw [hfollows.known, List.drop_reverse, List.reverse_reverse, hlength, List.map_take]
  have hkept : f.backups.take f.keep = ((backups.drop m).map Prod.fst).reverse := by
    rw [hfollows.known, List.take_reverse, hlength, List.map_drop]
  have hfiles : backups.files f.directory f.name =
      Backups.files f.directory f.name (backups.take m) ++
        Backups.files f.directory f.name (backups.drop m) := by
    unfold Backups.files
    rw [← List.map_append, List.take_append_drop]
  have hstands := h.stands
  rw [hfiles] at hstands
  obtain ⟨left, hleft, hstands', hsame⟩ :=
    Stands.removeAll (f := f) ((backups.take m).map Prod.fst) (by
      intro b hb
      obtain ⟨backup, hbackup, rfl⟩ := List.mem_map.mp hb
      exact h.short backup (List.mem_of_mem_take hbackup)) hstands (by
      rw [Backups.files, List.map_map, List.map_map]
      rfl)
  have hsub : (backups.drop m).Sublist backups := List.drop_sublist m backups
  refine ⟨left, ?_, ⟨h.reaches.of_directories fun _ ↦ h.stands.keepsDirectories hsame,
    hstands', fun backup hbackup ↦ h.readable backup (hsub.subset hbackup),
    fun backup hbackup ↦ h.short backup (hsub.subset hbackup),
    h.ascending.sublist (hsub.map _), fun b hb ↦ ?_⟩, hsame⟩
  · rw [prune, if_neg hkeep, hgone, hleft, hkept]
  · refine h.newest b ?_
    rw [List.map_drop, List.getLast?_drop] at hb
    split_ifs at hb with hshort
    · exact absurd hb (by simp)
    · exact hb

/-- There is room for every backup that can be made in a second: its name is short enough for a
directory and, with the path in front, for a path, and its number fits in a machine word. -/
def RoomAt (path : FilePath) (name : String) (past : List Timestamp) (now : Timestamp) : Prop :=
  ∀ k < past.count now,
    k < UInt64.size ∧ (BackupName.nth now.text k).isLong path name = false

instance (path : FilePath) (name : String) (past : List Timestamp) (now : Timestamp) :
    Decidable (RoomAt path name past now) :=
  inferInstanceAs (Decidable (∀ k < _, _))

/-- What a clock that does not go backwards means for one reading. -/
theorem reading_of_prefix {readings : List Timestamp} (hreadings : ∀ s ∈ readings, s.IsReading)
    (hclock : readings.Pairwise (· ≤ ·)) (h : past ++ [now] <+: readings) :
    now.IsReading ∧ ∀ s ∈ past, s.IsReading ∧ s ≤ now := by
  obtain ⟨behind, rfl⟩ := h
  rw [List.pairwise_append, List.pairwise_append] at hclock
  refine ⟨hreadings now (by simp), fun s hs ↦ ⟨hreadings s (by simp [hs]), ?_⟩⟩
  exact hclock.1.2.2 s hs now List.mem_cons_self

/-- What a clock that does not go backwards and room for all backups mean for one reading. -/
theorem fits_of_prefix {readings : List Timestamp} (hreadings : ∀ s ∈ readings, s.IsReading)
    (hclock : readings.Pairwise (· ≤ ·)) (hroom : ∀ s ∈ readings, RoomAt path name readings s)
    (h : past ++ [now] <+: readings) :
    now.IsReading ∧ (∀ s ∈ past, s.IsReading ∧ s ≤ now) ∧ RoomAt path name (past ++ [now]) now := by
  obtain ⟨hnow, hpast⟩ := reading_of_prefix hreadings hclock h
  refine ⟨hnow, hpast, fun k hk ↦ ?_⟩
  exact hroom now (h.subset (by simp)) k (hk.trans_le (h.sublist.count_le now))

/-- The next backup is newer than all that are known. -/
theorem Archive.exists_next (h : Archive past t f.path f.directory f.name id active backups)
    (hknown : f.backups = (backups.map Prod.fst).reverse) (hnow : now.IsReading)
    (hpast : ∀ s ∈ past, s.IsReading ∧ s ≤ now) :
    ∃ k < (past ++ [now]).count now, nextBackup f now.text = BackupName.nth now.text k ∧
      (∀ c ∈ backups.map Prod.fst, (BackupName.nth now.text k).newer c = true) ∧
      f.backups.any (·.same (nextBackup f now.text)) = false := by
  have hhead : f.backups.head? = (backups.map Prod.fst).getLast? := by
    rw [hknown, List.head?_reverse]
  obtain ⟨k, hk, hnext, hnewest⟩ := nextBackup_eq hnow hpast (hhead ▸ h.newest)
  rw [hhead] at hnewest
  have hnewer := newer_of_newest h.ascending hnewest
  refine ⟨k, hk, hnext, hnewer, ?_⟩
  rw [hnext, hknown, List.any_eq_false]
  intro c hc
  rw [BackupName.same_comm, BackupName.not_same_of_newer (hnewer c (List.mem_reverse.mp hc))]
  exact Bool.false_ne_true

/-- Nothing stands at the place of a backup that is newer than all that are known. -/
theorem Archive.node?_of_newer (h : Archive past t path directory name id active backups)
    {b : BackupName} (hread : BackupName.ofFileName? name (b.fileName name) = some b)
    (hnewer : ∀ c ∈ backups.map Prod.fst, b.newer c = true) :
    t.node? (directory ++ [b.fileName name]) = none := by
  have hchosen : isBackupPlace directory name (directory ++ [b.fileName name]) = true := by
    rw [isBackupPlace, backupAt?_concat, hread]
    rfl
  refine h.stands.free hchosen (by simp) fun hmem ↦ ?_
  obtain ⟨file, hfile, hplace⟩ := List.mem_map.mp hmem
  obtain ⟨backup, hbackup, rfl⟩ := List.mem_map.mp hfile
  have hnames : backup.1.fileName name = b.fileName name := by simpa using hplace
  have hequal : backup.1 = b := by
    have hread' := h.readable backup hbackup
    rw [hnames, hread] at hread'
    exact (Option.some.inj hread').symm
  have hself := BackupName.not_same_of_newer (hnewer backup.1 (List.mem_map_of_mem hbackup))
  rw [hequal] at hself
  simp [BackupName.same] at hself

/-- The active file of an archive has become its newest backup, and an empty file is in its
place. -/
theorem Archive.concat (h : Archive past t path directory name id active backups) {k : Nat}
    (hk : k < (past ++ [now]).count now)
    (hread : BackupName.ofFileName? name ((BackupName.nth now.text k).fileName name) =
      some (BackupName.nth now.text k))
    (hshort : (BackupName.nth now.text k).isLong path name = false)
    (hnewer : ∀ c ∈ backups.map Prod.fst, (BackupName.nth now.text k).newer c = true)
    {fresh : FileTree} {next : Nat} (hreaches : Reaches fresh path directory name)
    (hstands : Stands fresh (isBackupPlace directory name) (directory ++ [name]) next
      ByteArray.empty (backups.files directory name ++
        [(directory ++ [(BackupName.nth now.text k).fileName name], active)])) :
    Archive (past ++ [now]) fresh path directory name next ByteArray.empty
      (backups ++ [(BackupName.nth now.text k, active)]) where
  reaches := hreaches
  stands := by
    rw [Backups.files, List.map_append]
    exact hstands
  readable := by
    rw [List.forall_mem_append]
    exact ⟨h.readable, List.forall_mem_singleton.mpr hread⟩
  short := by
    rw [List.forall_mem_append]
    exact ⟨h.short, List.forall_mem_singleton.mpr hshort⟩
  ascending := by
    rw [List.map_append, List.pairwise_append]
    refine ⟨h.ascending, by simp, fun c hc d hd ↦ ?_⟩
    rw [List.map_singleton, List.mem_singleton] at hd
    rw [hd]
    exact hnewer c hc
  newest := by
    intro c hc
    rw [List.map_append, List.map_singleton, List.getLast?_concat, Option.mem_some] at hc
    exact ⟨now, by simp, k, hk, hc.symm⟩

/-- A rotation succeeds if the name of the next backup is short enough: the active file becomes the
newest backup, and of the backups the last ones are kept. -/
theorem Archive.rotate_of_short (h : Archive past t f.path f.directory f.name id active backups)
    (hfollows : Follows f id active backups) (hnow : now.IsReading)
    (hpast : ∀ s ∈ past, s.IsReading ∧ s ≤ now)
    (hwords : (past ++ [now]).count now ≤ UInt64.size)
    (hshort : (nextBackup f now.text).isLong f.path f.name = false) :
    ∃ left next kept, rotate t f now.text =
        (left, { f with
          handle := some next, count := 0, backups := (kept.map Prod.fst).reverse }, none) ∧
      Archive (past ++ [now]) left f.path f.directory f.name next ByteArray.empty kept ∧
      kept.map Prod.snd = keepLast f.keep (backups.map Prod.snd ++ [active]) ∧
      SameElsewhere (isBackupPlace f.directory f.name) f.place t left := by
  obtain ⟨k, hk, hnext, hnewer, hsame⟩ := h.exists_next hfollows.known hnow hpast
  rw [hnext] at hshort
  set b := BackupName.nth now.text k with hb
  have hread : BackupName.ofFileName? f.name (b.fileName f.name) = some b :=
    BackupName.ofFileName?_fileName f.name hnow (hk.trans_le hwords)
  have hchosen : isBackupPlace f.directory f.name (f.backupPlace b) = true := by
    rw [isBackupPlace, backupPlace, backupAt?_concat, hread]
    rfl
  have hopen : IsOpen t f (isBackupPlace f.directory f.name) id active
      (backups.files f.directory f.name) := ⟨h.stands, h.reaches, hfollows.handle, hfollows.count⟩
  have hfree : t.node? (f.directory ++ [b.fileName f.name]) = none := h.node?_of_newer hread hnewer
  obtain ⟨before, behind, hnodes, -, -⟩ := h.stands.layout
  have hmoved : t.rename f.directory f.name (f.backupPath b) (b.fileName f.name) = _ :=
    nodes_rename h.stands.wellFormed hnodes (f.backupPath b)
  obtain ⟨hlast, hlength⟩ := Bool.or_eq_false_iff.mp hshort
  have hpath : (f.backupPath b).isLong = false := hlength
  rw [if_neg (by simp [h.reaches.short, hlast, hpath]), if_neg (by simp [hfree])] at hmoved
  have hfits : b.fitsWord = true := BackupName.fitsWord_nth now.text (hk.trans_le hwords)
  obtain ⟨fresh, g, hg, hfresh, helsewhere, hrotate⟩ :=
    hopen.rotate_eq (hnext ▸ hfits) hsame (fun _ ↦ by rw [hnext]; exact hchosen)
      (by rw [hnext]; exact hmoved)
  rw [hnext] at hfresh hg
  have harchive : Archive (past ++ [now]) fresh g.path g.directory g.name t.next ByteArray.empty
      (backups ++ [(b, active)]) := by
    subst hg
    exact h.concat hk hread hshort hnewer hfresh.reaches hfresh.stands
  have hknown : Follows g t.next ByteArray.empty (backups ++ [(b, active)]) := by
    subst hg
    refine ⟨rfl, rfl, ?_⟩
    rw [List.map_append, List.reverse_append, ← hfollows.known]
    refine insertBackup_newest fun c hc ↦ hnewer c ?_
    rw [hfollows.known] at hc
    exact List.mem_reverse.mp (List.mem_of_mem_head? hc)
  obtain ⟨left, hprune, hkept, hsame'⟩ := harchive.prune_eq hknown
  subst hg
  refine ⟨left, t.next, keepLast f.keep (backups ++ [(b, active)]), ?_, hkept, ?_,
    helsewhere.trans hsame'⟩
  · rw [hrotate, hprune]
    rfl
  · rw [map_keepLast, List.map_append]
    rfl

/-- A write to an open log file succeeds if the name of a backup that it has to make is short
enough, and changes the bytes as the ledger says. -/
theorem Archive.write_of_short (h : Archive past t f.path f.directory f.name id active backups)
    (hfollows : Follows f id active backups) (hnow : now.IsReading)
    (hpast : ∀ s ∈ past, s.IsReading ∧ s ≤ now)
    (hwords : (past ++ [now]).count now ≤ UInt64.size)
    (hshort : f.limit < active.size →
      (nextBackup f now.text).isLong f.path f.name = false)
    {bytes : ByteArray} (hbytes : bytes.size ≠ 0)
    {l : Ledger} (hactive : l.active = active) (hbackups : l.backups = backups.map Prod.snd) :
    ∃ left next kept, write t f now.text bytes =
        (left, { f with
          handle := some next, count := (l.put f.limit f.keep bytes).active.size
          backups := (kept.map Prod.fst).reverse }, none) ∧
      Archive (past ++ [now]) left f.path f.directory f.name next
        (l.put f.limit f.keep bytes).active kept ∧
      (l.put f.limit f.keep bytes).backups = kept.map Prod.snd ∧
      SameElsewhere (isBackupPlace f.directory f.name) f.place t left := by
  have hopen : IsOpen t f (isBackupPlace f.directory f.name) id active
      (backups.files f.directory f.name) := ⟨h.stands, h.reaches, hfollows.handle, hfollows.count⟩
  by_cases hlimit : f.limit < active.size
  · obtain ⟨left, next, kept, hrotate, harchive, hkept, hsame⟩ :=
      h.rotate_of_short hfollows hnow hpast hwords (hshort hlimit)
    have hput : l.put f.limit f.keep bytes =
        { l with active := bytes, backups := keepLast f.keep (l.backups ++ [l.active]) } := by
      rw [Ledger.put, if_pos (hactive ▸ hlimit)]
    have hempty : ByteArray.empty ++ bytes = bytes := ByteArray.empty_append
    refine ⟨left.append next bytes, next, kept, ?_, ?_, ?_, ?_⟩
    · rw [hopen.write_of_lt hbytes hlimit hrotate rfl, hput, Nat.zero_add]
    · rw [hput]
      have happended := harchive.stands.append bytes
      rw [hempty] at happended
      exact { harchive with
        reaches := harchive.reaches.of_directories fun _ ↦
          harchive.stands.keepsDirectories happended.2
        stands := happended.1 }
    · rw [hput, hkept, hbackups, hactive]
    · exact hsame.trans (harchive.stands.append bytes).2
  · have hput : l.put f.limit f.keep bytes = { l with active := l.active ++ bytes } := by
      rw [Ledger.put, if_neg (hactive ▸ hlimit)]
    refine ⟨t.append id bytes, id, backups, ?_, ?_, ?_, (h.stands.append bytes).2⟩
    · rw [hopen.write_of_le _ hbytes (Nat.not_lt.mp hlimit), hput, hactive, ByteArray.size_append,
        hfollows.count, ← hfollows.known, ← hfollows.handle]
    · rw [hput, hactive]
      exact { h.later now with
        reaches := hopen.reaches_of_same (h.stands.append bytes).2
        stands := (h.stands.append bytes).1 }
    · rw [hput, hbackups]

/-- There are no more readings of a second than machine words, if there is room for the backups. -/
theorem RoomAt.count_le (h : RoomAt path name past now) : past.count now ≤ UInt64.size := by
  by_contra hcount
  exact Nat.lt_irrefl _ (h UInt64.size (Nat.not_le.mp hcount)).1

/-- A write to an open log file succeeds and changes the bytes as the ledger says. -/
theorem Archive.write_eq (h : Archive past t f.path f.directory f.name id active backups)
    (hfollows : Follows f id active backups) (hnow : now.IsReading)
    (hpast : ∀ s ∈ past, s.IsReading ∧ s ≤ now)
    (hroom : RoomAt f.path f.name (past ++ [now]) now) {bytes : ByteArray} (hbytes : bytes.size ≠ 0)
    {l : Ledger} (hactive : l.active = active) (hbackups : l.backups = backups.map Prod.snd) :
    ∃ left next kept, write t f now.text bytes =
        (left, { f with
          handle := some next, count := (l.put f.limit f.keep bytes).active.size
          backups := (kept.map Prod.fst).reverse }, none) ∧
      Archive (past ++ [now]) left f.path f.directory f.name next
        (l.put f.limit f.keep bytes).active kept ∧
      (l.put f.limit f.keep bytes).backups = kept.map Prod.snd ∧
      SameElsewhere (isBackupPlace f.directory f.name) f.place t left := by
  refine h.write_of_short hfollows hnow hpast hroom.count_le (fun _ ↦ ?_) hbytes hactive
    hbackups
  obtain ⟨k, hk, hnext, -⟩ := h.exists_next hfollows.known hnow hpast
  rw [hnext]
  exact (hroom k hk).2

end Logbook.LogFile
