import Logbook.Proofs.Rotation.Writing

/-!
# Backups that somebody else removes

Texts are written to a log file while somebody else removes backups of it at any time (`Turn`,
`Upkeep`). A rotation then may fail when it is nearly done: the file has been moved and started
anew, but the old backup that has to go is gone already. Such a write fails as a whole, and that is
all that can fail (`Whole`): none of its text is in any file, and all that was there stands, the
active file under the name of a backup. The next write finds a file with room and succeeds.

Each removal makes at most one write fail. The log file knows all its backups that are on disk
(`Tidy.known`), and those it knows but which are gone (`missing`) are the ones that a write can
still stumble over: a removal adds at most one to them (`Tidy.remove`), and a write that fails takes
one away, for it forgets the backup it could not remove (`Tidy.write`).
-/

set_option autoImplicit false
set_option relaxedAutoImplicit false

namespace Logbook.LogFile

open FileTree

variable {t t' fresh : FileTree} {f f' g : LogFile} {id : Nat} {active bytes : ByteArray}
  {b c : BackupName} {q : Place} {past : List Timestamp} {now : Timestamp}
  {failed : Option WriteError}

/-! ### Writes and removals -/

/-- What happens to an open log file: a text is written to it, or somebody else removes a file of
its directory. -/
inductive Turn where
  | write (now : Timestamp) (bytes : ByteArray)
  | remove (name : String)

/-- The files, the log file, what became of the writes so far, and how many files somebody else has
removed. -/
structure Upkeep where
  files : FileTree
  file : LogFile
  outcomes : List (Option WriteError)
  removed : Nat

/-- One turn. Only a file that is there can be removed. -/
def Upkeep.turn (u : Upkeep) : Turn → Upkeep
  | .write now bytes =>
    match LogFile.write u.files u.file now.text bytes with
    | (files, file, failed) => { u with files, file, outcomes := u.outcomes ++ [failed] }
  | .remove name =>
    match u.files.removeFile ⟨name⟩ (u.file.directory ++ [name]) with
    | .ok files => { u with files, removed := u.removed + 1 }
    | .error _ => u

/-- Turns one after the other. -/
def Upkeep.run (t : FileTree) (f : LogFile) (turns : List Turn) : Upkeep :=
  turns.foldl Upkeep.turn ⟨t, f, [], 0⟩

/-- The readings of the clock at the writes. -/
def Turn.readings (turns : List Turn) : List Timestamp :=
  turns.filterMap fun
    | .write now _ => some now
    | .remove _ => none

/-- How many writes have failed. -/
def Upkeep.failures (u : Upkeep) : Nat :=
  u.outcomes.countP Option.isSome

/-- What a write of a text can do, seen from outside. It succeeds and has appended its whole text,
where the file may have been moved before and its oldest backup removed; or it fails, and all there
was still stands, while its text is in no file. -/
inductive Whole (t t' : FileTree) (f : LogFile) (bytes : ByteArray) : Option WriteError → Prop where
  | appended {old : ByteArray} (hold : t.content? f.place = some old)
      (hnew : t'.content? f.place = some (old ++ bytes))
      (hsame : ∀ q, q ≠ f.place → t'.node? q = t.node? q) : Whole t t' f bytes none
  | renewed {old : ByteArray} {b : BackupName} (hold : t.content? f.place = some old)
      (hnew : t'.content? f.place = some bytes) (hfree : t.node? (f.backupPlace b) = none)
      (hmoved : t'.content? (f.backupPlace b) = some old)
      (hsame : ∀ q, q ≠ f.place → q ≠ f.backupPlace b → t'.node? q = t.node? q ∨
        t'.node? q = none ∧ f.backups.length = f.keep ∧
          ∃ oldest ∈ f.backups.getLast?, q = f.backupPlace oldest) : Whole t t' f bytes none
  | failed {old : ByteArray} {b : BackupName} {e : WriteError}
    (hold : t.content? f.place = some old)
      (hnew : t'.content? f.place = some ByteArray.empty) (hfree : t.node? (f.backupPlace b) = none)
      (hmoved : t'.content? (f.backupPlace b) = some old)
      (hsame : ∀ q, q ≠ f.place → q ≠ f.backupPlace b → t'.node? q = t.node? q) :
      Whole t t' f bytes (some e)

/-! ### A log file that knows its backups -/

/-- An open log file knows all its backups that are on disk, newest first, and no more than it
keeps. The newest was made at a reading of the clock that has passed. -/
structure Tidy (past : List Timestamp) (t : FileTree) (f : LogFile) (id : Nat)
    (active : ByteArray) :
    Prop where
  steady : Steady t f id active
  handle : f.handle = some id
  keeps : 0 < f.keep
  few : f.backups.length ≤ f.keep
  readable : ∀ b ∈ f.backups, BackupName.ofFileName? f.name (b.fileName f.name) = some b
  short : ∀ b ∈ f.backups, b.isLong f.path f.name = false
  descending : f.backups.Pairwise fun a b ↦ a.newer b = true
  newest : ∀ b ∈ f.backups.head?, ∃ s ∈ past, ∃ k < past.count s, b = BackupName.nth s.text k
  known : ∀ q, isBackupPlace f.directory f.name q = true →
    t.node? q = none ∨ (t.content? q).isSome = true ∧ ∃ b ∈ f.backups, q = f.backupPlace b

/-- How many of the known backups are gone. -/
def missing (t : FileTree) (f : LogFile) : Nat :=
  f.backups.countP fun b ↦ (t.node? (f.backupPlace b)).isNone

theorem isBackupPlace_backupPlace
    (h : BackupName.ofFileName? f.name (b.fileName f.name) = some b) :
    isBackupPlace f.directory f.name (f.backupPlace b) = true := by
  rw [isBackupPlace, backupPlace, backupAt?_concat, h]
  rfl

theorem ne_place_of_isBackupPlace (h : isBackupPlace f.directory f.name q = true) :
    q ≠ f.place := by
  rintro rfl
  rw [LogFile.place, isBackupPlace_self] at h
  exact absurd h (by simp)

theorem eq_of_backupPlace (hb : BackupName.ofFileName? f.name (b.fileName f.name) = some b)
    (hc : BackupName.ofFileName? f.name (c.fileName f.name) = some c)
    (h : f.backupPlace b = f.backupPlace c) : b = c := by
  have hname : b.fileName f.name = c.fileName f.name := by simpa [backupPlace] using h
  rw [hname, hc] at hb
  exact (Option.some.inj hb).symm

theorem ne_of_newer (h : b.newer c = true) : b ≠ c := by
  rintro rfl
  simpa [BackupName.same] using BackupName.not_same_of_newer h

namespace Tidy

theorem nodup (h : Tidy past t f id active) : f.backups.Nodup :=
  h.descending.imp ne_of_newer

/-- At the place of a known backup is its file, or nothing. -/
theorem notDirectory (h : Tidy past t f id active) (hb : b ∈ f.backups) :
    t.isDirectory (f.backupPlace b) = false := by
  rcases h.known _ (isBackupPlace_backupPlace (h.readable b hb)) with hnone | ⟨hfile, -⟩
  · rw [isDirectory, hnone]
  · unfold isDirectory
    split
    · next hnode =>
      rw [content?, hnode] at hfile
      exact absurd hfile (by simp)
    · rfl

/-- Only the active file has changed, and time may have passed. -/
theorem congr {past' : List Timestamp} {count id' : Nat} {active' : ByteArray}
    (h : Tidy past t f id active) (hpast : ∃ more, past' = past ++ more)
    (hsteady : Steady t' { f.reopened id' with count } id' active')
    (hsame : ∀ q, q ≠ f.place → t'.node? q = t.node? q) :
    Tidy past' t' { f.reopened id' with count } id' active' ∧
      missing t' { f.reopened id' with count } = missing t f := by
  obtain ⟨more, rfl⟩ := hpast
  refine
    ⟨⟨hsteady, rfl, h.keeps, h.few, h.readable, h.short, h.descending, ?_, ?_⟩, ?_⟩
  · intro b hb
    obtain ⟨s, hs, k, hk, rfl⟩ := h.newest b hb
    refine ⟨s, List.mem_append_left _ hs, k, ?_, rfl⟩
    rw [List.count_append]
    omega
  · intro q hq
    have hplace : q ≠ f.place := ne_place_of_isBackupPlace hq
    rw [content?, hsame q hplace, ← content?]
    exact h.known q hq
  · refine List.countP_congr fun b _ ↦ ?_
    rw [show t'.node? (backupPlace { f.reopened id' with count } b) = t.node? (f.backupPlace b) from
      hsame _ (backupPlace_ne_place f b)]

/-- The next backup is newer than all others, and nothing keeps the file from being moved to it. -/
theorem next (h : Tidy past t f id active) (hnow : now.IsReading)
    (hpast : ∀ s ∈ past, s.IsReading ∧ s ≤ now) (hroom : RoomAt f.path f.name (past ++ [now]) now) :
    obstacle? t f now.text = none ∧
      (∃ k < (past ++ [now]).count now, nextBackup f now.text = BackupName.nth now.text k) ∧
      (∀ c ∈ f.backups, (nextBackup f now.text).newer c = true) ∧
      BackupName.ofFileName? f.name ((nextBackup f now.text).fileName f.name) =
        some (nextBackup f now.text) ∧
      (nextBackup f now.text).isLong f.path f.name = false := by
  obtain ⟨k, hk, hnext, hhead⟩ := nextBackup_eq hnow hpast h.newest
  obtain ⟨hword, hshort⟩ := hroom k hk
  have hread : BackupName.ofFileName? f.name ((nextBackup f now.text).fileName f.name) =
      some (nextBackup f now.text) := by
    rw [hnext]
    exact BackupName.ofFileName?_fileName f.name hnow hword
  have hfits : (nextBackup f now.text).fitsWord = true := by
    rw [hnext]
    exact BackupName.fitsWord_nth now.text hword
  rw [← hnext] at hhead hshort
  have hnewer : ∀ c ∈ f.backups, (nextBackup f now.text).newer c = true := by
    have hdescending := h.descending
    cases hbackups : f.backups with
    | nil => exact fun c hc ↦ absurd hc List.not_mem_nil
    | cons first rest =>
      rw [hbackups] at hhead hdescending
      intro c hc
      rcases List.mem_cons.mp hc with rfl | hc
      · exact hhead c rfl
      · exact BackupName.newer_trans (hhead first rfl) ((List.pairwise_cons.mp hdescending).1 c hc)
  refine ⟨?_, ⟨k, hk, hnext⟩, hnewer, hread, hshort⟩
  have hsame : ¬f.backups.any (·.same (nextBackup f now.text)) = true := by
    rw [List.any_eq_true]
    rintro ⟨c, hc, hsame⟩
    rw [BackupName.same_comm, BackupName.not_same_of_newer (hnewer c hc)] at hsame
    exact absurd hsame (by simp)
  have hfree : t.node? (f.backupPlace (nextBackup f now.text)) = none := by
    refine (h.known _ (isBackupPlace_backupPlace hread)).resolve_right ?_
    rintro ⟨-, c, hc, hplace⟩
    exact ne_of_newer (hnewer c hc) (eq_of_backupPlace hread (h.readable c hc) hplace)
  rw [obstacle?, if_neg (by simp [hfits]), if_neg hsame, if_neg (by simp [hshort]),
    if_neg (by simp [hfree])]

/-! ### A removal -/

/-- Somebody else removes a backup: one more of the known backups is gone at most. -/
theorem remove (h : Tidy past t f id active) (hq : isBackupPlace f.directory f.name q = true)
    {path : FilePath} (hremove : t.removeFile path q = .ok t') :
    Tidy past t' f id active ∧ missing t' f ≤ missing t f + 1 := by
  obtain ⟨hfile, rfl⟩ := removeFile_eq_ok hremove
  have hroot : q ≠ [] := by
    rintro rfl
    exact absurd hfile (by simp [content?, node?])
  have hplace : f.place ≠ q := (ne_place_of_isBackupPlace hq).symm
  have hactive : (t.erase q).node? f.place = some (.file id active) := by
    rw [node?_erase_of_ne hplace, h.steady.node]
  have hkeep : ∀ r, t.isDirectory r = true → (t.erase q).isDirectory r = true := by
    intro r hr
    have hrq : r ≠ q := by
      rintro rfl
      rw [content?_of_isDirectory hr] at hfile
      exact absurd hfile Bool.false_ne_true
    rwa [isDirectory, node?_erase_of_ne hrq]
  refine ⟨{ h with
    steady := ⟨h.steady.wellFormed.erase q, h.steady.reaches.of_directories hkeep, hactive,
      h.steady.count, h.steady.handle⟩
    known := fun r hr ↦ ?_ }, ?_⟩
  · by_cases hrq : r = q
    · rw [hrq]
      exact Or.inl (node?_erase_self hroot)
    · rw [content?, node?_erase_of_ne hrq, ← content?]
      exact h.known r hr
  · obtain ⟨b, hb, rfl⟩ : ∃ b ∈ f.backups, q = f.backupPlace b := by
      refine ((h.known q hq).resolve_left fun hnone ↦ ?_).2
      rw [content?, hnone] at hfile
      exact absurd hfile (by simp)
    obtain ⟨before, behind, hsplit⟩ := List.append_of_mem hb
    have hnodup := h.nodup
    rw [hsplit, List.nodup_middle, List.nodup_cons] at hnodup
    have hothers : ∀ c ∈ before ++ behind,
        (t.erase (f.backupPlace b)).node? (f.backupPlace c) = t.node? (f.backupPlace c) := by
      intro c hc
      have hmem : c ∈ f.backups := by
        rw [hsplit]
        exact List.mem_append.mpr
          ((List.mem_append.mp hc).imp_right (List.mem_cons_of_mem b))
      refine node?_erase_of_ne fun hplace ↦ hnodup.1 ?_
      rwa [← eq_of_backupPlace (h.readable c hmem) (h.readable b hb) hplace]
    have hcount : ∀ backups : List BackupName, backups ⊆ before ++ behind →
        backups.countP (fun c ↦ ((t.erase (f.backupPlace b)).node? (f.backupPlace c)).isNone) =
          backups.countP fun c ↦ (t.node? (f.backupPlace c)).isNone :=
      fun backups hsub ↦ List.countP_congr fun c hc ↦ by rw [hothers c (hsub hc)]
    unfold missing
    rw [hsplit, List.countP_append, List.countP_append, List.countP_cons, List.countP_cons,
      hcount before (List.subset_append_left _ _), hcount behind (List.subset_append_right _ _)]
    split_ifs <;> omega

/-! ### A write -/

/-- Where there is no directory, a backup that is gone cannot be removed, and one that is there
can. -/
theorem removeAll_one (hshort : b.isLong f.path f.name = false)
    (hplace : t.isDirectory (f.backupPlace b) = false) :
    t.node? (f.backupPlace b) = none ∧ removeAll t f [b] = (t, some .notFound) ∨
      t.node? (f.backupPlace b) ≠ none ∧ removeAll t f [b] = (t.erase (f.backupPlace b), none) := by
  obtain ⟨hname, hpath⟩ := Bool.or_eq_false_iff.mp hshort
  have hlong : ((f.backupPath b).isLong ||
      ((f.backupPlace b).getLast?.map FilePath.isLongName).getD false) = false := by
    rw [show (f.backupPath b).isLong = false from hpath]
    simp [backupPlace, hname]
  cases hnode : t.node? (f.backupPlace b) with
  | none =>
    have hremove : t.removeFile (f.backupPath b) (f.backupPlace b) = .error .notFound := by
      rw [removeFile, hlong, hnode]
      rfl
    refine Or.inl ⟨rfl, ?_⟩
    rw [removeAll, hremove]
    rfl
  | some node =>
    cases node with
    | directory =>
      rw [isDirectory, hnode] at hplace
      exact absurd hplace (by simp)
    | file n content =>
      have hremove : t.removeFile (f.backupPath b) (f.backupPlace b) =
          .ok (t.erase (f.backupPlace b)) := removeFile_of_file hname hpath hnode
      refine Or.inr ⟨by simp, ?_⟩
      rw [removeAll, hremove]
      rfl

/-- A rotation forgets a backup only if as many are known as are kept, and then the oldest one. -/
theorem surplus_cases (h : Tidy past t f id active)
    (hnewer : ∀ c ∈ f.backups, (nextBackup f now.text).newer c = true) (id' : Nat) :
    (f.renewed id' now.text).surplus = [] ∧
        (f.renewed id' now.text).pruned.backups = nextBackup f now.text :: f.backups ∧
        f.backups.length < f.keep ∨
      ∃ kept oldest, f.backups = kept ++ [oldest] ∧ f.backups.length = f.keep ∧
        (f.renewed id' now.text).surplus = [oldest] ∧
        (f.renewed id' now.text).pruned.backups = nextBackup f now.text :: kept := by
  have hbackups : (f.renewed id' now.text).backups = nextBackup f now.text :: f.backups :=
    insertBackup_newest fun c hc ↦ hnewer c (List.mem_of_mem_head? hc)
  obtain ⟨m, hm⟩ : ∃ m, f.keep = m + 1 := ⟨f.keep - 1, by have := h.keeps; omega⟩
  have hkeep : (f.renewed id' now.text).keep = m + 1 := hm
  have hpruned : (f.renewed id' now.text).pruned.backups =
      nextBackup f now.text :: f.backups.take m := by
    rw [pruned, if_neg (by omega), hbackups, hkeep, List.take_succ_cons]
  have hsurplus : (f.renewed id' now.text).surplus = (f.backups.drop m).reverse := by
    rw [surplus, if_neg (by omega), hbackups, hkeep, List.drop_succ_cons]
  have hfew := h.few
  rw [hpruned, hsurplus]
  rcases List.eq_nil_or_concat f.backups with hnil | ⟨kept, oldest, hlast⟩
  · rw [hnil, List.drop_nil, List.take_nil]
    exact Or.inl ⟨rfl, rfl, by simp [hm]⟩
  · rw [List.concat_eq_append] at hlast
    have hlength : f.backups.length = kept.length + 1 := by rw [hlast]; simp
    by_cases hroom : f.backups.length < f.keep
    · rw [List.drop_of_length_le (by omega), List.take_of_length_le (by omega)]
      exact Or.inl ⟨rfl, rfl, hroom⟩
    · have hkept : kept.length = m := by omega
      refine Or.inr ⟨kept, oldest, hlast, by omega, ?_, ?_⟩
      · rw [hlast, List.drop_left' hkept]
        rfl
      · rw [hlast, List.take_left' hkept]

/-- Where the tree differs from that before a rotation: at the place of the log file, at that of the
new backup, which is the old active file, and at those of the backups that have gone. -/
theorem node?_of_moved (h : Tidy past t f id active) (hnow : now.IsReading)
    (hpast : ∀ s ∈ past, s.IsReading ∧ s ≤ now) (hroom : RoomAt f.path f.name (past ++ [now]) now)
    {kept gone : List BackupName} (hsplit : f.backups = kept ++ gone)
    (hmoved : Moved t f (nextBackup f now.text) active fresh)
    (hsame : ∀ q, q ≠ f.place → (∀ c ∈ gone, q ≠ f.backupPlace c) → t'.node? q = fresh.node? q) :
    (∃ n, t'.node? (f.backupPlace (nextBackup f now.text)) = some (.file n active)) ∧
      (∀ c ∈ kept, t'.node? (f.backupPlace c) = t.node? (f.backupPlace c)) ∧
      ∀ q, q ≠ f.place → q ≠ f.backupPlace (nextBackup f now.text) →
        (∀ c ∈ gone, q ≠ f.backupPlace c) → t'.node? q = t.node? q := by
  obtain ⟨-, -, hnewer, hread, -⟩ := h.next hnow hpast hroom
  have hkept : ∀ c ∈ kept, c ∈ f.backups := fun c hc ↦ hsplit ▸ List.mem_append_left gone hc
  have hgone : ∀ c ∈ gone, c ∈ f.backups := fun c hc ↦ hsplit ▸ List.mem_append_right kept hc
  have hothers : ∀ q, q ≠ f.place → q ≠ f.backupPlace (nextBackup f now.text) →
      (∀ c ∈ gone, q ≠ f.backupPlace c) → t'.node? q = t.node? q := fun q hq hbackup hold ↦
    (hsame q hq hold).trans (hmoved.elsewhere q hq hbackup)
  have hapart : ∀ c ∈ f.backups, f.backupPlace c ≠ f.backupPlace (nextBackup f now.text) :=
    fun c hc hplace ↦
      ne_of_newer (hnewer c hc) (eq_of_backupPlace (h.readable c hc) hread hplace).symm
  refine ⟨?_, fun c hc ↦ ?_, hothers⟩
  · obtain ⟨n, hbackup⟩ := hmoved.backup
    exact ⟨n, (hsame _ (backupPlace_ne_place f _) fun c hc ↦ (hapart c (hgone c hc)).symm).trans
      hbackup⟩
  · refine hothers _ (backupPlace_ne_place f c) (hapart c (hkept c hc)) fun d hd hplace ↦ ?_
    have hnodup := h.nodup
    rw [hsplit, List.nodup_append] at hnodup
    exact hnodup.2.2 c hc d hd
      (eq_of_backupPlace (h.readable c (hkept c hc)) (h.readable d (hgone d hd)) hplace)

/-- A log file that has been moved and started anew is tidy with the backups that are left. -/
theorem renewed (h : Tidy past t f id active) (hnow : now.IsReading)
    (hpast : ∀ s ∈ past, s.IsReading ∧ s ≤ now) (hroom : RoomAt f.path f.name (past ++ [now]) now)
    {kept gone : List BackupName} (hsplit : f.backups = kept ++ gone) (hfew : kept.length < f.keep)
    (hmoved : Moved t f (nextBackup f now.text) active fresh) {id' : Nat} {content : ByteArray}
    (hwell : t'.WellFormed) (hreaches : Reaches t' f.path f.directory f.name)
    (hnode : t'.node? f.place = some (.file id' content))
    (hsame : ∀ q, q ≠ f.place → (∀ c ∈ gone, q ≠ f.backupPlace c) → t'.node? q = fresh.node? q)
    (hgone : ∀ c ∈ gone, t'.node? (f.backupPlace c) = none)
    (hf' : f' = { f with
      handle := some id', count := content.size, backups := nextBackup f now.text :: kept }) :
    Tidy (past ++ [now]) t' f' id' content ∧
      missing t' f' = kept.countP (fun c ↦ (t.node? (f.backupPlace c)).isNone) := by
  obtain ⟨-, ⟨k, hk, hnext⟩, hnewer, hread, hshort⟩ := h.next hnow hpast hroom
  have hkept : kept.Sublist f.backups := hsplit ▸ List.sublist_append_left kept gone
  obtain ⟨⟨n, hmade⟩, hleft, hothers⟩ := h.node?_of_moved hnow hpast hroom hsplit hmoved hsame
  subst hf'
  refine
    ⟨⟨⟨hwell, hreaches, hnode, rfl, Or.inl rfl⟩, rfl, h.keeps, hfew, ?_, ?_, ?_, ?_, ?_⟩, ?_⟩
  · exact List.forall_mem_cons.mpr ⟨hread, fun c hc ↦ h.readable c (hkept.subset hc)⟩
  · exact List.forall_mem_cons.mpr ⟨hshort, fun c hc ↦ h.short c (hkept.subset hc)⟩
  · exact List.pairwise_cons.mpr
      ⟨fun c hc ↦ hnewer c (hkept.subset hc), h.descending.sublist hkept⟩
  · intro b hb
    obtain rfl : nextBackup f now.text = b := Option.some.inj hb
    exact ⟨now, by simp, k, hk, hnext⟩
  · intro q hq
    by_cases hbackup : q = f.backupPlace (nextBackup f now.text)
    · exact Or.inr ⟨by rw [hbackup, content?, hmade]; rfl, _, List.mem_cons_self, hbackup⟩
    by_cases hold : ∃ c ∈ gone, q = f.backupPlace c
    · obtain ⟨c, hc, rfl⟩ := hold
      exact Or.inl (hgone c hc)
    · push Not at hold
      rw [content?, hothers q (ne_place_of_isBackupPlace hq) hbackup hold, ← content?]
      refine (h.known q hq).imp_right ?_
      rintro ⟨hfile, c, hc, hplace⟩
      refine ⟨hfile, c, ?_, hplace⟩
      rw [hsplit] at hc
      rcases List.mem_append.mp hc with hc | hc
      · exact List.mem_cons_of_mem _ hc
      · exact absurd hplace (hold c hc)
  · have hmissing : missing t' { f with
        handle := some id', count := content.size, backups := nextBackup f now.text :: kept } =
        (nextBackup f now.text :: kept).countP fun c ↦ (t'.node? (f.backupPlace c)).isNone := rfl
    rw [hmissing, List.countP_cons_of_neg (by simp [hmade])]
    exact List.countP_congr fun c hc ↦ by rw [hleft c hc]

/-- What pruning does to the tree in which the file has been moved: at most the oldest backup has to
go. It is gone behind that, and if it could not be removed it was gone before. -/
theorem exists_gone (h : Tidy past t f id active) (hnow : now.IsReading)
    (hpast : ∀ s ∈ past, s.IsReading ∧ s ≤ now) (hroom : RoomAt f.path f.name (past ++ [now]) now)
    (hmoved : Moved t f (nextBackup f now.text) active fresh) {id' : Nat} {left : FileTree}
    {failed : Option IoError}
    (hleft : removeAll fresh (f.renewed id' now.text) (f.renewed id' now.text).surplus =
      (left, failed)) :
    ∃ kept gone, f.backups = kept ++ gone ∧ kept.length < f.keep ∧
      (f.renewed id' now.text).pruned.backups = nextBackup f now.text :: kept ∧
      (∀ c ∈ gone, f.backups.length = f.keep ∧ f.backups.getLast? = some c) ∧
      (∀ q, q ≠ f.place → (∀ c ∈ gone, q ≠ f.backupPlace c) → left.node? q = fresh.node? q) ∧
      (∀ c ∈ gone, left.node? (f.backupPlace c) = none) ∧
      (failed.isSome = true → ∀ c ∈ gone, t.node? (f.backupPlace c) = none) ∧
      (if failed.isSome then 1 else 0) ≤
        gone.countP fun c ↦ (t.node? (f.backupPlace c)).isNone := by
  obtain ⟨-, -, hnewer, hread, -⟩ := h.next hnow hpast hroom
  rcases h.surplus_cases hnewer id' with
    ⟨hsurplus, hpruned, hless⟩ | ⟨kept, oldest, hlast, hlength, hsurplus, hpruned⟩
  · rw [hsurplus] at hleft
    obtain ⟨rfl, rfl⟩ := Prod.mk.inj hleft
    exact ⟨f.backups, [], (List.append_nil _).symm, hless, hpruned, by simp, fun _ _ _ ↦ rfl,
      by simp, by simp, by simp⟩
  · have hold : oldest ∈ f.backups := by rw [hlast]; simp
    have hfew : kept.length < f.keep := by rw [← hlength, hlast]; simp
    have hapart : f.backupPlace oldest ≠ f.backupPlace (nextBackup f now.text) := fun hplace ↦
      ne_of_newer (hnewer oldest hold)
        (eq_of_backupPlace (h.readable oldest hold) hread hplace).symm
    have hplace : fresh.node? (f.backupPlace oldest) = t.node? (f.backupPlace oldest) :=
      hmoved.elsewhere _ (backupPlace_ne_place f oldest) hapart
    have hdirectory : fresh.isDirectory (f.backupPlace oldest) = false := by
      rw [isDirectory, hplace]
      exact h.notDirectory hold
    have hbackup : (f.renewed id' now.text).backupPlace oldest = f.backupPlace oldest := rfl
    have honly : ∀ c ∈ [oldest], f.backups.length = f.keep ∧ f.backups.getLast? = some c := by
      intro c hc
      rw [List.mem_singleton.mp hc, hlast]
      exact ⟨hlast ▸ hlength, List.getLast?_concat ..⟩
    have hremoved := removeAll_one (f := f.renewed id' now.text) (h.short oldest hold)
      hdirectory
    rw [← hsurplus, hleft, hbackup, hplace, Prod.mk.injEq, Prod.mk.injEq] at hremoved
    refine ⟨kept, [oldest], hlast, hfew, hpruned, honly, ?_⟩
    rcases hremoved with ⟨hnone, rfl, rfl⟩ | ⟨hthere, rfl, rfl⟩
    · exact ⟨fun _ _ _ ↦ rfl, by simpa [hplace] using hnone, by simpa using hnone, by simp [hnone]⟩
    · refine ⟨fun q _ hq ↦ node?_erase_of_ne (by simpa using hq), fun c hc ↦ ?_, by simp, by simp⟩
      rw [List.mem_singleton.mp hc]
      exact node?_erase_self (by simp [backupPlace])

/-- What a write does to a tidy log file: it succeeds or fails as a whole, it fails only if the file
held something, and it then leaves an empty file and one less of the missing backups. -/
theorem write (h : Tidy past t f id active) (hnow : now.IsReading)
    (hpast : ∀ s ∈ past, s.IsReading ∧ s ≤ now) (hroom : RoomAt f.path f.name (past ++ [now]) now)
    (hwrite : LogFile.write t f now.text bytes = (t', f', failed)) :
    Whole t t' f bytes failed ∧ ∃ id' active', Tidy (past ++ [now]) t' f' id' active' ∧
      (failed.isSome = true → active' = ByteArray.empty) ∧
      (active = ByteArray.empty → failed = none) ∧
      missing t' f' + (if failed.isSome then 1 else 0) ≤ missing t f := by
  have hactive : t.content? f.place = some active := by rw [content?, h.steady.node]
  have hreaches := h.steady.reaches_written (h.steady.written hwrite)
  cases h.steady.written hwrite with
  | idle hbytes =>
    have hbytes : bytes = ByteArray.empty := ByteArray.size_eq_zero_iff.mp hbytes
    have hf : { f.reopened id with count := f.count } = f := by rw [reopened, ← h.handle]
    have hsteady : Steady t { f.reopened id with count := f.count } id active := by
      rw [hf]
      exact h.steady
    obtain ⟨htidy, -⟩ := h.congr ⟨[now], rfl⟩ hsteady fun _ _ ↦ rfl
    rw [hf] at htidy
    refine ⟨.appended hactive ?_ fun _ _ ↦ rfl, id, active, htidy, by simp, fun _ ↦ rfl, by simp⟩
    rw [hactive, hbytes, ByteArray.append_empty]
  | appended hbytes hlimit hwell hnode helsewhere =>
    obtain ⟨htidy, hmissing⟩ := h.congr ⟨[now], rfl⟩ (h.steady.grown hreaches hwell hnode) helsewhere
    exact ⟨.appended hactive (by rw [content?, hnode]) helsewhere, id, active ++ bytes, htidy,
      by simp, fun _ ↦ rfl, by simp [hmissing]⟩
  | refused hbytes hlimit hrefused =>
    rw [(h.next hnow hpast hroom).1] at hrefused
    exact absurd hrefused (by simp)
  | @rotated fresh _ g failed content hbytes hlimit _ hmoved hg hfailed hcontent hwell hnode
    helsewhere =>
    subst hg
    have hleft : removeAll fresh (f.renewed t.next now.text) (f.renewed t.next now.text).surplus =
        (_, failed) := Prod.ext rfl hfailed
    obtain ⟨kept, gone, hsplit, hfew, hpruned, honly, hsame, hgone, hmissed, hcount⟩ :=
      h.exists_gone hnow hpast hroom hmoved hleft
    have hf' : { (f.renewed t.next now.text).pruned with count := content.size } = { f with
        handle := some t.next, count := content.size,
        backups := nextBackup f now.text :: kept } := by
      rw [← hpruned]
      rfl
    have hsame' : ∀ q, q ≠ f.place → (∀ c ∈ gone, q ≠ f.backupPlace c) →
        t'.node? q = fresh.node? q := fun q hq hold ↦ (helsewhere q hq).trans (hsame q hq hold)
    have hgone' : ∀ c ∈ gone, t'.node? (f.backupPlace c) = none := fun c hc ↦
      (helsewhere _ (backupPlace_ne_place f c)).trans (hgone c hc)
    obtain ⟨htidy, hmissing⟩ :=
      h.renewed hnow hpast hroom hsplit hfew hmoved hwell hreaches hnode hsame' hgone' hf'
    obtain ⟨⟨n, hbackup⟩, -, hothers⟩ := h.node?_of_moved hnow hpast hroom hsplit hmoved hsame'
    have hmade : t'.content? (f.backupPlace (nextBackup f now.text)) = some active := by
      rw [content?, hbackup]
    have hrest : ∀ q, q ≠ f.place → q ≠ f.backupPlace (nextBackup f now.text) →
        t'.node? q = t.node? q ∨ ∃ c ∈ gone, q = f.backupPlace c := fun q hq hbackup ↦
      or_iff_not_imp_right.mpr fun hold ↦ hothers q hq hbackup (by simpa using hold)
    refine ⟨?_, t.next, content, htidy, ?_, ?_, ?_⟩
    · cases failed with
      | none =>
        obtain rfl : content = bytes := hcontent
        refine .renewed hactive (by rw [content?, hnode]) hmoved.free hmade fun q hq hbackup ↦ ?_
        refine (hrest q hq hbackup).imp_right ?_
        rintro ⟨c, hc, rfl⟩
        exact ⟨hgone' c hc, (honly c hc).1, c, (honly c hc).2, rfl⟩
      | some e =>
        obtain rfl : content = ByteArray.empty := hcontent
        refine .failed hactive (by rw [content?, hnode]) hmoved.free hmade fun q hq hbackup ↦ ?_
        rcases hrest q hq hbackup with hsame | ⟨c, hc, rfl⟩
        · exact hsame
        · rw [hgone' c hc, hmissed rfl c hc]
    · intro hfailed
      rw [hcontent, if_pos (by simpa using hfailed)]
    · rintro rfl
      exact absurd hlimit (Nat.not_lt_zero _)
    · rw [hmissing, missing, hsplit, List.countP_append, Option.isSome_map]
      omega

end Tidy

/-! ### Every run -/

/-- What a turn needs: where it writes, a clock that has not gone backwards and room for the backup
it may make; where it removes something, that this has the name of a backup. -/
def Turn.Fits (path : FilePath) (name : String) (past : List Timestamp) : Turn → Prop
  | .write now _ => now.IsReading ∧ (∀ s ∈ past, s.IsReading ∧ s ≤ now) ∧
      RoomAt path name (past ++ [now]) now
  | .remove other => (BackupName.ofFileName? name other).isSome = true

/-- A log file among its turns: it is tidy, it is empty if the last write failed, and the writes
that have failed and those that may still fail are paid for by the removals. -/
structure Upkeep.Sound (f : LogFile) (past : List Timestamp) (u : Upkeep) : Prop where
  path : u.file.path = f.path
  directory : u.file.directory = f.directory
  name : u.file.name = f.name
  tidy : ∃ id active, Tidy past u.files u.file id active ∧
    ((∃ e, u.outcomes.getLast? = some (some e)) → active = ByteArray.empty)
  paid : u.failures + missing u.files u.file ≤ u.removed

variable {u : Upkeep} {turns done : List Turn}

theorem Upkeep.turn_write
    (hwrite : LogFile.write u.files u.file now.text bytes = (t', f', failed)) :
    u.turn (.write now bytes) =
      { u with files := t', file := f', outcomes := u.outcomes ++ [failed] } := by
  rw [Upkeep.turn, hwrite]

/-- A turn that writes fails or succeeds as a whole, and succeeds if the write before it failed. -/
theorem Upkeep.Sound.write (h : u.Sound f past)
    (hfits : (Turn.write now bytes).Fits f.path f.name past) :
    (u.turn (.write now bytes)).Sound f (past ++ [now]) ∧
      ∃ failed, (u.turn (.write now bytes)).outcomes = u.outcomes ++ [failed] ∧
        Whole u.files (u.turn (.write now bytes)).files u.file bytes failed ∧
        ((∃ e, u.outcomes.getLast? = some (some e)) → failed = none) := by
  obtain ⟨hnow, hpast, hroom⟩ := hfits
  obtain ⟨id, active, htidy, hlast⟩ := h.tidy
  rcases hwrite : LogFile.write u.files u.file now.text bytes with ⟨left, g, failed⟩
  obtain ⟨hwhole, id', active', htidy', hempty, hheals, hmissing⟩ :=
    htidy.write hnow hpast (h.path ▸ h.name ▸ hroom) hwrite
  obtain ⟨hpath, hdirectory, hname, -⟩ := (htidy.steady.written hwrite).same
  rw [Upkeep.turn_write hwrite]
  refine ⟨⟨hpath.trans h.path, hdirectory.trans h.directory, hname.trans h.name,
    ⟨id', active', htidy', ?_⟩, ?_⟩, failed, rfl, hwhole, fun hfailed ↦ hheals (hlast hfailed)⟩
  · rintro ⟨e, he⟩
    have hfailed : failed = some e := by simpa using he
    exact hempty (by rw [hfailed]; rfl)
  · have hpaid := h.paid
    show (u.outcomes ++ [failed]).countP Option.isSome + missing left g ≤ u.removed
    rw [List.countP_append, List.countP_singleton]
    unfold Upkeep.failures at hpaid
    omega

theorem Upkeep.Sound.turn (h : u.Sound f past) {a : Turn} (hfits : a.Fits f.path f.name past) :
    (u.turn a).Sound f (past ++ Turn.readings [a]) := by
  cases a with
  | write now bytes => exact (h.write hfits).1
  | remove other =>
    have hpast : past ++ Turn.readings [.remove other] = past := List.append_nil past
    rw [hpast, Upkeep.turn]
    split
    · next left hremove =>
      obtain ⟨id, active, htidy, hlast⟩ := h.tidy
      have hbackup :
          isBackupPlace u.file.directory u.file.name (u.file.directory ++ [other]) = true := by
        rw [isBackupPlace, backupAt?_concat, h.name]
        exact hfits
      obtain ⟨htidy', hmissing⟩ := htidy.remove hbackup hremove
      refine ⟨h.path, h.directory, h.name, ⟨id, active, htidy', hlast⟩, ?_⟩
      have hpaid := h.paid
      show u.outcomes.countP Option.isSome + missing left u.file ≤ u.removed + 1
      unfold Upkeep.failures at hpaid
      omega
    · exact h

theorem Upkeep.run_concat (t : FileTree) (f : LogFile) (done : List Turn) (a : Turn) :
    Upkeep.run t f (done ++ [a]) = (Upkeep.run t f done).turn a :=
  List.foldl_concat ..

theorem Turn.readings_append (done rest : List Turn) :
    Turn.readings (done ++ rest) = Turn.readings done ++ Turn.readings rest :=
  List.filterMap_append

/-- A log file that has just been opened in a directory without backups of it. -/
theorem sound_of_openAt {path : FilePath} {limit keep : Nat} {made : FileTree} (ht : t.WellFormed)
    (hopen : openAt t path limit keep = (made, .ok f)) (hkeep : 0 < keep)
    (hnone : ∀ q, isBackupPlace f.directory f.name q = true → made.node? q = none) :
    (Upkeep.run made f []).Sound f [] := by
  obtain ⟨directory, name, id, hprepare, hf, -⟩ := openAt_eq_ok ht hopen
  have hdirectory : f.directory = directory := by rw [hf]; simp [start]
  have hname : f.name = name := by rw [hf]; simp [start]
  obtain ⟨harchive, -⟩ := archive_of_prepare [] ht hprepare (hdirectory ▸ hname ▸ hnone)
  have hbackups : f.backups = [] := by
    rw [hf, harchive.start_eq]
    rfl
  have hsteady : Steady made f id _ := hf ▸ steady_start ht hprepare limit keep
  have hkeep' : f.keep = keep := by rw [hf]; rfl
  refine ⟨rfl, rfl, rfl, ⟨id, _, ⟨hsteady, by rw [hf]; rfl, hkeep' ▸ hkeep, ?_, ?_, ?_, ?_, ?_,
    fun q hq ↦ Or.inl (hnone q hq)⟩, ?_⟩, ?_⟩
  · rw [show (Upkeep.run made f []).file = f from rfl, hbackups]
    exact Nat.zero_le _
  all_goals simp [Upkeep.run, Upkeep.failures, missing, hbackups]

/-- Behind turns that fit, everything is in order. -/
theorem sound_of_turns (h : (Upkeep.run t f []).Sound f [])
    (hfits : ∀ before a, before ++ [a] <+: done → a.Fits f.path f.name (Turn.readings before)) :
    (Upkeep.run t f done).Sound f (Turn.readings done) := by
  induction done using List.reverseRecOn with
  | nil => exact h
  | append_singleton done a ih =>
    rw [Upkeep.run_concat, Turn.readings_append]
    exact (ih fun before b hb ↦ hfits before b (hb.trans (List.prefix_append done [a]))).turn
      (hfits done a (List.prefix_refl _))

theorem fits_of_turns (hreadings : ∀ s ∈ Turn.readings turns, s.IsReading)
    (hclock : (Turn.readings turns).Pairwise (· ≤ ·))
    (hroom : ∀ s ∈ Turn.readings turns, RoomAt f.path f.name (Turn.readings turns) s)
    (hremoves : ∀ other, .remove other ∈ turns →
      (BackupName.ofFileName? f.name other).isSome = true) (before : List Turn) (a : Turn)
    (ha : before ++ [a] <+: turns) : a.Fits f.path f.name (Turn.readings before) := by
  cases a with
  | write now bytes =>
    obtain ⟨behind, rfl⟩ := ha
    refine fits_of_prefix hreadings hclock hroom ⟨Turn.readings behind, ?_⟩
    rw [Turn.readings_append, Turn.readings_append]
    rfl
  | remove other => exact hremoves other (ha.subset (by simp))

/-- Texts are written to a log file that was opened in a directory without backups of it, with a
positive number of backups to keep, while somebody else removes backups. Every write fails or
succeeds as a whole, and the one right behind a write that failed succeeds. No more writes fail than
backups are removed by somebody else. -/
theorem heals_of_run {path : FilePath} {limit keep : Nat} {made : FileTree} (ht : t.WellFormed)
    (hopen : openAt t path limit keep = (made, .ok f)) (hkeep : 0 < keep)
    (hnone : ∀ q, isBackupPlace f.directory f.name q = true → made.node? q = none)
    (hreadings : ∀ s ∈ Turn.readings turns, s.IsReading)
    (hclock : (Turn.readings turns).Pairwise (· ≤ ·))
    (hroom : ∀ s ∈ Turn.readings turns, RoomAt f.path f.name (Turn.readings turns) s)
    (hremoves : ∀ other, .remove other ∈ turns →
      (BackupName.ofFileName? f.name other).isSome = true) :
    (∀ done now bytes, done ++ [.write now bytes] <+: turns →
      (Upkeep.run made f done).file.place = f.place ∧
      ∃ failed, (Upkeep.run made f (done ++ [.write now bytes])).outcomes =
          (Upkeep.run made f done).outcomes ++ [failed] ∧
        Whole (Upkeep.run made f done).files (Upkeep.run made f (done ++ [.write now bytes])).files
          (Upkeep.run made f done).file bytes failed ∧
        ((∃ e, (Upkeep.run made f done).outcomes.getLast? = some (some e)) → failed = none)) ∧
      (Upkeep.run made f turns).failures ≤ (Upkeep.run made f turns).removed := by
  have hstart := sound_of_openAt ht hopen hkeep hnone
  have hfits := fits_of_turns hreadings hclock hroom hremoves
  refine ⟨fun done now bytes hdone ↦ ?_, ?_⟩
  · have hsound := sound_of_turns hstart fun before a ha ↦
      hfits before a ((ha.trans (List.prefix_append done _)).trans hdone)
    rw [Upkeep.run_concat, LogFile.place, LogFile.place, hsound.directory, hsound.name]
    exact ⟨rfl, (hsound.write (hfits done _ hdone)).2⟩
  · exact (Nat.le_add_right _ _).trans (sound_of_turns hstart hfits).paid

/-- A log file that is full with three bytes and keeps one backup. -/
def smallLog : LogFile :=
  ⟨⟨"app.log"⟩, [], "app.log", 2, 1, some 0, 0, []⟩

/-- Nothing but an empty log file. -/
def smallFiles : FileTree :=
  ⟨[(["app.log"], .file 0 ByteArray.empty)], 1⟩

/-- The one backup is removed by somebody else, and the next rotation fails. Its text is nowhere,
the text before it is in a backup, and the text after it is in the file. -/
theorem heals_of_run_once :
    let run := Upkeep.run smallFiles smallLog
      [.write ⟨2024, 2, 29, 23, 59, 59⟩ "abc".toUTF8, .write ⟨2024, 2, 29, 23, 59, 59⟩ "def".toUTF8,
        .remove "app.log.20240229T235959", .write ⟨2024, 3, 1, 0, 0, 0⟩ "ghi".toUTF8,
        .write ⟨2024, 3, 1, 0, 0, 0⟩ "jkl".toUTF8]
    run.failures ≤ run.removed ∧ run.outcomes = [none, none, some (.io .notFound), none] ∧
      run.files.content? ["app.log"] = some "jkl".toUTF8 ∧
      run.files.content? ["app.log.20240301T000000"] = some "def".toUTF8 := by
  have hopen : openAt FileTree.empty ⟨"app.log"⟩ 2 1 = (smallFiles, .ok smallLog) := rfl
  have hnone : ∀ q, isBackupPlace [] "app.log" q = true → smallFiles.node? q = none := by
    intro q hq
    rw [← Option.not_isSome_iff_eq_none, isSome_node?_iff]
    rintro (rfl | hmem)
    · exact absurd hq (by decide)
    · obtain rfl : q = ["app.log"] := by simpa [places, smallFiles] using hmem
      exact absurd hq (by decide)
  refine ⟨(heals_of_run wellFormed_empty hopen (by decide) hnone (by decide) (by decide) (by decide)
    fun other hother ↦ ?_).2, by decide +kernel, by decide +kernel, by decide +kernel⟩
  obtain rfl : other = "app.log.20240229T235959" := by simpa using hother
  decide +kernel

end Logbook.LogFile
