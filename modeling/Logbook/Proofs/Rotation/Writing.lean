import Logbook.Proofs.Rotation.Latest

/-!
# What a write does to the files

Between two writes a log file is steady (`Steady`): its file stands at its place and holds the bytes
that were counted. Most of the time it is open as well; after a rotation that could not move the
file it is not, and then the next write rotates again and opens it before it does.

A write to a steady log file does one of three things (`Written`, `Steady.written`). It appends; or
it finds an obstacle to the rotation (`obstacle?`) and leaves the files alone; or it moves the file
to a free place, starts it anew and removes old backups, and if all of them could be removed it
appends. In each case the log file is steady again (`Steady.write`).

Besides the active file a write touches only places of backups: of those it knows, and of the next
one if that place is free (`Written.elsewhere`). What stands there is removed as a whole or left
as it is, and what comes to a free place is the old active file (`Written.at_place`).
-/

set_option autoImplicit false
set_option relaxedAutoImplicit false

namespace Logbook.LogFile

open FileTree

variable {t t' fresh : FileTree} {f f' : LogFile} {id next : Nat} {active bytes : ByteArray}
  {now : String} {b : BackupName} {q : Place} {failed : Option WriteError} {e : WriteError}

/-! ### Between two writes -/

/-- The path leads to the active file, which stands at its place and holds the bytes that were
counted. It is open, or it holds so many bytes that the next write opens it before anything else. -/
structure Steady (t : FileTree) (f : LogFile) (id : Nat) (active : ByteArray) : Prop where
  wellFormed : t.WellFormed
  reaches : Reaches t f.path f.directory f.name
  node : t.node? f.place = some (.file id active)
  count : f.count = active.size
  handle : f.handle = some id ∨ f.handle = none ∧ f.limit < active.size

/-- A log file that is written to under the number of its file. -/
def reopened (f : LogFile) (id : Nat) : LogFile :=
  { f with handle := some id }

/-- A steady log file may be opened again. -/
theorem Steady.reopened (h : Steady t f id active) : Steady t (f.reopened id) id active :=
  ⟨h.wellFormed, h.reaches, h.node, h.count, Or.inl rfl⟩

theorem Steady.settle_eq (h : Steady t f id active) : settle t f = (t, f.reopened id) := by
  rcases h.handle with hhandle | ⟨hhandle, -⟩
  · have hf : f.reopened id = f := by rw [LogFile.reopened, ← hhandle]
    rw [settle, h.node, hhandle, hf]
    rfl
  · have hplace : LogFile.place { f with handle := some id } = f.place := rfl
    rw [settle, h.node, hhandle]
    simp [reopen, h.node, content?, LogFile.reopened, hplace, ← h.count]

/-- Any place that is free may be looked at as the one place of backups. -/
theorem Steady.isOpen (h : Steady t f id active) {p : Place → Bool}
    (hfree : ∀ q, p q = true → t.node? q = none) : IsOpen t (f.reopened id) p id active [] :=
  ⟨Stands.of_node? h.wellFormed f.place_ne_nil h.node hfree, h.reaches, rfl, h.count⟩

/-- A rotation begins by opening the file. -/
theorem Steady.rotate_reopened (h : Steady t f id active) (now : String) :
    rotate t f now = rotate t (f.reopened id) now := by
  have hopen : IsOpen t (f.reopened id) nowhere id active [] :=
    h.isOpen fun _ hq ↦ absurd hq Bool.false_ne_true
  have hreopened : settle t (f.reopened id) = (t, f.reopened id) := h.reopened.settle_eq
  rcases h.reaches.restore_eq h.node with hrestore | hrestore <;>
    rw [rotate, rotate, hopen.restore_eq]
  · simp only [hrestore, h.settle_eq, hreopened]
  · have hrestore' : restore t f = (t, some (f.reopened id)) := hrestore
    simp only [hrestore']

/-- A log file of a path that has been opened. -/
theorem steady_start {path : FilePath} {made : FileTree} {place : Place} (ht : t.WellFormed)
    (hprepare : prepare t path = (made, .ok (place, id))) (limit keep : Nat) :
    Steady made (start made path place id limit keep) id
      ((t.content? place).getD ByteArray.empty) := by
  have hplace := place_start ht hprepare limit keep
  obtain ⟨-, -, -, -, hwell, hnode, -⟩ := prepare_eq_ok ht hprepare
  refine ⟨hwell, reaches_start ht hprepare limit keep, by rw [hplace, hnode], ?_, Or.inl rfl⟩
  show ((made.content? place).getD ByteArray.empty).size = _
  rw [content?, hnode]
  rfl

/-! ### Rotations -/

/-- What keeps the file from being moved to its next backup. -/
def obstacle? (t : FileTree) (f : LogFile) (now : String) : Option WriteError :=
  if !(nextBackup f now).fitsWord then some .outOfNumbers
  else if f.backups.any (·.same (nextBackup f now)) then some .nameTaken
  else if (nextBackup f now).isLong f.path f.name then some (.io .nameTooLong)
  else if (t.node? (f.backupPlace (nextBackup f now))).isSome then some .placeTaken
  else none

/-- The file has been moved to a backup at a free place, and a new one is at its own place. -/
structure Moved (t : FileTree) (f : LogFile) (b : BackupName) (active : ByteArray)
    (fresh : FileTree) : Prop where
  wellFormed : fresh.WellFormed
  free : t.node? (f.backupPlace b) = none
  new : fresh.node? f.place = some (.file t.next ByteArray.empty)
  backup : ∃ n, fresh.node? (f.backupPlace b) = some (.file n active)
  elsewhere : ∀ q, q ≠ f.place → q ≠ f.backupPlace b → fresh.node? q = t.node? q

/-- The log file that has been started anew, with one more backup. -/
def renewed (f : LogFile) (id : Nat) (now : String) : LogFile :=
  { f with handle := some id, count := 0, backups := insertBackup (nextBackup f now) f.backups }

/-- The backups that pruning forgets, the oldest first. -/
def surplus (f : LogFile) : List BackupName :=
  if f.keep = 0 then [] else (f.backups.drop f.keep).reverse

/-- The log file that knows no more backups than it keeps. -/
def pruned (f : LogFile) : LogFile :=
  { f with backups := if f.keep = 0 then f.backups else f.backups.take f.keep }

theorem prune_eq (t : FileTree) (f : LogFile) :
    prune t f = ((removeAll t f f.surplus).1, f.pruned, (removeAll t f f.surplus).2) := by
  unfold prune surplus pruned
  split_ifs <;> rfl

theorem Steady.rename_eq (h : Steady t f id active) (b : BackupName) :
    ∃ moved, t.rename f.directory f.name (f.backupPath b) (b.fileName f.name) =
      if b.isLong f.path f.name then .error .nameTooLong
      else if (t.node? (f.backupPlace b)).isSome then .error .alreadyExists
      else .ok moved := by
  obtain ⟨before, behind, hnodes⟩ := exists_around f.place_ne_nil h.node
  have hlong : (FilePath.isLongName f.name || FilePath.isLongName (b.fileName f.name) ||
      (f.backupPath b).isLong) = b.isLong f.path f.name := by
    rw [h.reaches.short, Bool.false_or]
    rfl
  rw [nodes_rename h.wellFormed hnodes, hlong]
  exact ⟨_, rfl⟩

theorem Steady.rotate_of_obstacle (h : Steady t f id active)
    (hobstacle : obstacle? t f now = some e) :
    rotate t f now = (t, { f with handle := none }, some e) := by
  obtain ⟨moved, hrename⟩ := h.rename_eq (nextBackup f now)
  have hopen : IsOpen t (f.reopened id) nowhere id active [] :=
    h.isOpen fun _ hq ↦ absurd hq Bool.false_ne_true
  have hbackup : nextBackup { f.reopened id with handle := none } now = nextBackup f now := rfl
  have hpath : backupPath { f.reopened id with handle := none } (nextBackup f now) =
      f.backupPath (nextBackup f now) := rfl
  rw [h.rotate_reopened, rotate, hopen.restore_eq]
  simp only [hopen.settle_eq, hbackup, hpath]
  unfold obstacle? at hobstacle
  split_ifs at hobstacle with hfits hsame hlong htaken <;> rw [← Option.some.inj hobstacle]
  · exact if_pos hfits
  · exact (if_neg hfits).trans (if_pos hsame)
  · rw [if_pos hlong] at hrename
    refine (if_neg hfits).trans ((if_neg hsame).trans ?_)
    dsimp only [LogFile.reopened]
    rw [hrename]
    rfl
  · rw [if_neg hlong, if_pos htaken] at hrename
    refine (if_neg hfits).trans ((if_neg hsame).trans ?_)
    dsimp only [LogFile.reopened]
    rw [hrename]
    rfl

theorem Steady.rotate_of_free (h : Steady t f id active) (hobstacle : obstacle? t f now = none) :
    ∃ fresh, Moved t f (nextBackup f now) active fresh ∧
      rotate t f now =
        ((removeAll fresh (f.renewed t.next now) (f.renewed t.next now).surplus).1,
          (f.renewed t.next now).pruned,
          (removeAll fresh (f.renewed t.next now) (f.renewed t.next now).surplus).2.map .io) := by
  obtain ⟨moved, hrename⟩ := h.rename_eq (nextBackup f now)
  unfold obstacle? at hobstacle
  split_ifs at hobstacle with hfits hsame hlong htaken
  rw [if_neg hlong, if_neg htaken] at hrename
  have hfree : t.node? (f.backupPlace (nextBackup f now)) = none :=
    Option.not_isSome_iff_eq_none.mp htaken
  -- The place of the next backup is free, so it may be looked at as the one place of backups.
  have hopen : IsOpen t (f.reopened id)
      (fun q ↦ decide (q = f.backupPlace (nextBackup f now))) id active [] :=
    h.isOpen fun q hq ↦ by rwa [of_decide_eq_true hq]
  have hfits' : (nextBackup f now).fitsWord = true := by simpa using hfits
  obtain ⟨fresh, g, hg, hfresh, helsewhere, hrotate⟩ :=
    hopen.rotate_eq hfits' (Bool.eq_false_iff.mpr hsame)
      (fun _ ↦ decide_eq_true rfl) hrename
  obtain rfl : g = f.renewed t.next now := hg
  refine ⟨fresh, ⟨hfresh.stands.wellFormed, hfree, hfresh.stands.node?_eq,
    hfresh.stands.node?_backup List.mem_cons_self,
    fun q hq hbackup ↦ helsewhere q hq (decide_eq_false hbackup)⟩, ?_⟩
  rw [h.rotate_reopened, hrotate, prune_eq]

/-! ### Writes -/

/-- What a write can do to a log file whose active file has this number and these bytes. -/
inductive Written (t : FileTree) (f : LogFile) (id : Nat) (active : ByteArray) (now : String)
    (bytes : ByteArray) : FileTree → LogFile → Option WriteError → Prop where
  /-- There is nothing to write. -/
  | idle (hbytes : bytes.size = 0) : Written t f id active now bytes t f none
  /-- The file has room, and the text is appended. -/
  | appended {t' : FileTree} (hbytes : bytes.size ≠ 0) (hlimit : active.size ≤ f.limit)
      (hwell : t'.WellFormed) (hnode : t'.node? f.place = some (.file id (active ++ bytes)))
      (helsewhere : ∀ q, q ≠ f.place → t'.node? q = t.node? q) :
      Written t f id active now bytes t' { f.reopened id with count := f.count + bytes.size } none
  /-- The file is full but cannot be moved, and nothing happens to it. -/
  | refused {e : WriteError} (hbytes : bytes.size ≠ 0) (hlimit : f.limit < active.size)
      (hobstacle : obstacle? t f now = some e) :
      Written t f id active now bytes t { f with handle := none } (some e)
  /-- The file is full and is moved, and old backups are removed. The new file gets the text if all
  of them could be removed. -/
  | rotated {fresh t' : FileTree} {g : LogFile} {failed : Option IoError} {content : ByteArray}
      (hbytes : bytes.size ≠ 0) (hlimit : f.limit < active.size)
      (hobstacle : obstacle? t f now = none) (hmoved : Moved t f (nextBackup f now) active fresh)
      (hg : g = f.renewed t.next now) (hfailed : (removeAll fresh g g.surplus).2 = failed)
      (hcontent : content = if failed.isSome then ByteArray.empty else bytes)
      (hwell : t'.WellFormed) (hnode : t'.node? f.place = some (.file t.next content))
      (helsewhere : ∀ q, q ≠ f.place → t'.node? q = (removeAll fresh g g.surplus).1.node? q) :
      Written t f id active now bytes t' { g.pruned with count := content.size } (failed.map .io)

/-- What appending does to a file of a tree. -/
theorem node?_append {place : Place} (ht : t.WellFormed) (hplace : place ≠ [])
    (hnode : t.node? place = some (.file id active)) (bytes : ByteArray) :
    (t.append id bytes).WellFormed ∧
      (t.append id bytes).node? place = some (.file id (active ++ bytes)) ∧
      ∀ q, q ≠ place → (t.append id bytes).node? q = t.node? q := by
  have hstands : Stands t nowhere place id active [] :=
    Stands.of_node? ht hplace hnode fun _ hq ↦ absurd hq Bool.false_ne_true
  obtain ⟨happended, hsame⟩ := hstands.append bytes
  exact ⟨happended.wellFormed, happended.node?_eq, fun q hq ↦ hsame q hq rfl⟩

theorem Steady.written (h : Steady t f id active)
    (hwrite : write t f now bytes = (t', f', failed)) :
    Written t f id active now bytes t' f' failed := by
  by_cases hbytes : bytes.size = 0
  · rw [write, if_pos hbytes, Prod.mk.injEq, Prod.mk.injEq] at hwrite
    obtain ⟨rfl, rfl, rfl⟩ := hwrite
    exact .idle hbytes
  by_cases hlimit : f.limit < active.size
  · cases hobstacle : obstacle? t f now with
    | some e =>
      rw [write, if_neg hbytes, if_pos (by rwa [h.count]), h.rotate_of_obstacle hobstacle] at hwrite
      simp only [Prod.mk.injEq] at hwrite
      obtain ⟨rfl, rfl, rfl⟩ := hwrite
      exact .refused hbytes hlimit hobstacle
    | none =>
      obtain ⟨fresh, hmoved, hrotate⟩ := h.rotate_of_free hobstacle
      set g := f.renewed t.next now with hg
      have hplace : g.place = f.place := rfl
      obtain ⟨hwell, hkept, -⟩ := removeAll_keeps g g.surplus hmoved.wellFormed
      rw [hplace, hmoved.new] at hkept
      rw [write, if_neg hbytes, if_pos (by rwa [h.count]), hrotate] at hwrite
      cases hfailed : (removeAll fresh g g.surplus).2 with
      | some e =>
        simp only [hfailed, Option.map_some, Prod.mk.injEq] at hwrite
        obtain ⟨rfl, rfl, rfl⟩ := hwrite
        exact .rotated hbytes hlimit hobstacle hmoved hg hfailed rfl hwell hkept fun q _ ↦ rfl
      | none =>
        obtain ⟨hwell', hnode', hsame⟩ := node?_append hwell f.place_ne_nil hkept bytes
        have hhandle : g.pruned.handle = some t.next := rfl
        have hcount : g.pruned.count + bytes.size = bytes.size := Nat.zero_add _
        simp only [hfailed, Option.map_none, hhandle, hcount, Prod.mk.injEq] at hwrite
        obtain ⟨rfl, rfl, rfl⟩ := hwrite
        rw [ByteArray.empty_append] at hnode'
        exact .rotated hbytes hlimit hobstacle hmoved hg hfailed rfl hwell' hnode' hsame
  · have hhandle : f.handle = some id := h.handle.resolve_right fun hclosed ↦ hlimit hclosed.2
    have hf : f.reopened id = f := by rw [LogFile.reopened, ← hhandle]
    obtain ⟨hwell, hnode, hsame⟩ := node?_append h.wellFormed f.place_ne_nil h.node bytes
    have hopen : IsOpen t f nowhere id active [] := by
      rw [← hf]
      exact h.isOpen fun _ hq ↦ absurd hq Bool.false_ne_true
    rw [hopen.write_of_le now hbytes (Nat.not_lt.mp hlimit), Prod.mk.injEq, Prod.mk.injEq] at hwrite
    obtain ⟨rfl, rfl, rfl⟩ := hwrite
    have hwritten : Written t f id active now bytes (t.append id bytes)
        { f.reopened id with count := f.count + bytes.size } none :=
      .appended hbytes (Nat.not_lt.mp hlimit) hwell hnode hsame
    rwa [hf] at hwritten

/-- A write keeps to the place of its log file, and to the settings it was opened with. -/
theorem Written.same (h : Written t f id active now bytes t' f' failed) :
    f'.path = f.path ∧ f'.directory = f.directory ∧ f'.name = f.name ∧ f'.limit = f.limit ∧
      f'.keep = f.keep := by
  cases h with
  | idle | appended | refused => exact ⟨rfl, rfl, rfl, rfl, rfl⟩
  | rotated hbytes hlimit hobstacle hmoved hg =>
    subst hg
    exact ⟨rfl, rfl, rfl, rfl, rfl⟩

/-! ### Other places -/

theorem mem_insertBackup {c : BackupName} {known : List BackupName}
    (h : c ∈ insertBackup b known) : c = b ∨ c ∈ known := by
  induction known with
  | nil => exact Or.inl (List.mem_singleton.mp h)
  | cons d rest ih =>
    rw [insertBackup] at h
    split_ifs at h
    · exact Or.inr h
    · exact List.mem_cons.mp h
    · rcases List.mem_cons.mp h with rfl | h
      · exact Or.inr List.mem_cons_self
      · exact (ih h).imp_right (List.mem_cons_of_mem d)

theorem mem_of_mem_surplus (h : b ∈ f.surplus) : b ∈ f.backups := by
  unfold surplus at h
  split_ifs at h
  · exact absurd h List.not_mem_nil
  · exact List.mem_of_mem_drop (List.mem_reverse.mp h)

theorem mem_of_mem_pruned (h : b ∈ f.pruned.backups) : b ∈ f.backups := by
  unfold pruned at h
  dsimp only at h
  split_ifs at h
  · exact h
  · exact List.mem_of_mem_take h

/-- The backups known behind a write were known before, but for one at a place that was free. -/
theorem Written.backup_mem (h : Written t f id active now bytes t' f' failed)
    (hb : b ∈ f'.backups) :
    b ∈ f.backups ∨ b = nextBackup f now ∧ t.node? (f.backupPlace b) = none := by
  cases h with
  | idle | appended | refused => exact Or.inl hb
  | rotated hbytes hlimit hobstacle hmoved hg =>
    subst hg
    rcases mem_insertBackup (mem_of_mem_pruned hb) with rfl | hb
    · exact Or.inr ⟨rfl, hmoved.free⟩
    · exact Or.inl hb

/-- Besides the active file a write touches known backups and the next one, the latter only if its
place is free. -/
theorem Written.elsewhere (h : Written t f id active now bytes t' f' failed) (hq : q ≠ f.place)
    (hknown : ∀ b ∈ f.backups, q ≠ f.backupPlace b)
    (hnext : q = f.backupPlace (nextBackup f now) → t.node? q ≠ none) :
    t'.node? q = t.node? q := by
  cases h with
  | idle | refused => rfl
  | appended hbytes hlimit hwell hnode helsewhere => exact helsewhere q hq
  | rotated hbytes hlimit hobstacle hmoved hg hfailed hcontent hwell hnode helsewhere =>
    subst hg
    have hbackup : q ≠ f.backupPlace (nextBackup f now) := by
      rintro rfl
      exact hnext rfl hmoved.free
    rw [helsewhere q hq, ← hmoved.elsewhere q hq hbackup]
    refine (node?_removeAll _ _ _ q).resolve_right ?_
    rintro ⟨-, ⟨b, hb, hqb⟩, -⟩
    rcases mem_insertBackup (mem_of_mem_surplus hb) with rfl | hb
    · exact hbackup hqb
    · exact hknown b hb hqb

/-- What stands elsewhere is left as it is or is a backup that is removed, and what comes to a free
place is the old active file. -/
theorem Written.at_place (h : Written t f id active now bytes t' f' failed) (hq : q ≠ f.place) :
    t'.node? q = t.node? q ∨
      t'.node? q = none ∧ (t.content? q).isSome = true ∧ (∃ b ∈ f.backups, q = f.backupPlace b) ∨
      t.node? q = none ∧ t'.content? q = some active ∧ q = f.backupPlace (nextBackup f now) := by
  cases h with
  | idle | refused => exact Or.inl rfl
  | appended hbytes hlimit hwell hnode helsewhere => exact Or.inl (helsewhere q hq)
  | @rotated fresh _ _ _ _ hbytes hlimit hobstacle hmoved hg hfailed hcontent hwell hnode
    helsewhere =>
    subst hg
    have hremoved := node?_removeAll (f.renewed t.next now) (f.renewed t.next now).surplus fresh q
    rw [← helsewhere q hq] at hremoved
    by_cases hbackup : q = f.backupPlace (nextBackup f now)
    · obtain ⟨n, hmade⟩ := hmoved.backup
      rw [← hbackup] at hmade
      have hfree : t.node? q = none := hbackup ▸ hmoved.free
      rcases hremoved with hkept | ⟨hnone, -⟩
      · exact Or.inr (Or.inr ⟨hfree, by rw [content?, hkept, hmade], hbackup⟩)
      · exact Or.inl (by rw [hnone, hfree])
    · have hsame := hmoved.elsewhere q hq hbackup
      rw [hsame, content?, hsame, ← content?] at hremoved
      refine hremoved.imp_right ?_
      rintro ⟨hnone, ⟨b, hb, hqb⟩, hfile⟩
      refine Or.inl ⟨hnone, hfile, b, ?_, hqb⟩
      exact (mem_insertBackup (mem_of_mem_surplus hb)).resolve_left fun heq ↦ hbackup (heq ▸ hqb)

/-- A write removes no directory. -/
theorem Written.keepsDirectories (h : Written t f id active now bytes t' f' failed)
    (hnode : t.node? f.place = some (.file id active)) (hq : t.isDirectory q = true) :
    t'.isDirectory q = true := by
  have hnone := content?_of_isDirectory hq
  have hplace : q ≠ f.place := by
    rintro rfl
    rw [content?, hnode] at hnone
    exact absurd hnone (by simp)
  rcases h.at_place hplace with hsame | ⟨-, hfile, -⟩ | ⟨hfree, -⟩
  · rwa [isDirectory, hsame]
  · rw [hnone] at hfile
    exact absurd hfile Bool.false_ne_true
  · rw [isDirectory, hfree] at hq
    exact absurd hq Bool.false_ne_true

/-! ### Steady again -/

/-- The path goes on leading to a log file that has been written to. -/
theorem Steady.reaches_written (h : Steady t f id active)
    (hwritten : Written t f id active now bytes t' f' failed) :
    Reaches t' f.path f.directory f.name :=
  h.reaches.of_directories fun _ hq ↦ hwritten.keepsDirectories h.node hq

/-- A file that has been appended to. -/
theorem Steady.grown (h : Steady t f id active) (hreaches : Reaches t' f.path f.directory f.name)
    (hwell : t'.WellFormed) (hnode : t'.node? f.place = some (.file id (active ++ bytes))) :
    Steady t' { f.reopened id with count := f.count + bytes.size } id (active ++ bytes) := by
  refine ⟨hwell, hreaches, hnode, ?_, Or.inl rfl⟩
  show f.count + bytes.size = _
  rw [h.count, ByteArray.size_append]

/-- Whatever a write does, the log file is steady again. -/
theorem Steady.write (h : Steady t f id active)
    (hwritten : Written t f id active now bytes t' f' failed) :
    ∃ id' active', Steady t' f' id' active' := by
  have hreaches := h.reaches_written hwritten
  cases hwritten with
  | idle => exact ⟨id, active, h⟩
  | appended hbytes hlimit hwell hnode => exact ⟨id, active ++ bytes, h.grown hreaches hwell hnode⟩
  | refused hbytes hlimit =>
    exact ⟨id, active, h.wellFormed, h.reaches, h.node, h.count, Or.inr ⟨rfl, hlimit⟩⟩
  | rotated hbytes hlimit hobstacle hmoved hg hfailed hcontent hwell hnode =>
    subst hg
    exact ⟨t.next, _, hwell, hreaches, hnode, rfl, Or.inl rfl⟩

end Logbook.LogFile
