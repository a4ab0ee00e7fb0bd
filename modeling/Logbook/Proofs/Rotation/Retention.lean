import Logbook.Proofs.Rotation.Scanning

/-!
# Which backups stay

A log file is opened, written to and closed any number of times in a directory that may hold backups
of it already, of any date and with any number, as long as they are regular. The log file then
always knows exactly the backups that are on disk (`Usage.Orderly`), while no write has failed.

A rotation that succeeds keeps the newest backups, the new one among them or not, and no others
(`Newest`, `keeps_newest`). Backups are compared as their names are (`BackupName.newer`), so it
makes no difference whether the clock has gone backwards. Pruning is looked at on its own: it splits
the known backups into those that stay and those that go (`pruned_append_surplus`), and all of the
former are newer than all of the latter (`Knows.newer_surplus`).
-/

set_option autoImplicit false
set_option relaxedAutoImplicit false

namespace Logbook.LogFile

open FileTree

variable {t t' fresh : FileTree} {f f' : LogFile} {path : FilePath} {directory : Place}
  {name : String} {id limit keep : Nat} {active bytes : ByteArray} {now : Timestamp}
  {b c : BackupName} {q : Place} {failed : Option WriteError}

/-! ### A rotation -/

/-- Backups that could all be removed are gone. -/
theorem node?_of_removeAll {bs : List BackupName} (h : (removeAll t f bs).2 = none) (hb : b ∈ bs) :
    (removeAll t f bs).1.node? (f.backupPlace b) = none := by
  induction bs generalizing t with
  | nil => exact absurd hb List.not_mem_nil
  | cons c rest ih =>
    rw [removeAll] at h ⊢
    cases hremove : t.removeFile (f.backupPath c) (f.backupPlace c) with
    | error e =>
      rw [hremove] at h
      exact absurd h (by simp)
    | ok removed =>
      rw [hremove] at h
      rcases List.mem_cons.mp hb with rfl | hb
      · obtain ⟨-, rfl⟩ := removeFile_eq_ok hremove
        have hgone : (t.erase (f.backupPlace b)).node? (f.backupPlace b) = none :=
          node?_erase_self (by simp [backupPlace])
        rcases node?_removeAll f rest (t.erase (f.backupPlace b)) (f.backupPlace b) with
          hsame | ⟨hnone, -⟩
        · exact hsame.trans hgone
        · exact hnone
      · exact ih h hb

/-- Pruning splits the backups into those that stay and those that go. -/
theorem pruned_append_surplus (f : LogFile) :
    f.pruned.backups ++ f.surplus.reverse = f.backups := by
  unfold pruned surplus
  by_cases hkeep : f.keep = 0
  · simp [hkeep]
  · simp [hkeep, List.take_append_drop]

/-- Of two places with names of backups, the first has that of the newer one. -/
def NewerAt (directory : Place) (name : String) (q r : Place) : Prop :=
  ∃ b c, backupAt? directory name q = some b ∧ backupAt? directory name r = some c ∧
    b.newer c = true

/-- Of some backups those are kept that are newest, as many as are to be kept, with their bytes. -/
structure Newest (directory : Place) (name : String) (keep : Nat)
    (all kept : List (Place × ByteArray)) : Prop where
  part : kept.Subperm all
  length : kept.length = min keep all.length
  newest : ∀ file ∈ kept, ∀ other ∈ all, other ∉ kept → NewerAt directory name file.1 other.1

theorem Newest.of_perm {all all' kept : List (Place × ByteArray)}
    (h : Newest directory name keep all kept) (hperm : all.Perm all') :
    Newest directory name keep all' kept := by
  constructor
  · exact h.part.trans hperm.subperm
  · rw [h.length, hperm.length_eq]
  · intro file hfile other hother
    exact h.newest file hfile other (hperm.mem_iff.mpr hother)

/-- Where the surplus backups could be removed and nothing else happens to a place, what stands
there stays as it is, unless it is a surplus backup: then it is gone. -/
theorem content?_of_pruning (hremoved : (removeAll t f f.surplus).2 = none)
    (hsame : t'.node? q = (removeAll t f f.surplus).1.node? q) :
    (t'.content? q = t.content? q ∧ ∀ b ∈ f.surplus, q ≠ f.backupPlace b) ∨
      t'.content? q = none ∧ ∃ b ∈ f.surplus, q = f.backupPlace b := by
  by_cases hsurplus : ∃ b ∈ f.surplus, q = f.backupPlace b
  · obtain ⟨b, hb, rfl⟩ := hsurplus
    refine Or.inr ⟨?_, b, hb, rfl⟩
    rw [content?, hsame, node?_of_removeAll hremoved hb]
  · refine Or.inl ⟨?_, fun b hb hq ↦ hsurplus ⟨b, hb, hq⟩⟩
    rcases node?_removeAll f f.surplus t q with hkept | ⟨-, hgone, -⟩
    · rw [content?, hsame, hkept, ← content?]
    · exact absurd hgone hsurplus

namespace Knows

/-- A backup that stays is newer than those that go. -/
theorem newer_surplus (h : Knows t f) (hb : b ∈ f.pruned.backups) (hc : c ∈ f.surplus) :
    b.newer c = true := by
  have hdescending := h.descending
  rw [← pruned_append_surplus f, List.pairwise_append] at hdescending
  exact hdescending.2.2 b hb c (List.mem_reverse.mpr hc)

/-- Pruning that succeeds forgets what is gone, and nothing else. -/
theorem pruned (h : Knows t f) (hremoved : (removeAll t f f.surplus).2 = none)
    (hsame : ∀ q, isBackupPlace f.directory f.name q = true →
      t'.node? q = (removeAll t f f.surplus).1.node? q) : Knows t' f.pruned := by
  constructor
  · intro b hb
    exact h.readable b (mem_of_mem_pruned hb)
  · have hdescending := h.descending
    rw [← pruned_append_surplus f, List.pairwise_append] at hdescending
    exact hdescending.1
  · intro q hq
    have hpruning := content?_of_pruning hremoved (hsame q hq)
    constructor
    · intro hfile
      rcases hpruning with ⟨hkept, hstays⟩ | ⟨hnone, -⟩
      · obtain ⟨b, hb, rfl⟩ := (h.onDisk q hq).mp (hkept ▸ hfile)
        rw [← pruned_append_surplus f, List.mem_append, List.mem_reverse] at hb
        exact ⟨b, hb.resolve_right fun hgoes ↦ hstays b hgoes rfl, rfl⟩
      · rw [hnone] at hfile
        exact absurd hfile (by simp)
    · rintro ⟨b, hb, rfl⟩
      rcases hpruning with ⟨hkept, -⟩ | ⟨-, c, hc, hplace⟩
      · rw [hkept]
        exact (h.onDisk _ hq).mpr ⟨b, mem_of_mem_pruned hb, rfl⟩
      · have hread := h.readable b (mem_of_mem_pruned hb)
        have heq : b = c := eq_of_backupPlace hread (h.readable c (mem_of_mem_surplus hc)) hplace
        exact absurd heq (ne_of_newer (h.newer_surplus hb hc))

/-- Pruning that succeeds keeps the newest backups. -/
theorem newest (h : Knows t f) (ht : t.WellFormed) (ht' : t'.WellFormed) (hkeep : 0 < f.keep)
    (hremoved : (removeAll t f f.surplus).2 = none)
    (hsame : ∀ q, isBackupPlace f.directory f.name q = true →
      t'.node? q = (removeAll t f f.surplus).1.node? q) :
    Newest f.directory f.name f.keep (backupFiles t f) (backupFiles t' f) := by
  have hpruned := h.pruned hremoved hsame
  have hcontent : ∀ q content, isBackupPlace f.directory f.name q = true →
      t'.content? q = some content → t.content? q = some content := by
    intro q content hq hfile
    rcases content?_of_pruning hremoved (hsame q hq) with ⟨hkept, -⟩ | ⟨hnone, -⟩
    · rwa [hkept] at hfile
    · rw [hnone] at hfile
      exact absurd hfile (by simp)
  constructor
  · refine List.subperm_of_subset (nodup_filesWhere ht' _).of_map ?_
    rintro ⟨q, content⟩ hfile
    obtain ⟨hq, hfile⟩ := (mem_filesWhere ht').mp hfile
    exact (mem_filesWhere ht).mpr ⟨hq, hcontent q content hq hfile⟩
  · have hlength : (backupFiles t' f).length = f.pruned.backups.length := hpruned.length_files ht'
    rw [hlength, h.length_files ht, LogFile.pruned]
    dsimp only
    rw [if_neg (Nat.ne_of_gt hkeep), List.length_take]
  · rintro ⟨q, content⟩ hfile ⟨r, other⟩ hother hgone
    obtain ⟨hq, hfile⟩ := (mem_filesWhere ht').mp hfile
    obtain ⟨hr, hother⟩ := (mem_filesWhere ht).mp hother
    obtain ⟨b, hb, rfl⟩ := (hpruned.onDisk q hq).mp (by rw [hfile]; rfl)
    -- What is not kept stands at the place of a surplus backup.
    rcases content?_of_pruning hremoved (hsame r hr) with ⟨hkept, -⟩ | ⟨-, c, hc, rfl⟩
    · exact absurd ((mem_filesWhere ht').mpr ⟨hr, hkept.trans hother⟩) hgone
    · exact ⟨b, c, h.backupAt?_eq (mem_of_mem_pruned hb), h.backupAt?_eq (mem_of_mem_surplus hc),
        h.newer_surplus hb hc⟩

/-- The file has been moved to a backup with a name that can be read back, and it is known. -/
theorem renewed (h : Knows t f) (hmoved : Moved t f (nextBackup f now.text) active fresh)
    (hread : BackupName.ofFileName? f.name ((nextBackup f now.text).fileName f.name) =
      some (nextBackup f now.text))
    (hnew : ∀ c ∈ f.backups, (nextBackup f now.text).same c = false) :
    Knows fresh (f.renewed id now.text) := by
  have hmem : ∀ c, c ∈ (f.renewed id now.text).backups ↔
      c = nextBackup f now.text ∨ c ∈ f.backups := fun c ↦
    (perm_insertBackup hnew).mem_iff.trans List.mem_cons
  constructor
  · intro c hc
    rcases (hmem c).mp hc with rfl | hc
    · exact hread
    · exact h.readable c hc
  · exact descending_insertBackup h.descending
  · intro q hq
    by_cases hnext : q = f.backupPlace (nextBackup f now.text)
    · obtain ⟨n, hbackup⟩ := hmoved.backup
      rw [hnext, content?, hbackup]
      exact iff_of_true rfl ⟨_, (hmem _).mpr (Or.inl rfl), rfl⟩
    · have hsame := hmoved.elsewhere q (ne_place_of_isBackupPlace hq) hnext
      rw [content?, hsame, ← content?, h.onDisk q hq]
      constructor
      · rintro ⟨c, hc, rfl⟩
        exact ⟨c, (hmem c).mpr (Or.inr hc), rfl⟩
      · rintro ⟨c, hc, rfl⟩
        refine ⟨c, ((hmem c).mp hc).resolve_left ?_, rfl⟩
        rintro rfl
        exact hnext rfl

end Knows

/-- The backups behind a move are those before it and the new one. -/
theorem perm_of_moved (ht : t.WellFormed) (hmoved : Moved t f b active fresh)
    (hread : BackupName.ofFileName? f.name (b.fileName f.name) = some b) :
    (backupFiles fresh f).Perm ((f.backupPlace b, active) :: backupFiles t f) := by
  have hnew : (f.backupPlace b, active) ∉ backupFiles t f := by
    intro hmem
    have hfree := (mem_filesWhere ht).mp hmem
    rw [content?, hmoved.free] at hfree
    exact absurd hfree.2 (by simp)
  have hnodup : ((f.backupPlace b, active) :: backupFiles t f).Nodup :=
    List.nodup_cons.mpr ⟨hnew, (nodup_filesWhere ht _).of_map⟩
  refine (List.perm_ext_iff_of_nodup (nodup_filesWhere hmoved.wellFormed _).of_map hnodup).mpr ?_
  rintro ⟨q, content⟩
  unfold backupFiles
  rw [List.mem_cons, mem_filesWhere hmoved.wellFormed, mem_filesWhere ht]
  by_cases hnext : q = f.backupPlace b
  · obtain ⟨n, hbackup⟩ := hmoved.backup
    have hfree := hmoved.free
    subst hnext
    rw [content?, content?, hbackup, hfree, isBackupPlace_backupPlace hread]
    simp [eq_comm]
  · constructor
    · rintro ⟨hq, hfile⟩
      have hsame := hmoved.elsewhere q (ne_place_of_isBackupPlace hq) hnext
      rw [content?, hsame, ← content?] at hfile
      exact Or.inr ⟨hq, hfile⟩
    · rintro (heq | ⟨hq, hfile⟩)
      · exact absurd (congrArg Prod.fst heq) hnext
      · have hsame := hmoved.elsewhere q (ne_place_of_isBackupPlace hq) hnext
        rw [content?, ← hsame, ← content?] at hfile
        exact ⟨hq, hfile⟩

/-! ### A write -/

/-- The next backup has the second it is made in. -/
theorem exists_nextBackup_eq (f : LogFile) (now : String) :
    ∃ number, nextBackup f now = ⟨now, number, false⟩ := by
  unfold nextBackup
  split
  · exact ⟨_, rfl⟩
  · exact ⟨none, rfl⟩

/-- The name of the next backup is read back if nothing keeps the file from being moved to it. -/
theorem readable_nextBackup (hnow : now.IsReading) (h : obstacle? t f now.text = none) :
    BackupName.ofFileName? f.name ((nextBackup f now.text).fileName f.name) =
      some (nextBackup f now.text) := by
  obtain ⟨number, hnext⟩ := exists_nextBackup_eq f now.text
  have hword : ∀ n ∈ number, n < UInt64.size := by
    unfold obstacle? at h
    split_ifs at h with hfits
    rw [hnext, BackupName.fitsWord, Bool.not_eq_true', Bool.not_eq_false] at hfits
    rintro n rfl
    simpa using hfits
  rw [hnext]
  exact BackupName.ofFileName?_of_isDated f.name
    (BackupName.isDated_of_reading hnow number false) hword

/-- A write moves the file to a backup first: there is something to write, the file is full, and
nothing keeps it from being moved. -/
def Rotates (t : FileTree) (f : LogFile) (now : String) (bytes : ByteArray) : Prop :=
  bytes.size ≠ 0 ∧ f.limit < ((t.content? f.place).getD ByteArray.empty).size ∧
    obstacle? t f now = none

instance (t : FileTree) (f : LogFile) (now : String) (bytes : ByteArray) :
    Decidable (Rotates t f now bytes) :=
  inferInstanceAs (Decidable (_ ∧ _ ∧ _))

theorem not_same_of_obstacle (h : obstacle? t f now.text = none) :
    ∀ c ∈ f.backups, (nextBackup f now.text).same c = false := by
  intro c hc
  unfold obstacle? at h
  split_ifs at h with _ hany
  rw [BackupName.same_comm]
  exact Bool.eq_false_iff.mpr fun hsame ↦ hany (List.any_eq_true.mpr ⟨c, hc, hsame⟩)

/-- A write that does not rotate leaves every other file, and what the log file holds. -/
theorem Written.keeps (h : Written t f id active now.text bytes t' f' failed)
    (hsteady : Steady t f id active) (hrotates : ¬Rotates t f now.text bytes) :
    (∀ q, q ≠ f.place → t'.node? q = t.node? q) ∧
      ∃ more, t'.content? f.place = some (active ++ more) := by
  have hactive : t.content? f.place = some active := by rw [content?, hsteady.node]
  cases h with
  | idle | refused =>
    exact ⟨fun _ _ ↦ rfl, ByteArray.empty, by rw [hactive, ByteArray.append_empty]⟩
  | appended hbytes hlimit hwell hnode helsewhere =>
    exact ⟨helsewhere, bytes, by rw [content?, hnode]⟩
  | rotated hbytes hlimit hobstacle =>
    refine absurd ⟨hbytes, ?_, hobstacle⟩ hrotates
    rwa [hactive]

/-- A write that succeeds leaves a log file that knows its backups. If it has rotated, the newest
backups are kept, of those before and the new one. -/
theorem Knows.write (h : Knows t f) (hsteady : Steady t f id active) (hnow : now.IsReading)
    (hwritten : Written t f id active now.text bytes t' f' failed) (hfailed : failed = none) :
    Knows t' f' ∧ (Rotates t f now.text bytes → 0 < f.keep →
      Newest f.directory f.name f.keep
        ((f.backupPlace (nextBackup f now.text), active) :: backupFiles t f)
        (backupFiles t' f)) := by
  have hactive : t.content? f.place = some active := by rw [content?, hsteady.node]
  have hroom : active.size ≤ f.limit → ¬Rotates t f now.text bytes := by
    rintro hle ⟨-, hlimit, -⟩
    rw [hactive, Option.getD_some] at hlimit
    omega
  cases hwritten with
  | idle hbytes => exact ⟨h, fun hrotates ↦ absurd hbytes hrotates.1⟩
  | appended hbytes hlimit hwell hnode helsewhere =>
    refine ⟨h.congr rfl rfl rfl fun q hq ↦ ?_, fun hrotates ↦ absurd hrotates (hroom hlimit)⟩
    rw [content?, helsewhere q (ne_place_of_isBackupPlace hq), ← content?]
  | refused => exact absurd hfailed (by simp)
  | @rotated fresh _ g removing content hbytes hlimit hobstacle hmoved hg hremoving hcontent hwell
    hnode helsewhere =>
    have hremoved : (removeAll fresh g g.surplus).2 = none :=
      hremoving.trans (Option.map_eq_none_iff.mp hfailed)
    have hread := readable_nextBackup hnow hobstacle
    subst hg
    have hfresh : Knows fresh (f.renewed t.next now.text) :=
      h.renewed hmoved hread (not_same_of_obstacle hobstacle)
    have hsame : ∀ q, isBackupPlace f.directory f.name q = true →
        t'.node? q = (removeAll fresh (f.renewed t.next now.text)
          (f.renewed t.next now.text).surplus).1.node? q :=
      fun q hq ↦ helsewhere q (ne_place_of_isBackupPlace hq)
    refine ⟨(hfresh.pruned hremoved hsame).congr rfl rfl rfl fun _ _ ↦ rfl, fun _ hkeep ↦ ?_⟩
    exact (hfresh.newest hmoved.wellFormed hwell hkeep hremoved hsame).of_perm
      (perm_of_moved (f := f) hsteady.wellFormed hmoved hread)

/-! ### Every run -/

/-- The backups on disk are regular, and known where the log file is open. -/
structure Usage.Orderly (directory : Place) (name : String) (u : Usage) : Prop where
  regular : Regular u.files directory name
  named : ∀ f ∈ u.file, f.directory = directory ∧ f.name = name
  knows : ∀ f ∈ u.file, Knows u.files f

/-- Opening changes no file but the one that is opened. -/
theorem content?_prepare (ht : t.WellFormed) (path : FilePath) {place : Place}
    (hplace : ∀ opened r n, prepare t path = (opened, .ok (r, n)) → r = place) (hq : q ≠ place) :
    (prepare t path).1.content? q = t.content? q := by
  obtain ⟨-, hsame, -⟩ := createParents_keeps ht path
  rcases hprepare : prepare t path with ⟨opened, e | ⟨r, n⟩⟩
  · unfold prepare at hprepare
    split at hprepare
    · next made e' hmade =>
      obtain ⟨rfl, -⟩ := Prod.mk.inj hprepare
      rw [hmade] at hsame
      exact hsame q
    · next made hmade =>
      rw [hmade] at hsame
      split at hprepare
      · obtain ⟨rfl, -⟩ := Prod.mk.inj hprepare
        exact hsame q
      · exact absurd (congrArg Prod.snd hprepare) (by simp)
  · obtain ⟨_, _, -, -, -, -, helsewhere⟩ := prepare_eq_ok ht hprepare
    exact helsewhere q (hplace opened r n hprepare ▸ hq)

theorem Usage.failures_prefix (u : Usage) (path : FilePath) (a : Action) :
    u.failures <+: (u.step path a).failures := by
  cases a with
  | close => exact List.prefix_refl _
  | openWith limit keep =>
    rw [Usage.step]
    split
    · exact List.prefix_refl _
    · exact List.prefix_append _ _
  | write now bytes =>
    rw [Usage.step]
    split
    · exact List.prefix_refl _
    · split
      · exact List.prefix_refl _
      · exact List.prefix_append _ _

theorem Usage.failed_eq_none {u : Usage} (hf : u.file = some f)
    (hwrite : LogFile.write u.files f now.text bytes = (t', f', failed))
    (hnone : ∀ e, .writing e ∉ (u.step path (.write now bytes)).failures) : failed = none := by
  cases failed with
  | none => rfl
  | some e =>
    refine absurd ?_ (hnone e)
    rw [Usage.step, hf]
    dsimp only
    rw [hwrite]
    simp

/-- What an action needs: where it opens, that the path leads to this file, and where it writes, a
reading of the clock. -/
def Action.Suits (path : FilePath) (directory : Place) (name : String) (u : Usage) : Action → Prop
  | .openWith _ _ => ∀ opened r n, prepare u.files path = (opened, .ok (r, n)) →
      r = directory ++ [name]
  | .write now _ => now.IsReading
  | .close => True

/-- An action that is no failing write leaves the backups in order. -/
theorem Usage.Orderly.step {u : Usage} (h : u.Orderly directory name) (hsound : u.Sound path)
    {a : Action} (ha : a.Suits path directory name u)
    (hnone : ∀ e, .writing e ∉ (u.step path a).failures) :
    (u.step path a).Orderly directory name := by
  cases a with
  | close =>
    exact ⟨h.regular, fun f hf ↦ absurd hf (Option.not_mem_none f),
      fun f hf ↦ absurd hf (Option.not_mem_none f)⟩
  | openWith limit keep =>
    obtain ⟨hfiles, hfile⟩ := u.step_openWith path limit keep
    have hwell := (prepare_keeps hsound.wellFormed path).1
    have hregular : Regular (prepare u.files path).1 directory name :=
      h.regular.congr fun q hq ↦ content?_prepare hsound.wellFormed path ha
        (ne_place_of_isBackupPlace (f := ⟨path, directory, name, 0, 0, none, 0, []⟩) hq)
    have hopened : ∀ f ∈ (u.step path (.openWith limit keep)).file,
        (f.directory = directory ∧ f.name = name) ∧
          f.backups = scan (prepare u.files path).1 f.directory f.name := by
      intro f hf
      obtain ⟨d, n, id, hprepare, rfl, -⟩ := openAt_eq_ok hsound.wellFormed (hfile f hf)
      obtain ⟨rfl, hn⟩ := List.append_inj' (ha _ _ _ hprepare) rfl
      obtain rfl := List.singleton_inj.mp hn
      simp [start]
    constructor
    · rwa [hfiles]
    · exact fun f hf ↦ (hopened f hf).1
    · intro f hf
      obtain ⟨⟨hdirectory, hname⟩, hbackups⟩ := hopened f hf
      rw [hfiles]
      refine Regular.knows ?_ hwell hbackups
      rwa [hdirectory, hname]
  | write now bytes =>
    cases hf : u.file with
    | none =>
      have hstep : u.step path (.write now bytes) = u := by rw [Usage.step, hf]
      rwa [hstep]
    | some f =>
      rcases hwrite : LogFile.write u.files f now.text bytes with ⟨left, g, failed⟩
      obtain ⟨hfiles, hfile⟩ := Usage.step_write path hf hwrite
      obtain ⟨id, active, hsteady⟩ := hsound.steady f hf
      have hwritten := hsteady.written hwrite
      obtain ⟨-, hdirectory, hname, -⟩ := hwritten.same
      obtain ⟨hdirectory', hname'⟩ := h.named f hf
      have hknows : Knows left g :=
        ((h.knows f hf).write hsteady ha hwritten
          (Usage.failed_eq_none hf hwrite hnone)).1
      constructor
      · rw [hfiles, ← hdirectory', ← hname', ← hdirectory, ← hname]
        exact hknows.regular
      · intro f' hf'
        obtain rfl : g = f' := Option.some.inj (hfile.symm.trans hf')
        exact ⟨hdirectory.trans hdirectory', hname.trans hname'⟩
      · intro f' hf'
        obtain rfl : g = f' := Option.some.inj (hfile.symm.trans hf')
        rwa [hfiles]

/-- However often a path is opened before its log file is open, it is the same file. -/
theorem place_of_prepare (ht : t.WellFormed) {before done : List Action}
    (hbefore : before ++ [.openWith limit keep] <+: done)
    (hf : f ∈ (Usage.run path t done).file) {opened : FileTree}
    (hprepare : prepare (Usage.run path t before).files path = (opened, .ok (q, id))) :
    q = f.directory ++ [f.name] := by
  obtain ⟨d, m, rfl, hreaches, -⟩ :=
    prepare_eq_ok (sound_of_run ht path before).wellFormed hprepare
  have hfiles := ((Usage.run path t before).step_openWith path limit keep).1
  rw [hprepare, ← Usage.run_concat] at hfiles
  have hkept : Reaches (Usage.run path t done).files path d m :=
    hreaches.of_directories fun q hq ↦ isDirectory_of_run ht hbefore (by rwa [hfiles])
  obtain ⟨hdirectory, hname⟩ := hkept.unique ((sound_of_run ht path done).reaches hf)
  rw [hdirectory, hname]

/-- While no write has failed, the backups are in order. -/
theorem orderly_of_run (ht : t.WellFormed) (hregular : Regular t directory name)
    {done : List Action}
    (hsuits : ∀ before a, before ++ [a] <+: done →
      a.Suits path directory name (Usage.run path t before))
    (hnone : ∀ e, .writing e ∉ (Usage.run path t done).failures) :
    (Usage.run path t done).Orderly directory name := by
  induction done using List.reverseRecOn with
  | nil =>
    exact ⟨hregular, fun f hf ↦ absurd hf (Option.not_mem_none f),
      fun f hf ↦ absurd hf (Option.not_mem_none f)⟩
  | append_singleton done a ih =>
    rw [Usage.run_concat] at hnone ⊢
    have hbefore : (Usage.run path t done).Orderly directory name := by
      refine ih (fun before b hb ↦ hsuits before b (hb.trans (List.prefix_append done [a]))) ?_
      intro e he
      exact hnone e ((Usage.failures_prefix _ path a).subset he)
    exact hbefore.step (sound_of_run ht path done) (hsuits done a (List.prefix_refl _)) hnone

/-- In a run of openings, writes and closings on the file of a path, in a directory whose backups
are regular, an opening takes nothing away, and a write that does not rotate changes nothing but the
log file, which goes on holding what it held. A write that rotates and succeeds, where no write
before it has failed, keeps exactly the newest backups, of those on disk before and the new one, and
leaves their bytes as they are. -/
theorem keeps_newest (ht : t.WellFormed) (path : FilePath) (actions : List Action)
    (hregular : ∀ done, done <+: actions → ∀ f ∈ (Usage.run path t done).file,
      Regular t f.directory f.name)
    (hreadings : ∀ s ∈ readings actions, s.IsReading) :
    (∀ done limit keep, done ++ [.openWith limit keep] <+: actions →
        Extends (Usage.run path t done).files
          (Usage.run path t (done ++ [.openWith limit keep])).files) ∧
      ∀ done now bytes, done ++ [.write now bytes] <+: actions →
        ∀ f ∈ (Usage.run path t done).file,
          let before := (Usage.run path t done).files
          let after := Usage.run path t (done ++ [.write now bytes])
          ∃ active, before.content? f.place = some active ∧
            (¬Rotates before f now.text bytes →
              (∀ q, q ≠ f.place → after.files.node? q = before.node? q) ∧
                ∃ more, after.files.content? f.place = some (active ++ more)) ∧
            (Rotates before f now.text bytes → 0 < f.keep →
              (∀ e, .writing e ∉ after.failures) →
                Newest f.directory f.name f.keep
                  ((f.backupPlace (nextBackup f now.text), active) :: backupFiles before f)
                  (backupFiles after.files f)) := by
  refine ⟨fun done limit keep _ ↦ ?_, fun done now bytes hdone f hf ↦ ?_⟩
  · rw [Usage.run_concat, (Usage.step_openWith _ path limit keep).1]
    exact (prepare_keeps (sound_of_run ht path done).wellFormed path).2
  · intro before after
    have hread : ∀ {past now bytes}, past ++ [.write now bytes] <+: actions → now.IsReading := by
      intro past now bytes hpast
      refine hreadings now (List.mem_filterMap.mpr ⟨.write now bytes, ?_, rfl⟩)
      exact hpast.subset (by simp)
    rcases hwrite : LogFile.write (Usage.run path t done).files f now.text bytes with
      ⟨left, g, failed⟩
    obtain ⟨id, active, hsteady⟩ := (sound_of_run ht path done).steady f hf
    have hwritten := hsteady.written hwrite
    have hafter : after.files = left := by
      rw [show after = _ from Usage.run_concat path t done _]
      exact (Usage.step_write path hf hwrite).1
    refine ⟨active, by rw [content?, hsteady.node], ?_, fun hrotates hkeep hnone ↦ ?_⟩
    · rw [hafter]
      exact hwritten.keeps hsteady
    · rw [show after = _ from Usage.run_concat path t done _] at hnone
      have hsuits : ∀ past a, past ++ [a] <+: done →
          a.Suits path f.directory f.name (Usage.run path t past) := by
        intro past a hpast
        have hactions : past ++ [a] <+: actions :=
          hpast.trans ((List.prefix_append done _).trans hdone)
        cases a with
        | close => trivial
        | openWith limit keep =>
          exact fun opened r n hprepare ↦ place_of_prepare ht hpast hf hprepare
        | write now bytes => exact hread hactions
      have horderly := orderly_of_run ht
        (hregular done ((List.prefix_append done _).trans hdone) f hf) hsuits
        fun e he ↦ hnone e ((Usage.failures_prefix _ path _).subset he)
      rw [hafter]
      exact ((horderly.knows f hf).write hsteady (hread hdone) hwritten
        (Usage.failed_eq_none hf hwrite hnone)).2 hrotates hkeep

/-- A full log file among backups: of an earlier date, two of one second whose numbers have one
digit and two, and a packed one of a date to come. -/
def crowd : FileTree :=
  ⟨[(["app.log"], .file 0 "abc".toUTF8),
    (["app.log.20230101T000000"], .file 1 "early".toUTF8),
    (["app.log.20240229T235959.9"], .file 2 "nine".toUTF8),
    (["app.log.20240229T235959.10"], .file 3 "ten".toUTF8),
    (["app.log.99990101T000000.gz"], .file 4 "late".toUTF8)], 5⟩

/-- A rotation with three backups to keep: the new backup has no number, so it is older than those
of its second that have one, and goes together with the earliest. -/
theorem keeps_newest_crowd :
    let backups := isBackupPlace [] "app.log"
    let run := Usage.run ⟨"app.log"⟩ crowd
      [.openWith 2 3, .write ⟨2024, 2, 29, 23, 59, 59⟩ "de".toUTF8]
    Newest [] "app.log" 3
        ((["app.log.20240229T235959"], "abc".toUTF8) :: filesWhere crowd backups)
        (filesWhere run.files backups) ∧
      (filesWhere run.files backups).map Prod.snd =
        ["nine".toUTF8, "ten".toUTF8, "late".toUTF8] := by
  intro backups run
  refine ⟨?_, by decide +kernel⟩
  have ht : crowd.WellFormed := ⟨by decide, by decide, by decide, by decide⟩
  have hregular : Regular crowd [] "app.log" := regular_of_filesWhere ht (by decide +kernel)
  set actions : List Action := [.openWith 2 3, .write ⟨2024, 2, 29, 23, 59, 59⟩ "de".toUTF8]
  set opened := Usage.run ⟨"app.log"⟩ crowd [.openWith 2 3]
  have hnamed : ∀ done ∈ actions.inits, ∀ f ∈ (Usage.run ⟨"app.log"⟩ crowd done).file,
      f.directory = [] ∧ f.name = "app.log" ∧ f.keep = 3 := by
    decide +kernel
  have hrotations : ∀ f ∈ opened.file,
      Rotates opened.files f "20240229T235959" "de".toUTF8 ∧
        f.backupPlace (nextBackup f "20240229T235959") = ["app.log.20240229T235959"] := by
    decide +kernel
  have hkept := keeps_newest ht ⟨"app.log"⟩ actions
    (fun done hdone f hf ↦ by
      obtain ⟨hdirectory, hname, -⟩ := hnamed done ((List.mem_inits _ _).mpr hdone) f hf
      rwa [hdirectory, hname])
    (by decide)
  obtain ⟨f, hf⟩ : ∃ f, f ∈ opened.file := ⟨_, rfl⟩
  obtain ⟨hdirectory, hname, hkeep⟩ := hnamed [.openWith 2 3] (by simp [actions]) f hf
  obtain ⟨hrotates, hplace⟩ := hrotations f hf
  obtain ⟨active, hactive, -, hnewest⟩ :=
    hkept.2 [.openWith 2 3] ⟨2024, 2, 29, 23, 59, 59⟩ "de".toUTF8 (List.prefix_refl _) f hf
  have hfiles : opened.files = crowd := rfl
  have hsucceeds : ∀ e, .writing e ∉ run.failures := fun e ↦ List.not_mem_nil
  have hall : Newest f.directory f.name f.keep
      ((f.backupPlace (nextBackup f "20240229T235959"), active) :: backupFiles opened.files f)
      (backupFiles run.files f) := hnewest hrotates (by omega) hsucceeds
  have hcontent : opened.files.content? f.place = some "abc".toUTF8 := by
    rw [hfiles, LogFile.place, hdirectory, hname]
    rfl
  obtain rfl : active = "abc".toUTF8 := Option.some.inj (hactive.symm.trans hcontent)
  unfold backupFiles at hall
  rwa [hplace, hkeep, hfiles, hdirectory, hname] at hall

end Logbook.LogFile
