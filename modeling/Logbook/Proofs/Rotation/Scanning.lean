import Logbook.Proofs.Rotation.Neighbours
import Logbook.Proofs.Rotation.Removals

/-!
# Backups that a scan finds

When a log file is opened it looks for its backups by their names. A directory may hold backups of
any date and with any number, in any order, and the scan puts each of them at its place
(`descending_insertBackup`), unless it knows the same one already. Where the backups on disk bear
names of their own form and no two of them are the same (`Regular`), the log file then knows exactly
the backups that are on disk (`Knows`, `Regular.knows`).
-/

set_option autoImplicit false
set_option relaxedAutoImplicit false

namespace Logbook

/-! ### The order of backups -/

namespace BackupName

/-- Of two backups that are not the same one is newer. -/
theorem newer_total {a b : BackupName} (hsame : a.same b = false) (hnewer : a.newer b = false) :
    b.newer a = true := by
  rw [newer_iff]
  rw [← Bool.not_eq_true, newer_iff] at hnewer
  rw [← Bool.not_eq_true] at hsame
  simp only [same, Bool.and_eq_true, beq_iff_eq, not_and] at hsame
  by_cases hlt : a.stamp < b.stamp
  · exact Or.inl hlt
  have hle : ¬b.stamp < a.stamp := fun hgt ↦ hnewer (Or.inl hgt)
  have heq : a.stamp = b.stamp := String.le_antisymm (String.not_lt.mp hle) (String.not_lt.mp hlt)
  refine Or.inr ⟨heq.symm, ?_⟩
  have hnumber := hsame heq
  -- The number of the first is none, or some number that is not above that of the second.
  cases hb : b.number with
  | none =>
    cases ha : a.number with
    | none => exact absurd (ha.trans hb.symm) hnumber
    | some n =>
      refine absurd (Or.inr ⟨heq, n, ha, fun m hm ↦ ?_⟩) hnewer
      rw [hb] at hm
      exact absurd hm (Option.not_mem_none m)
  | some m =>
    refine ⟨m, rfl, fun n hn ↦ ?_⟩
    by_contra hless
    have hne : n ≠ m := by
      rintro rfl
      exact hnumber (hn.trans hb.symm)
    refine hnewer (Or.inr ⟨heq, n, hn, fun k hk ↦ ?_⟩)
    obtain rfl : m = k := Option.some.inj (hb.symm.trans hk)
    omega

end BackupName

namespace LogFile

open FileTree

variable {t t' : FileTree} {f f' : LogFile} {directory : Place} {name : String}
  {b c : BackupName} {q : Place} {known names : List BackupName}

/-! ### Inserting -/

theorem perm_insertBackup (h : ∀ c ∈ known, b.same c = false) :
    (insertBackup b known).Perm (b :: known) := by
  induction known with
  | nil => exact List.Perm.refl _
  | cons c rest ih =>
    rw [insertBackup, h c List.mem_cons_self]
    by_cases hnewer : b.newer c = true
    · rw [if_neg Bool.false_ne_true, if_pos hnewer]
    · rw [if_neg Bool.false_ne_true, if_neg hnewer]
      have hrest := ih fun d hd ↦ h d (List.mem_cons_of_mem c hd)
      exact (hrest.cons c).trans (List.Perm.swap b c rest)

/-- Insertion keeps the order, whether or not the backup is known already. -/
theorem descending_insertBackup (h : known.Pairwise fun a b ↦ a.newer b = true) :
    (insertBackup b known).Pairwise fun a b ↦ a.newer b = true := by
  induction known with
  | nil => exact List.pairwise_singleton _ _
  | cons c rest ih =>
    obtain ⟨hc, hrest⟩ := List.pairwise_cons.mp h
    rw [insertBackup]
    split_ifs with hsame hnewer
    · exact h
    · refine List.pairwise_cons.mpr ⟨fun d hd ↦ ?_, h⟩
      rcases List.mem_cons.mp hd with rfl | hd
      · exact hnewer
      · exact BackupName.newer_trans hnewer (hc d hd)
    · refine List.pairwise_cons.mpr ⟨fun d hd ↦ ?_, ih hrest⟩
      rcases mem_insertBackup hd with rfl | hd
      · exact BackupName.newer_total (Bool.eq_false_iff.mpr hsame) (Bool.eq_false_iff.mpr hnewer)
      · exact hc d hd

/-- What is known stays known. -/
theorem mem_insertBackup_of_mem (h : c ∈ known) : c ∈ insertBackup b known := by
  induction known with
  | nil => exact absurd h List.not_mem_nil
  | cons d rest ih =>
    rw [insertBackup]
    split_ifs
    · exact h
    · exact List.mem_cons_of_mem b h
    · rcases List.mem_cons.mp h with rfl | h
      · exact List.mem_cons_self
      · exact List.mem_cons_of_mem d (ih h)

/-- A backup that has been inserted is known, at least but for its ending. -/
theorem exists_same_insertBackup (b : BackupName) (known : List BackupName) :
    ∃ c ∈ insertBackup b known, b.same c = true := by
  have hself : b.same b = true := by simp [BackupName.same]
  induction known with
  | nil => exact ⟨b, List.mem_singleton_self b, hself⟩
  | cons d rest ih =>
    rw [insertBackup]
    split_ifs with hsame
    · exact ⟨d, List.mem_cons_self, hsame⟩
    · exact ⟨b, List.mem_cons_self, hself⟩
    · obtain ⟨c, hc, hbc⟩ := ih
      exact ⟨c, List.mem_cons_of_mem d hc, hbc⟩

theorem descending_foldl (h : known.Pairwise fun a b ↦ a.newer b = true) :
    (names.foldl (fun known b ↦ insertBackup b known) known).Pairwise
      fun a b ↦ a.newer b = true := by
  induction names generalizing known with
  | nil => exact h
  | cons b rest ih => exact ih (descending_insertBackup h)

theorem mem_foldl_of_mem (h : c ∈ known) :
    c ∈ names.foldl (fun known b ↦ insertBackup b known) known := by
  induction names generalizing known with
  | nil => exact h
  | cons b rest ih => exact ih (mem_insertBackup_of_mem h)

theorem exists_same_foldl (known : List BackupName) (h : b ∈ names) :
    ∃ c ∈ names.foldl (fun known b ↦ insertBackup b known) known, b.same c = true := by
  induction names generalizing known with
  | nil => exact absurd h List.not_mem_nil
  | cons d rest ih =>
    rcases List.mem_cons.mp h with rfl | h
    · obtain ⟨c, hc, hsame⟩ := exists_same_insertBackup b known
      refine ⟨c, ?_, hsame⟩
      rw [List.foldl_cons]
      exact mem_foldl_of_mem hc
    · exact ih _ h

/-! ### Backups on disk -/

/-- The backups on disk bear names of their own form, and no two of them are the same. -/
structure Regular (t : FileTree) (directory : Place) (name : String) : Prop where
  canonical : ∀ q b, (t.content? q).isSome = true → backupAt? directory name q = some b →
    q = directory ++ [b.fileName name]
  distinct : ∀ q r b c, (t.content? q).isSome = true → (t.content? r).isSome = true →
    backupAt? directory name q = some b → backupAt? directory name r = some c →
    b.same c = true → q = r

/-- An open log file knows exactly its backups that are on disk, newest first. -/
structure Knows (t : FileTree) (f : LogFile) : Prop where
  readable : ∀ b ∈ f.backups, BackupName.ofFileName? f.name (b.fileName f.name) = some b
  descending : f.backups.Pairwise fun a b ↦ a.newer b = true
  onDisk : ∀ q, isBackupPlace f.directory f.name q = true →
    ((t.content? q).isSome = true ↔ ∃ b ∈ f.backups, q = f.backupPlace b)

/-- The backups of a log file on disk, with their bytes. -/
def backupFiles (t : FileTree) (f : LogFile) : List (Place × ByteArray) :=
  filesWhere t (isBackupPlace f.directory f.name)

theorem mem_filesWhere {p : Place → Bool} (ht : t.WellFormed) {content : ByteArray} :
    (q, content) ∈ filesWhere t p ↔ p q = true ∧ t.content? q = some content := by
  rw [filesWhere, List.mem_filterMap]
  constructor
  · rintro ⟨entry, hentry, hchosen⟩
    obtain ⟨hp, rfl, n, hnode⟩ := chosen_eq_some_iff.mp hchosen
    obtain ⟨before, behind, hnodes⟩ := List.append_of_mem hentry
    refine ⟨hp, ?_⟩
    rw [content?, ht.node?_around hnodes, hnode]
  · rintro ⟨hp, hcontent⟩
    unfold content? at hcontent
    split at hcontent
    · next n found hnode =>
      have hroot : q ≠ [] := by
        rintro rfl
        exact absurd hnode (by simp [node?])
      obtain ⟨before, behind, hnodes⟩ := exists_around hroot hnode
      obtain rfl := Option.some.inj hcontent
      refine ⟨(q, .file n found), ?_, chosen_eq_some_iff.mpr ⟨hp, rfl, n, rfl⟩⟩
      rw [hnodes]
      exact List.mem_append_right _ List.mem_cons_self
    · exact absurd hcontent (by simp)

/-- Whether the backups on disk are regular can be seen from a list of them. -/
theorem regular_of_filesWhere (ht : t.WellFormed)
    (h : ∀ file ∈ filesWhere t (isBackupPlace directory name),
      ∀ b ∈ backupAt? directory name file.1, file.1 = directory ++ [b.fileName name] ∧
        ∀ other ∈ filesWhere t (isBackupPlace directory name),
          ∀ c ∈ backupAt? directory name other.1, b.same c = true → file.1 = other.1) :
    Regular t directory name := by
  have hfile : ∀ q b, (t.content? q).isSome = true → backupAt? directory name q = some b →
      ∃ content, (q, content) ∈ filesWhere t (isBackupPlace directory name) := by
    intro q b hq hb
    obtain ⟨content, hcontent⟩ := Option.isSome_iff_exists.mp hq
    refine ⟨content, (mem_filesWhere ht).mpr ⟨?_, hcontent⟩⟩
    rw [isBackupPlace, hb]
    rfl
  constructor
  · intro q b hq hb
    obtain ⟨content, hmem⟩ := hfile q b hq hb
    exact (h _ hmem b hb).1
  · intro q r b c hq hr hb hc hsame
    obtain ⟨content, hmem⟩ := hfile q b hq hb
    obtain ⟨other, hmem'⟩ := hfile r c hr hc
    exact (h _ hmem b hb).2 _ hmem' c hc hsame

theorem nodup_filesWhere (ht : t.WellFormed) (p : Place → Bool) :
    ((filesWhere t p).map Prod.fst).Nodup :=
  ht.distinct.sublist (map_fst_chosen_sublist p t.nodes)

theorem backupAt?_backupPlace (h : BackupName.ofFileName? f.name (b.fileName f.name) = some b) :
    backupAt? f.directory f.name (f.backupPlace b) = some b := by
  rw [backupPlace, backupAt?_concat, h]

/-- The backups that a place can stand for are those of a name in the directory. -/
theorem exists_backupAt? (h : isBackupPlace directory name q = true) :
    ∃ b, backupAt? directory name q = some b :=
  Option.isSome_iff_exists.mp h

namespace Knows

theorem backupAt?_eq (h : Knows t f) (hb : b ∈ f.backups) :
    backupAt? f.directory f.name (f.backupPlace b) = some b :=
  backupAt?_backupPlace (h.readable b hb)

theorem isBackupPlace_of_mem (h : Knows t f) (hb : b ∈ f.backups) :
    isBackupPlace f.directory f.name (f.backupPlace b) = true :=
  isBackupPlace_backupPlace (h.readable b hb)

/-- Two backups that are the same are one. -/
theorem eq_of_same (h : Knows t f) (hb : b ∈ f.backups) (hc : c ∈ f.backups)
    (hsame : b.same c = true) : b = c := by
  by_contra hne
  have hapart : f.backups.Pairwise fun b c ↦ b.same c = false :=
    h.descending.imp BackupName.not_same_of_newer
  have hsymm : Std.Symm fun b c : BackupName ↦ b.same c = false :=
    ⟨fun b c hbc ↦ (BackupName.same_comm c b).trans hbc⟩
  rw [hapart.forall hb hc hne] at hsame
  exact absurd hsame Bool.false_ne_true

/-- What is on disk is regular, for it is what is known. -/
theorem regular (h : Knows t f) : Regular t f.directory f.name := by
  have hfile : ∀ q b, (t.content? q).isSome = true → backupAt? f.directory f.name q = some b →
      b ∈ f.backups ∧ q = f.backupPlace b := by
    intro q b hq hb
    obtain ⟨c, hc, rfl⟩ := (h.onDisk q (by rw [isBackupPlace, hb]; rfl)).mp hq
    rw [h.backupAt?_eq hc] at hb
    obtain rfl := Option.some.inj hb
    exact ⟨hc, rfl⟩
  constructor
  · intro q b hq hb
    exact (hfile q b hq hb).2
  · intro q r b c hq hr hb hc hsame
    obtain ⟨hknown, rfl⟩ := hfile q b hq hb
    obtain ⟨hknown', rfl⟩ := hfile r c hr hc
    rw [h.eq_of_same hknown hknown' hsame]

theorem perm_files (h : Knows t f) (ht : t.WellFormed) :
    ((backupFiles t f).map Prod.fst).Perm (f.backups.map f.backupPlace) := by
  have hnodup : (f.backups.map f.backupPlace).Nodup :=
    List.Nodup.map_on
      (fun b hb c hc hplace ↦ eq_of_backupPlace (h.readable b hb) (h.readable c hc) hplace)
      (h.descending.imp ne_of_newer)
  refine (List.perm_ext_iff_of_nodup (nodup_filesWhere ht _) hnodup).mpr fun q ↦ ?_
  rw [List.mem_map, List.mem_map]
  constructor
  · rintro ⟨⟨q, content⟩, hfile, rfl⟩
    obtain ⟨hq, hcontent⟩ := (mem_filesWhere ht).mp hfile
    obtain ⟨b, hb, rfl⟩ := (h.onDisk q hq).mp (by rw [hcontent]; rfl)
    exact ⟨b, hb, rfl⟩
  · rintro ⟨b, hb, rfl⟩
    have hq := h.isBackupPlace_of_mem hb
    obtain ⟨content, hcontent⟩ :=
      Option.isSome_iff_exists.mp ((h.onDisk _ hq).mpr ⟨b, hb, rfl⟩)
    exact ⟨(f.backupPlace b, content), (mem_filesWhere ht).mpr ⟨hq, hcontent⟩, rfl⟩

theorem length_files (h : Knows t f) (ht : t.WellFormed) :
    (backupFiles t f).length = f.backups.length := by
  have hlength := (h.perm_files ht).length_eq
  rwa [List.length_map, List.length_map] at hlength

/-- Only files that are no backups have changed. -/
theorem congr (h : Knows t f) (hdirectory : f'.directory = f.directory) (hname : f'.name = f.name)
    (hbackups : f'.backups = f.backups)
    (hsame : ∀ q, isBackupPlace f.directory f.name q = true → t'.content? q = t.content? q) :
    Knows t' f' := by
  constructor
  · rw [hbackups, hname]
    exact h.readable
  · rw [hbackups]
    exact h.descending
  · intro q hq
    rw [hdirectory, hname] at hq
    rw [hsame q hq, h.onDisk q hq, hbackups]
    simp only [backupPlace, hdirectory, hname]

end Knows

/-! ### Opening -/

/-- A backup that a scan knows stands for a file on disk. -/
theorem exists_of_mem_scan (ht : t.WellFormed) (h : b ∈ scan t directory name) :
    ∃ q, (t.content? q).isSome = true ∧ backupAt? directory name q = some b := by
  rw [LogFile.scan_eq] at h
  obtain ⟨⟨q, content⟩, hfile, hq⟩ :=
    List.mem_filterMap.mp ((mem_of_mem_foldl h).resolve_left List.not_mem_nil)
  obtain ⟨-, hcontent⟩ := (mem_filesWhere ht).mp hfile
  exact ⟨q, by rw [hcontent]; rfl, hq⟩

namespace Regular

/-- Only files that are no backups have changed. -/
theorem congr (h : Regular t directory name)
    (hsame : ∀ q, isBackupPlace directory name q = true → t'.content? q = t.content? q) :
    Regular t' directory name := by
  have hfile : ∀ q b, (t'.content? q).isSome = true → backupAt? directory name q = some b →
      (t.content? q).isSome = true := by
    intro q b hq hb
    rwa [hsame q (by rw [isBackupPlace, hb]; rfl)] at hq
  constructor
  · intro q b hq hb
    exact h.canonical q b (hfile q b hq hb) hb
  · intro q r b c hq hr hb hc
    exact h.distinct q r b c (hfile q b hq hb) (hfile r c hr hc) hb hc

/-- A scan finds every backup on disk. -/
theorem mem_scan (h : Regular t directory name) (ht : t.WellFormed)
    (hq : (t.content? q).isSome = true) (hb : backupAt? directory name q = some b) :
    b ∈ scan t directory name := by
  have hfound : b ∈ (filesWhere t (isBackupPlace directory name)).filterMap
      fun file ↦ backupAt? directory name file.1 := by
    obtain ⟨content, hcontent⟩ := Option.isSome_iff_exists.mp hq
    refine List.mem_filterMap.mpr ⟨(q, content), (mem_filesWhere ht).mpr ⟨?_, hcontent⟩, hb⟩
    rw [isBackupPlace, hb]
    rfl
  obtain ⟨c, hc, hsame⟩ := exists_same_foldl [] hfound
  rw [← LogFile.scan_eq] at hc
  obtain ⟨r, hr, hplace⟩ := exists_of_mem_scan ht hc
  obtain rfl : q = r := h.distinct q r b c hq hr hb hplace hsame
  obtain rfl : b = c := Option.some.inj (hb.symm.trans hplace)
  exact hc

/-- A log file that has scanned its directory knows its backups. -/
theorem knows (h : Regular t f.directory f.name) (ht : t.WellFormed)
    (hbackups : f.backups = scan t f.directory f.name) : Knows t f := by
  constructor
  · intro b hb
    obtain ⟨q, hq, hplace⟩ := exists_of_mem_scan ht (hbackups ▸ hb)
    rwa [h.canonical q b hq hplace, backupAt?_concat] at hplace
  · rw [hbackups]
    exact descending_foldl List.Pairwise.nil
  · intro q hq
    rw [hbackups]
    constructor
    · intro hfile
      obtain ⟨b, hb⟩ := exists_backupAt? hq
      exact ⟨b, h.mem_scan ht hfile hb, h.canonical q b hfile hb⟩
    · rintro ⟨b, hb, rfl⟩
      obtain ⟨r, hr, hplace⟩ := exists_of_mem_scan ht hb
      have hr' : r = f.backupPlace b := h.canonical r b hr hplace
      rwa [← hr']

end Regular

end LogFile

end Logbook
