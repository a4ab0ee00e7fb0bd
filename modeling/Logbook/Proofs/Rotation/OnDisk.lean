import Logbook.Proofs.Rotation.Opening

/-!
# The files of a log on disk

A log file stands in a tree together with its backups (`Stands`): the active file at its place, and
before it, in the order in which they were made, the backups. Which places count as backups is a
parameter (`chosen`): for one reader they are the names of a certain shape, for another all files
that were not there at the start.

Each thing a write does to the tree has one lemma: bytes are appended (`Stands.append`), the active
file is moved aside and started anew (`Stands.rotate`), the oldest backups are removed
(`Stands.removeAll`). All of them leave what stands elsewhere as it is (`SameElsewhere`).

An open log file that follows its files (`IsOpen`) appends or rotates by its limit
(`IsOpen.write_of_le`, `IsOpen.write_of_lt`).
-/

set_option autoImplicit false
set_option relaxedAutoImplicit false

namespace Logbook

/-- The name of a backup is too long: for a directory, or with the path of its log file in front. -/
def BackupName.isLong (path : FilePath) (name : String) (b : BackupName) : Bool :=
  FilePath.isLongName (b.fileName name) || FilePath.isLong ⟨b.fileName path.text⟩

namespace LogFile

open FileTree

/-! ### Choosing files -/

/-- The place and the bytes of an entry that is a file at one of the chosen places. -/
def chosen (p : Place → Bool) : Place × Node → Option (Place × ByteArray)
  | (_, .directory) => none
  | (place, .file _ content) => if p place then some (place, content) else none

/-- The files at the chosen places, in the order in which they were made. -/
def filesWhere (t : FileTree) (p : Place → Bool) : List (Place × ByteArray) :=
  t.nodes.filterMap (chosen p)

variable {p : Place → Bool} {t t' : FileTree} {place : Place} {id : Nat} {active : ByteArray}
  {backups : List (Place × ByteArray)}

theorem chosen_eq_some_iff {entry : Place × Node} {q : Place} {content : ByteArray} :
    chosen p entry = some (q, content) ↔
      p q = true ∧ entry.1 = q ∧ ∃ id, entry.2 = .file id content := by
  obtain ⟨r, node⟩ := entry
  cases node with
  | directory => simp [chosen]
  | file id c =>
    simp only [chosen, Option.ite_none_right_eq_some, Option.some.injEq, Prod.mk.injEq,
      Node.file.injEq]
    constructor
    · rintro ⟨hp, rfl, rfl⟩
      exact ⟨hp, rfl, id, rfl, rfl⟩
    · rintro ⟨hp, rfl, n, -, rfl⟩
      exact ⟨hp, rfl, rfl⟩

theorem fst_of_chosen {entry : Place × Node} {file : Place × ByteArray}
    (h : chosen p entry = some file) : file.1 = entry.1 := by
  obtain ⟨q, content⟩ := file
  exact (chosen_eq_some_iff.mp h).2.1.symm

theorem map_fst_chosen_sublist (p : Place → Bool) (entries : List (Place × Node)) :
    ((entries.filterMap (chosen p)).map Prod.fst).Sublist (entries.map Prod.fst) := by
  induction entries with
  | nil => exact List.Sublist.slnil
  | cons entry rest ih =>
    cases hentry : chosen p entry with
    | none =>
      rw [List.filterMap_cons_none hentry, List.map_cons]
      exact ih.cons _
    | some file =>
      obtain ⟨q, content⟩ := file
      have hq : entry.1 = q := (chosen_eq_some_iff.mp hentry).2.1
      rw [List.filterMap_cons_some hentry, List.map_cons, List.map_cons, hq]
      exact ih.cons_cons q

/-- Taking a place out of the entries takes it out of the chosen files. -/
theorem filterMap_chosen_filter (q : Place) (entries : List (Place × Node)) :
    (entries.filter fun (r, _) ↦ r ≠ q).filterMap (chosen p) =
      (entries.filterMap (chosen p)).filter fun file ↦ file.1 ≠ q := by
  induction entries with
  | nil => rfl
  | cons entry rest ih =>
    by_cases hr : entry.1 = q
    · rw [List.filter_cons_of_neg (by simpa using hr), ih]
      cases hentry : chosen p entry with
      | none => rw [List.filterMap_cons_none hentry]
      | some file =>
        have hfile : file.1 = q := (fst_of_chosen hentry).trans hr
        rw [List.filterMap_cons_some hentry, List.filter_cons_of_neg (by simpa using hfile)]
    · rw [List.filter_cons_of_pos (by simpa using hr)]
      cases hentry : chosen p entry with
      | none => rw [List.filterMap_cons_none hentry, List.filterMap_cons_none hentry, ih]
      | some file =>
        have hfile : file.1 ≠ q := by rwa [fst_of_chosen hentry]
        rw [List.filterMap_cons_some hentry, List.filterMap_cons_some hentry, ih,
          List.filter_cons_of_pos (by simpa using hfile)]

/-! ### A log file and its backups in a tree -/

/-- Nothing but the active file and the chosen places has changed. -/
def SameElsewhere (p : Place → Bool) (place : Place) (t t' : FileTree) : Prop :=
  ∀ q, q ≠ place → p q = false → t'.node? q = t.node? q

theorem SameElsewhere.refl (p : Place → Bool) (place : Place) (t : FileTree) :
    SameElsewhere p place t t :=
  fun _ _ _ ↦ rfl

theorem SameElsewhere.trans {t'' : FileTree} (h : SameElsewhere p place t t')
    (h' : SameElsewhere p place t' t'') : SameElsewhere p place t t'' :=
  fun q hq hp ↦ (h' q hq hp).trans (h q hq hp)

/-- The active file stands at its place, with its number and its bytes, and the chosen files stand
before it. No directory stands at a chosen place. -/
structure Stands (t : FileTree) (p : Place → Bool) (place : Place) (id : Nat) (active : ByteArray)
    (backups : List (Place × ByteArray)) : Prop where
  wellFormed : t.WellFormed
  apart : p place = false
  layout : ∃ before behind, t.nodes = before ++ (place, .file id active) :: behind ∧
    before.filterMap (chosen p) = backups ∧ behind.filterMap (chosen p) = []
  filesOnly : ∀ q, p q = true → t.isDirectory q = false

namespace Stands

theorem node?_eq (h : Stands t p place id active backups) :
    t.node? place = some (.file id active) := by
  obtain ⟨before, behind, hnodes, -, -⟩ := h.layout
  exact h.wellFormed.node?_around hnodes

theorem content?_eq (h : Stands t p place id active backups) :
    t.content? place = some active := by
  rw [content?, h.node?_eq]

/-- A file stands at its place where all chosen places are free. -/
theorem of_node? (hwell : t.WellFormed) (hplace : place ≠ [])
    (hnode : t.node? place = some (.file id active))
    (hfree : ∀ q, p q = true → t.node? q = none) : Stands t p place id active [] := by
  obtain ⟨before, behind, hnodes⟩ := exists_around hplace hnode
  have hnone : ∀ entry ∈ t.nodes, chosen p entry = none := by
    intro entry hentry
    cases hchosen : chosen p entry with
    | none => rfl
    | some file =>
      obtain ⟨q, content⟩ := file
      obtain ⟨hq, rfl, -⟩ := chosen_eq_some_iff.mp hchosen
      have hsome := (isSome_node?_iff t entry.1).mpr (Or.inr (List.mem_map_of_mem hentry))
      rw [hfree _ hq] at hsome
      exact absurd hsome Bool.false_ne_true
  have happart : p place = false := by
    refine Bool.eq_false_iff.mpr fun hp ↦ ?_
    rw [hfree place hp] at hnode
    exact absurd hnode (by simp)
  refine ⟨hwell, happart, ⟨before, behind, hnodes, ?_, ?_⟩, fun q hq ↦ ?_⟩
  · refine List.filterMap_eq_nil_iff.mpr fun entry hentry ↦ hnone entry ?_
    rw [hnodes]
    exact List.mem_append_left _ hentry
  · refine List.filterMap_eq_nil_iff.mpr fun entry hentry ↦ hnone entry ?_
    rw [hnodes]
    exact List.mem_append_right _ (List.mem_cons_of_mem _ hentry)
  · rw [isDirectory, hfree q hq]

theorem filesWhere_eq (h : Stands t p place id active backups) : filesWhere t p = backups := by
  obtain ⟨before, behind, hnodes, hbefore, hbehind⟩ := h.layout
  have hactive : chosen p (place, .file id active) = none := by
    simp [chosen, h.apart]
  rw [filesWhere, hnodes, List.filterMap_append, List.filterMap_cons_none hactive, hbefore,
    hbehind, List.append_nil]

theorem nodup (h : Stands t p place id active backups) : (backups.map Prod.fst).Nodup := by
  rw [← h.filesWhere_eq]
  exact h.wellFormed.distinct.sublist (map_fst_chosen_sublist p t.nodes)

/-- A chosen place is free unless a backup stands there. -/
theorem free (h : Stands t p place id active backups) {q : Place} (hq : p q = true)
    (hroot : q ≠ []) (hnew : q ∉ backups.map Prod.fst) : t.node? q = none := by
  cases hnode : t.node? q with
  | none => rfl
  | some node =>
    exfalso
    obtain ⟨before, behind, hnodes⟩ := exists_around hroot hnode
    cases node with
    | directory =>
      have hfile := h.filesOnly q hq
      rw [isDirectory, hnode] at hfile
      exact absurd hfile (by simp)
    | file n content =>
      have hmem : (q, content) ∈ filesWhere t p := by
        rw [filesWhere, List.mem_filterMap]
        refine ⟨(q, .file n content), ?_, by simp [chosen, hq]⟩
        rw [hnodes]
        exact List.mem_append_right _ List.mem_cons_self
      rw [h.filesWhere_eq] at hmem
      exact hnew (List.mem_map_of_mem hmem)

/-- The place of a backup holds its file. -/
theorem node?_backup (h : Stands t p place id active backups) {q : Place} {content : ByteArray}
    (hq : (q, content) ∈ backups) : ∃ n, t.node? q = some (.file n content) := by
  rw [← h.filesWhere_eq, filesWhere, List.mem_filterMap] at hq
  obtain ⟨entry, hentry, hchosen⟩ := hq
  obtain ⟨-, rfl, n, hnode⟩ := chosen_eq_some_iff.mp hchosen
  obtain ⟨before, behind, hnodes⟩ := List.append_of_mem hentry
  refine ⟨n, ?_⟩
  rw [h.wellFormed.node?_around hnodes, hnode]

/-- The active file is at no chosen place. -/
theorem ne_of_chosen (h : Stands t p place id active backups) {q : Place} (hq : p q = true) :
    q ≠ place := by
  rintro rfl
  rw [h.apart] at hq
  exact absurd hq (by simp)

/-- Directories stay where a tree changes at the active file and at chosen places only. -/
theorem keepsDirectories (h : Stands t p place id active backups)
    (hsame : SameElsewhere p place t t') {q : Place} (hq : t.isDirectory q = true) :
    t'.isDirectory q = true := by
  have hplace : q ≠ place := by
    rintro rfl
    rw [isDirectory, h.node?_eq] at hq
    exact absurd hq (by simp)
  have hp : p q = false := by
    refine Bool.eq_false_iff.mpr fun hp ↦ ?_
    rw [h.filesOnly q hp] at hq
    exact absurd hq (by simp)
  rw [isDirectory, hsame q hplace hp]
  exact hq

/-! ### What a write does to the tree -/

theorem append (h : Stands t p place id active backups) (bytes : ByteArray) :
    Stands (t.append id bytes) p place id (active ++ bytes) backups ∧
      SameElsewhere p place t (t.append id bytes) := by
  obtain ⟨before, behind, hnodes, hbefore, hbehind⟩ := h.layout
  have hnodes' := nodes_append h.wellFormed hnodes bytes
  have hwell : (t.append id bytes).WellFormed :=
    h.wellFormed.replace hnodes hnodes' rfl rfl (Or.inl rfl)
  have helsewhere : ∀ q, q ≠ place → (t.append id bytes).node? q = t.node? q :=
    fun q hq ↦ node?_of_replaced hnodes hnodes' hq hq
  refine ⟨⟨hwell, h.apart, ⟨before, behind, hnodes', hbefore, hbehind⟩, fun q hq ↦ ?_⟩,
    fun q hq _ ↦ helsewhere q hq⟩
  rw [isDirectory, helsewhere q (h.ne_of_chosen hq)]
  exact h.filesOnly q hq

/-- The active file moves to a free place and becomes the newest backup, and a new file is started
at its own place. -/
theorem rotate {directory : Place} {name target : String} {path : FilePath} {moved : FileTree}
    (h : Stands t p (directory ++ [name]) id active backups)
    (htarget : t.node? (directory ++ [target]) = none → p (directory ++ [target]) = true)
    (hmoved : t.rename directory name path target = .ok moved) :
    moved.node? (directory ++ [name]) = none ∧ moved.next = t.next ∧
      Stands (moved.addFile (directory ++ [name]) ByteArray.empty).1 p (directory ++ [name]) t.next
        ByteArray.empty (backups ++ [(directory ++ [target], active)]) ∧
      SameElsewhere p (directory ++ [name]) t
        (moved.addFile (directory ++ [name]) ByteArray.empty).1 := by
  obtain ⟨before, behind, hnodes, hbefore, hbehind⟩ := h.layout
  rw [nodes_rename h.wellFormed hnodes] at hmoved
  split_ifs at hmoved with hlong htaken
  obtain rfl : _ = moved := Except.ok.inj hmoved
  replace htarget := htarget (Option.not_isSome_iff_eq_none.mp htaken)
  have hplace : directory ++ [name] ≠ [] := by simp
  have hroot : directory ++ [target] ≠ [] := by simp
  have hfree : directory ++ [target] ∉ t.places :=
    fun hmem ↦ htaken ((isSome_node?_iff t _).mpr (Or.inr hmem))
  have hne : directory ++ [target] ≠ directory ++ [name] := h.ne_of_chosen htarget
  set renamed : FileTree :=
    { t with nodes := before ++ (directory ++ [target], .file id active) :: behind }
  have hwell : renamed.WellFormed :=
    h.wellFormed.replace hnodes rfl rfl rfl (Or.inr ⟨hroot, hfree⟩)
  obtain ⟨-, hnotBefore, hnotBehind⟩ := h.wellFormed.not_mem_around hnodes
  have hgone : directory ++ [name] ∉ renamed.places := by
    rw [places, List.map_append, List.map_cons, List.mem_append, List.mem_cons]
    rintro (hmem | hmem | hmem)
    · exact hnotBefore hmem
    · exact hne hmem.symm
    · exact hnotBehind hmem
  have hnone : renamed.node? (directory ++ [name]) = none := by
    rw [← Option.not_isSome_iff_eq_none, isSome_node?_iff, not_or]
    exact ⟨hplace, hgone⟩
  have helsewhere : ∀ q, q ≠ directory ++ [name] → q ≠ directory ++ [target] →
      (renamed.addFile (directory ++ [name]) ByteArray.empty).1.node? q = t.node? q :=
    fun q hq hq' ↦ (node?_addFile_of_ne hq _).trans (node?_of_replaced hnodes rfl hq hq')
  have hfresh := hwell.addFile hplace hgone ByteArray.empty
  refine ⟨hnone, rfl, ⟨hfresh, h.apart, ?_, fun q hq ↦ ?_⟩, fun q hq hp ↦ ?_⟩
  · refine ⟨before ++ (directory ++ [target], .file id active) :: behind, [], rfl, ?_, rfl⟩
    have hchosen : chosen p (directory ++ [target], .file id active) =
        some (directory ++ [target], active) := by
      simp [chosen, htarget]
    rw [List.filterMap_append, List.filterMap_cons_some hchosen, hbefore, hbehind]
  · by_cases htq : q = directory ++ [target]
    · have hbackup : renamed.node? (directory ++ [target]) = some (.file id active) :=
        hwell.node?_around rfl
      rw [isDirectory, htq, node?_addFile_of_ne hne, hbackup]
    · rw [isDirectory, helsewhere q (h.ne_of_chosen hq) htq]
      exact h.filesOnly q hq
  · refine helsewhere q hq ?_
    rintro rfl
    rw [htarget] at hp
    exact absurd hp (by simp)

/-- The oldest backup is removed. -/
theorem erase {q : Place} {content : ByteArray}
    (h : Stands t p place id active ((q, content) :: backups)) :
    Stands (t.erase q) p place id active backups ∧ SameElsewhere p place t (t.erase q) := by
  obtain ⟨before, behind, hnodes, hbefore, hbehind⟩ := h.layout
  have hchosen : (q, content) ∈ before.filterMap (chosen p) := by
    rw [hbefore]
    exact List.mem_cons_self
  obtain ⟨entry, -, hentry⟩ := List.mem_filterMap.mp hchosen
  have hq : p q = true := (chosen_eq_some_iff.mp hentry).1
  have hne : place ≠ q := (h.ne_of_chosen hq).symm
  have hrest : backups.filter (fun file ↦ decide (file.1 ≠ q)) = backups := by
    have hnodup := h.nodup
    rw [List.map_cons, List.nodup_cons] at hnodup
    refine List.filter_eq_self.mpr fun file hfile ↦ decide_eq_true fun heq ↦ hnodup.1 ?_
    exact List.mem_map.mpr ⟨file, hfile, heq⟩
  have hnodes' : (t.erase q).nodes = before.filter (fun (r, _) ↦ decide (r ≠ q)) ++
      (place, .file id active) :: behind.filter fun (r, _) ↦ decide (r ≠ q) := by
    rw [FileTree.erase, hnodes, List.filter_append, List.filter_cons_of_pos (by simpa using hne)]
  refine ⟨⟨h.wellFormed.erase q, h.apart, ⟨_, _, hnodes', ?_, ?_⟩, fun r hr ↦ ?_⟩,
    fun r _ hr ↦ node?_erase_of_ne ?_⟩
  · rw [filterMap_chosen_filter, hbefore, List.filter_cons_of_neg (by simp), hrest]
  · rw [filterMap_chosen_filter, hbehind, List.filter_nil]
  · by_cases hrq : r = q
    · have hroot : q ≠ [] := by
        rintro rfl
        have hdirectory := h.filesOnly [] hq
        simp [isDirectory, node?] at hdirectory
      rw [isDirectory, hrq, node?_erase_self hroot]
    · rw [isDirectory, node?_erase_of_ne hrq]
      exact h.filesOnly r hr
  · rintro rfl
    rw [hq] at hr
    exact absurd hr (by simp)

end Stands

/-! ### An open log file -/

/-- An open log file has a path that leads to it, and knows the number of the active file and how
many bytes it holds. -/
structure IsOpen (t : FileTree) (f : LogFile) (p : Place → Bool) (id : Nat) (active : ByteArray)
    (backups : List (Place × ByteArray)) : Prop where
  stands : Stands t p f.place id active backups
  reaches : Reaches t f.path f.directory f.name
  handle : f.handle = some id
  count : f.count = active.size

variable {f : LogFile}

namespace IsOpen

/-- The directory is there. -/
theorem restore_eq (h : IsOpen t f p id active backups) : restore t f = (t, some f) := by
  have hreopened : { f with handle := some id } = f := by rw [← h.handle]
  have hrestore := h.reaches.restore_eq h.stands.node?_eq
  rwa [hreopened, or_self] at hrestore

/-- The file written to is the one at the log file's place, so nothing is opened again. -/
theorem settle_eq (h : IsOpen t f p id active backups) : settle t f = (t, f) := by
  rw [settle, h.stands.node?_eq, h.handle]
  rfl

/-- The path goes on leading to the log file where nothing but its files changes. -/
theorem reaches_of_same (h : IsOpen t f p id active backups)
    (hsame : SameElsewhere p f.place t t') : Reaches t' f.path f.directory f.name :=
  h.reaches.of_directories fun _ ↦ h.stands.keepsDirectories hsame

/-- A write that needs no rotation appends. -/
theorem write_of_le (h : IsOpen t f p id active backups) {bytes : ByteArray} (now : String)
    (hbytes : bytes.size ≠ 0) (hlimit : active.size ≤ f.limit) :
    write t f now bytes = (t.append id bytes, { f with count := f.count + bytes.size }, none) := by
  rw [write, if_neg hbytes, if_neg (by rw [h.count]; omega)]
  simp only [h.handle]

/-- A write that needs a rotation appends to the file that was started anew. -/
theorem write_of_lt (h : IsOpen t f p id active backups) {bytes : ByteArray} {now : String}
    (hbytes : bytes.size ≠ 0) (hlimit : f.limit < active.size) {left : FileTree} {g : LogFile}
    (hrotate : rotate t f now = (left, g, none)) {next : Nat} (hnext : g.handle = some next) :
    write t f now bytes =
      (left.append next bytes, { g with count := g.count + bytes.size }, none) := by
  rw [write, if_neg hbytes, if_pos (by rwa [h.count]), hrotate]
  simp only [hnext]

theorem append (h : IsOpen t f p id active backups) (bytes : ByteArray) :
    IsOpen (t.append id bytes) { f with count := f.count + bytes.size } p id (active ++ bytes)
      backups :=
  ⟨(h.stands.append bytes).1, h.reaches_of_same (h.stands.append bytes).2, h.handle, by
    show f.count + bytes.size = _
    rw [h.count, ByteArray.size_append]⟩

/-- A rotation that gets past its guards: the active file is the newest backup, and pruning is all
that is left to do. -/
theorem rotate_eq (h : IsOpen t f p id active backups) {now : String} {moved : FileTree}
    (hfits : (nextBackup f now).fitsWord = true)
    (hsame : f.backups.any (·.same (nextBackup f now)) = false)
    (htarget : t.node? (f.backupPlace (nextBackup f now)) = none →
      p (f.backupPlace (nextBackup f now)) = true)
    (hmoved : t.rename f.directory f.name (f.backupPath (nextBackup f now))
      ((nextBackup f now).fileName f.name) = .ok moved) :
    ∃ fresh g, g = { f with
        handle := some t.next, count := 0
        backups := insertBackup (nextBackup f now) f.backups } ∧
      IsOpen fresh g p t.next ByteArray.empty
        (backups ++ [(f.backupPlace (nextBackup f now), active)]) ∧
      SameElsewhere p f.place t fresh ∧
      rotate t f now =
        ((prune fresh g).1, (prune fresh g).2.1, (prune fresh g).2.2.map .io) := by
  obtain ⟨hnone, hnext, hstands, hsameElsewhere⟩ := h.stands.rotate htarget hmoved
  refine ⟨_, _, rfl, ⟨hstands, h.reaches_of_same hsameElsewhere, rfl, rfl⟩, hsameElsewhere, ?_⟩
  have hreopen : reopen moved
      { f with handle := none, backups := insertBackup (nextBackup f now) f.backups } =
        ((moved.addFile f.place ByteArray.empty).1,
          { f with
            handle := some t.next, backups := insertBackup (nextBackup f now) f.backups }) := by
    have hnone' : moved.node? f.place = none := hnone
    have hplace : place { f with
        handle := none, backups := insertBackup (nextBackup f now) f.backups } = f.place := rfl
    rw [reopen, hplace, hnone']
    simp [addFile, hnext]
  have hbackup : nextBackup { f with handle := none } now = nextBackup f now := rfl
  have hpath : backupPath { f with handle := none } (nextBackup f now) =
      f.backupPath (nextBackup f now) := rfl
  rw [rotate, h.restore_eq]
  simp only [h.settle_eq, hbackup, hpath, hfits, hsame, Bool.not_true, Bool.false_eq_true,
    ↓reduceIte, hmoved, hreopen]
  rfl

/-- A rotation that succeeds got past its guards. -/
theorem guards_of_rotate (h : IsOpen t f p id active backups) {now : String} {left : FileTree}
    {g : LogFile} (hrotate : rotate t f now = (left, g, none)) :
    (nextBackup f now).fitsWord = true ∧ f.backups.any (·.same (nextBackup f now)) = false ∧
      ∃ moved, t.rename f.directory f.name (f.backupPath (nextBackup f now))
        ((nextBackup f now).fileName f.name) = .ok moved := by
  have hbackup : nextBackup { f with handle := none } now = nextBackup f now := rfl
  rw [rotate, h.restore_eq] at hrotate
  simp only [h.settle_eq, hbackup] at hrotate
  split at hrotate
  · exact absurd (congrArg (fun r ↦ r.2.2) hrotate) (by simp)
  next hfits =>
  split at hrotate
  · exact absurd (congrArg (fun r ↦ r.2.2) hrotate) (by simp)
  next hsame =>
  refine ⟨by simpa using hfits, by simpa using hsame, ?_⟩
  split at hrotate
  · exact absurd (congrArg (fun r ↦ r.2.2) hrotate) (by simp)
  · next moved hmoved => exact ⟨moved, hmoved⟩

end IsOpen

/-! ### Removing backups -/

/-- The oldest backups are removed one after the other. -/
theorem Stands.removeAll {kept : List (Place × ByteArray)} (bs : List BackupName)
    (hshort : ∀ b ∈ bs, b.isLong f.path f.name = false) :
    ∀ {t : FileTree} {olds : List (Place × ByteArray)},
      Stands t p f.place id active (olds ++ kept) → olds.map Prod.fst = bs.map f.backupPlace →
        ∃ left, removeAll t f bs = (left, none) ∧ Stands left p f.place id active kept ∧
          SameElsewhere p f.place t left := by
  induction bs with
  | nil =>
    intro t olds h holds
    obtain rfl : olds = [] := by simpa using holds
    exact ⟨t, rfl, h, SameElsewhere.refl p f.place t⟩
  | cons b rest ih =>
    intro t olds h holds
    cases olds with
    | nil => simp at holds
    | cons old olds =>
      obtain ⟨q, content⟩ := old
      rw [List.map_cons, List.map_cons, List.cons.injEq] at holds
      obtain ⟨hq, holds⟩ := holds
      obtain rfl : q = f.backupPlace b := hq
      obtain ⟨n, hnode⟩ := h.node?_backup List.mem_cons_self
      obtain ⟨hname, hpath⟩ := Bool.or_eq_false_iff.mp (hshort b List.mem_cons_self)
      have hremove : t.removeFile (f.backupPath b) (f.backupPlace b) =
          .ok (t.erase (f.backupPlace b)) := removeFile_of_file hname hpath hnode
      obtain ⟨left, hleft, hstands, hsame⟩ :=
        ih (fun c hc ↦ hshort c (List.mem_cons_of_mem b hc)) h.erase.1 holds
      refine ⟨left, ?_, hstands, h.erase.2.trans hsame⟩
      rw [LogFile.removeAll, hremove]
      exact hleft

end LogFile

end Logbook
