import Logbook.Proofs.Rotation.Ledger

/-!
# A log file that keeps everything

Texts are written to a log file one after the other (`writeAll`), with all backups kept and no
matter what the clock says. If no write fails, the files hold the texts in order, each text whole in
one file (`Journal.writeAll`): the texts can be cut into groups such that the new files, in the
order in which they were made, and then the active file hold one group each.

The backups are the files that were not there at the start (`isNew`): nothing is removed, so a
rotation that succeeds moves the active file to a place that was free all along.
-/

set_option autoImplicit false
set_option relaxedAutoImplicit false

namespace Logbook.LogFile

open FileTree

/-- Writes texts one after the other, each at its timestamp. The errors are in the order of the
writes that failed. -/
def writeAll (t : FileTree) (f : LogFile) :
    List (String × ByteArray) → FileTree × LogFile × List WriteError
  | [] => (t, f, [])
  | (now, bytes) :: rest =>
    let (t, f, failed) := f.write t now bytes
    let (t, f, failures) := writeAll t f rest
    (t, f, failed.toList ++ failures)

/-- Writing one text. -/
theorem exists_write_eq {t t' : FileTree} {f f' : LogFile} {now : String} {bytes : ByteArray}
    {failures : List WriteError} (h : writeAll t f [(now, bytes)] = (t', f', failures)) :
    ∃ failed, f.write t now bytes = (t', f', failed) ∧ failures = failed.toList := by
  rcases hwrite : f.write t now bytes with ⟨left, g, failed⟩
  rw [writeAll, hwrite] at h
  simp only [writeAll, List.append_nil, Prod.mk.injEq] at h
  obtain ⟨rfl, rfl, rfl⟩ := h
  exact ⟨failed, rfl, rfl⟩

theorem writeAll_append (t : FileTree) (f : LogFile) (first second : List (String × ByteArray)) :
    writeAll t f (first ++ second) =
      ((writeAll (writeAll t f first).1 (writeAll t f first).2.1 second).1,
        (writeAll (writeAll t f first).1 (writeAll t f first).2.1 second).2.1,
        (writeAll t f first).2.2 ++
          (writeAll (writeAll t f first).1 (writeAll t f first).2.1 second).2.2) := by
  induction first generalizing t f with
  | nil => rfl
  | cons w rest ih =>
    obtain ⟨now, bytes⟩ := w
    simp only [List.cons_append, writeAll, ih, List.append_assoc]

/-! ### One write -/

variable {t t' : FileTree} {f f' : LogFile} {p : Place → Bool} {id : Nat} {active bytes : ByteArray}
  {backups : List (Place × ByteArray)} {now : String}

/-- A write that does not fail changes the bytes as a ledger that keeps all backups. Every new
backup has the name of one. -/
theorem IsOpen.write_of_ok (h : IsOpen t f p id active backups) (hkeep : f.keep = 0)
    (hfree : ∀ b, t.node? (f.backupPlace b) = none → p (f.backupPlace b) = true)
    (hbytes : bytes.size ≠ 0) (hwrite : write t f now bytes = (t', f', none)) {l : Ledger}
    (hactive : l.active = active) (hbackups : l.backups = backups.map Prod.snd) :
    ∃ next made, IsOpen t' f' p next (l.put f.limit 0 bytes).active made ∧
      (l.put f.limit 0 bytes).backups = made.map Prod.snd ∧
      (∀ file ∈ made, file ∈ backups ∨ ∃ b, file.1 = f.backupPlace b) ∧
      SameElsewhere p f.place t t' ∧
      f'.directory = f.directory ∧ f'.name = f.name ∧ f'.keep = 0 := by
  by_cases hlimit : f.limit < active.size
  · have hput : l.put f.limit 0 bytes =
        { l with active := bytes, backups := l.backups ++ [l.active] } := by
      rw [Ledger.put, if_pos (hactive ▸ hlimit)]
      rfl
    rcases hrotate : rotate t f now with ⟨left, g, failed⟩
    cases failed with
    | some e =>
      rw [write, if_neg hbytes, if_pos (by rwa [h.count]), hrotate] at hwrite
      exact absurd (congrArg (fun r ↦ r.2.2) hwrite) (by simp)
    | none =>
      obtain ⟨hfits, hsame, moved, hmoved⟩ := h.guards_of_rotate hrotate
      obtain ⟨fresh, g', hg', hfresh, helsewhere, hrotate'⟩ :=
        h.rotate_eq hfits hsame (hfree _) hmoved
      have hprune : prune fresh g' = (fresh, g', none) := by
        rw [prune, if_pos (by rw [hg']; exact hkeep)]
      rw [hrotate, hprune] at hrotate'
      simp only [Option.map_none, Prod.mk.injEq, and_true] at hrotate'
      obtain ⟨rfl, rfl⟩ := hrotate'
      rw [h.write_of_lt hbytes hlimit hrotate hfresh.handle] at hwrite
      simp only [Prod.mk.injEq, and_true] at hwrite
      obtain ⟨rfl, rfl⟩ := hwrite
      have hempty : ByteArray.empty ++ bytes = bytes := ByteArray.empty_append
      have happended := hfresh.append bytes
      rw [hempty] at happended
      rw [hput]
      refine ⟨t.next, _, happended, ?_, fun file hfile ↦ ?_, ?_, ?_⟩
      · rw [List.map_append, hbackups, hactive]
        rfl
      · rcases List.mem_append.mp hfile with hfile | hfile
        · exact Or.inl hfile
        · exact Or.inr ⟨_, congrArg Prod.fst (List.mem_singleton.mp hfile)⟩
      · have happend := (hfresh.stands.append bytes).2
        subst hg'
        exact helsewhere.trans happend
      · subst hg'
        exact ⟨rfl, rfl, hkeep⟩
  · have hput : l.put f.limit 0 bytes = { l with active := l.active ++ bytes } := by
      rw [Ledger.put, if_neg (hactive ▸ hlimit)]
    rw [h.write_of_le now hbytes (Nat.not_lt.mp hlimit)] at hwrite
    simp only [Prod.mk.injEq, and_true] at hwrite
    obtain ⟨rfl, rfl⟩ := hwrite
    rw [hput, hactive]
    exact ⟨id, backups, h.append bytes, hbackups, fun _ hfile ↦ Or.inl hfile,
      (h.stands.append bytes).2, rfl, rfl, hkeep⟩

/-! ### Many writes -/

/-- Whether a place was free in a tree. -/
def isNew (origin : FileTree) (q : Place) : Bool :=
  (origin.node? q).isNone

/-- An open log file that keeps all backups, whose files hold the texts of groups. Nothing else has
changed since the start. -/
structure Journal (origin t : FileTree) (f : LogFile) (groups : List (List ByteArray)) : Prop where
  keep : f.keep = 0
  elsewhere : SameElsewhere (isNew origin) f.place origin t
  files : ∃ id active backups, IsOpen t f (isNew origin) id active backups ∧
    groups.map joined = backups.map Prod.snd ++ [active] ∧
    ∀ file ∈ backups, ∃ b, file.1 = f.backupPlace b

variable {origin : FileTree} {groups : List (List ByteArray)}

theorem backupPlace_ne_place (f : LogFile) (b : BackupName) : f.backupPlace b ≠ f.place := by
  intro heq
  have hname : b.fileName f.name = f.name := by
    simpa [backupPlace, place] using heq
  have hlength := congrArg String.length hname
  have hdot : ".".length = 1 := rfl
  simp only [BackupName.fileName, String.length_append, hdot] at hlength
  omega

/-- A write that does not fail adds its text to the last group or starts a group. -/
theorem Journal.write (h : Journal origin t f groups) (hbytes : bytes.size ≠ 0)
    (hwrite : LogFile.write t f now bytes = (t', f', none)) :
    ∃ groups', Journal origin t' f' groups' ∧ groups'.flatten = groups.flatten ++ [bytes] ∧
      f'.directory = f.directory ∧ f'.name = f.name := by
  obtain ⟨id, active, backups, hopen, hgroups, hnames⟩ := h.files
  have hfree : ∀ b, t.node? (f.backupPlace b) = none →
      isNew origin (f.backupPlace b) = true := by
    intro b hnone
    by_contra hold
    have hsame := h.elsewhere (f.backupPlace b) (backupPlace_ne_place f b)
      (Bool.eq_false_iff.mpr hold)
    rw [hnone] at hsame
    exact hold (by rw [isNew, ← hsame]; rfl)
  obtain ⟨next, made, hopen', hmade, hnew, hsame, hdirectory, hname, hkeep⟩ :=
    hopen.write_of_ok h.keep hfree hbytes hwrite
      (l := ⟨active, backups.map Prod.snd, none⟩) rfl rfl
  obtain ⟨gone, kept, hflatten, hkept, hgone⟩ :=
    Ledger.Holds.put (l := ⟨active, backups.map Prod.snd, none⟩) hgroups f.limit 0 bytes
  rw [hgone rfl, List.nil_append] at hflatten
  have hplace : f'.place = f.place := by
    rw [place, place, hdirectory, hname]
  refine ⟨kept, ⟨hkeep, ?_, next, _, made, hopen', ?_, fun file hfile ↦ ?_⟩, hflatten, hdirectory,
    hname⟩
  · rw [hplace]
    exact h.elsewhere.trans hsame
  · rw [← hmade]
    exact hkept
  · have hbackup : f'.backupPlace = f.backupPlace := by
      funext b
      rw [backupPlace, backupPlace, hdirectory, hname]
    rw [hbackup]
    rcases hnew file hfile with hold | hfile
    · exact hnames file hold
    · exact hfile

/-- Writes none of which fails leave each text whole in one file, in order. -/
theorem Journal.writeAll (h : Journal origin t f groups) {writes : List (String × ByteArray)}
    (hbytes : ∀ w ∈ writes, w.2.size ≠ 0) (hwrites : LogFile.writeAll t f writes = (t', f', [])) :
    ∃ groups', Journal origin t' f' groups' ∧
      groups'.flatten = groups.flatten ++ writes.map Prod.snd ∧
      f'.directory = f.directory ∧ f'.name = f.name := by
  induction writes generalizing t f groups with
  | nil =>
    simp only [LogFile.writeAll, Prod.mk.injEq, and_true] at hwrites
    obtain ⟨rfl, rfl⟩ := hwrites
    exact ⟨groups, h, by simp, rfl, rfl⟩
  | cons w rest ih =>
    obtain ⟨now, bytes⟩ := w
    rw [List.forall_mem_cons] at hbytes
    rcases hfirst : LogFile.write t f now bytes with ⟨left, g, failed⟩
    rcases hrest : LogFile.writeAll left g rest with ⟨last, g', failures⟩
    simp only [LogFile.writeAll, hfirst, hrest, Prod.mk.injEq, List.append_eq_nil_iff,
      Option.toList_eq_nil_iff] at hwrites
    obtain ⟨rfl, rfl, rfl, rfl⟩ := hwrites
    obtain ⟨groups₁, hjournal, hflatten, hdirectory, hname⟩ := h.write hbytes.1 hfirst
    obtain ⟨groups₂, hjournal', hflatten', hdirectory', hname'⟩ := ih hjournal hbytes.2 hrest
    refine ⟨groups₂, hjournal', ?_, hdirectory'.trans hdirectory, hname'.trans hname⟩
    rw [hflatten', hflatten, List.map_cons, List.append_assoc, List.singleton_append]

/-! ### The start -/

theorem place_start {path : FilePath} {place : Place} (ht : t.WellFormed)
    (hprepare : prepare t path = (origin, .ok (place, id))) (limit keep : Nat) :
    (start origin path place id limit keep).place = place := by
  obtain ⟨directory, name, rfl, -⟩ := prepare_eq_ok ht hprepare
  simp [start, LogFile.place]

/-- The path of a log file that has been opened leads to it. -/
theorem reaches_start {path : FilePath} {place : Place} (ht : t.WellFormed)
    (hprepare : prepare t path = (origin, .ok (place, id))) (limit keep : Nat) :
    Reaches origin (start origin path place id limit keep).path
      (start origin path place id limit keep).directory
      (start origin path place id limit keep).name := by
  obtain ⟨directory, name, rfl, hreaches, -⟩ := prepare_eq_ok ht hprepare
  simpa [start] using hreaches

/-- A log file that has been opened and holds nothing. -/
theorem journal_start {path : FilePath} {place : Place} (ht : t.WellFormed)
    (hprepare : prepare t path = (origin, .ok (place, id)))
    (hempty : (t.content? place).getD ByteArray.empty = ByteArray.empty) (limit : Nat) :
    Journal origin origin (start origin path place id limit 0) [[]] := by
  have hplace := place_start ht hprepare limit 0
  have hreaches := reaches_start ht hprepare limit 0
  obtain ⟨directory, name, rfl, -, hwell, hnode, -⟩ := prepare_eq_ok ht hprepare
  rw [hempty] at hnode
  have hstands : Stands origin (isNew origin) (directory ++ [name]) id ByteArray.empty [] :=
    Stands.of_node? hwell (by simp) hnode fun q hq ↦ Option.isNone_iff_eq_none.mp hq
  refine ⟨rfl, SameElsewhere.refl _ _ _, id, ByteArray.empty, [], ⟨?_, hreaches, rfl, ?_⟩, rfl,
    by simp⟩
  · rw [hplace]
    exact hstands
  · simp [start, hstands.content?_eq]

end Logbook.LogFile
