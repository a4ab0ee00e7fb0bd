import Logbook.Proofs.Rotation.Writing

/-!
# Neighbours of a log file

A log file is opened, written to and closed any number of times, whatever stands in the tree at
first, with any limits, at any times and whether or not it succeeds. Everything that stands there at
first and has neither the name of the log file nor that of a backup goes on standing
(`spares_neighbours`), and no file is overwritten (`Leaves`): a rotation moves the log file to a
place that is free, and any other file keeps its bytes or is a backup that is removed.

Names of backups are read leniently and written in one form only, so what is removed need not be
what was found. That does no harm because the place of a backup that a scan knows has the name of a
backup again (`isBackupPlace_of_mem_scan`). Of a backup that was made later no more is needed than
that its place was free (`Written.spares`).
-/

set_option autoImplicit false
set_option relaxedAutoImplicit false

namespace Logbook.LogFile

open FileTree

variable {t t' : FileTree} {f f' : LogFile} {path : FilePath} {directory : Place} {name : String}
  {id limit keep : Nat} {active bytes : ByteArray} {now : String} {b : BackupName} {q : Place}
  {node : Node} {failed : Option WriteError} {u : Usage}

/-! ### Backups that a scan knows -/

theorem mem_of_mem_foldl {names known : List BackupName}
    (h : b ∈ names.foldl (fun known b ↦ insertBackup b known) known) : b ∈ known ∨ b ∈ names := by
  induction names generalizing known with
  | nil => exact Or.inl h
  | cons c rest ih =>
    rcases ih h with hknown | hrest
    · rcases mem_insertBackup hknown with rfl | hknown
      · exact Or.inr List.mem_cons_self
      · exact Or.inl hknown
    · exact Or.inr (List.mem_cons_of_mem c hrest)

/-- The place of a backup that a scan knows has the name of a backup. -/
theorem isBackupPlace_of_mem_scan (h : b ∈ scan t directory name) :
    isBackupPlace directory name (directory ++ [b.fileName name]) = true := by
  obtain ⟨found, -, hfound⟩ :=
    List.mem_filterMap.mp ((mem_of_mem_foldl h).resolve_left List.not_mem_nil)
  rw [isBackupPlace, backupAt?_concat, BackupName.ofFileName?_fileName_of_ofFileName? hfound]
  rfl

/-! ### Spared places -/

/-- A place is neither that of a log file nor that of a backup it knows. -/
structure Spares (f : LogFile) (q : Place) : Prop where
  active : q ≠ f.place
  backups : ∀ b ∈ f.backups, q ≠ f.backupPlace b

theorem spares_start (hplace : q ≠ directory ++ [name])
    (hq : isBackupPlace directory name q = false) :
    Spares (start t path (directory ++ [name]) id limit keep) q := by
  have hdirectory : (start t path (directory ++ [name]) id limit keep).directory = directory := by
    simp [start]
  have hname : (start t path (directory ++ [name]) id limit keep).name = name := by
    simp [start]
  have hbackups : (start t path (directory ++ [name]) id limit keep).backups =
      scan t directory name := by
    simp [start]
  refine ⟨by rwa [LogFile.place, hdirectory, hname], fun b hb ↦ ?_⟩
  rw [backupPlace, hdirectory, hname]
  rintro rfl
  rw [isBackupPlace_of_mem_scan (hbackups ▸ hb)] at hq
  exact absurd hq (by simp)

/-- A write leaves what stands at a spared place, and goes on sparing it. -/
theorem Written.spares (h : Written t f id active now bytes t' f' failed) (hspares : Spares f q)
    (hnode : t.node? q = some node) : t'.node? q = some node ∧ Spares f' q := by
  obtain ⟨-, hdirectory, hname, -⟩ := h.same
  have hsame := h.elsewhere hspares.active hspares.backups fun _ ↦ by simp [hnode]
  refine ⟨hsame.trans hnode, ?_, fun b hb ↦ ?_⟩
  · rw [LogFile.place, hdirectory, hname]
    exact hspares.active
  · rw [backupPlace, hdirectory, hname]
    rcases h.backup_mem hb with hb | ⟨-, hfree⟩
    · exact hspares.backups b hb
    · rintro rfl
      rw [backupPlace, hnode] at hfree
      exact absurd hfree (by simp)

/-! ### Nothing is overwritten -/

/-- What a write leaves of the files: the log file has grown, or it has been moved to a free place
and is gone from there only if backups are removed. Other files stay as they are, or are backups
that are removed. Nothing but the log file comes to a free place. -/
structure Leaves (t t' : FileTree) (f : LogFile) (now : String) : Prop where
  active : ∀ content, t.content? f.place = some content →
    (∃ more, t'.content? f.place = some (content ++ more)) ∨
      t.node? (f.backupPlace (nextBackup f now)) = none ∧
        (t'.content? (f.backupPlace (nextBackup f now)) = some content ∨
          t'.node? (f.backupPlace (nextBackup f now)) = none ∧ f.keep ≠ 0)
  others : ∀ q content, q ≠ f.place → t.content? q = some content →
    t'.content? q = some content ∨ t'.node? q = none ∧ ∃ b ∈ f.backups, q = f.backupPlace b
  arrivals : ∀ q, q ≠ f.place → t.node? q = none →
    t'.node? q = none ∨ t'.content? q = t.content? f.place

theorem Written.leaves (h : Written t f id active now bytes t' f' failed)
    (hsteady : Steady t f id active) : Leaves t t' f now := by
  have hactive : t.content? f.place = some active := by rw [content?, hsteady.node]
  refine ⟨fun content hcontent ↦ ?_, fun q content hq hcontent ↦ ?_, fun q hq hfree ↦ ?_⟩
  · obtain rfl : active = content := Option.some.inj (hactive.symm.trans hcontent)
    cases h with
    | idle | refused => exact Or.inl ⟨ByteArray.empty, by rw [hactive, ByteArray.append_empty]⟩
    | appended hbytes hlimit hwell hnode => exact Or.inl ⟨bytes, by rw [content?, hnode]⟩
    | @rotated fresh _ g _ _ hbytes hlimit hobstacle hmoved hg hfailed hcontent hwell hnode
      helsewhere =>
      obtain ⟨n, hbackup⟩ := hmoved.backup
      have hremoved := node?_removeAll g g.surplus fresh (f.backupPlace (nextBackup f now))
      rw [← helsewhere _ (backupPlace_ne_place f _)] at hremoved
      refine Or.inr ⟨hmoved.free, ?_⟩
      rcases hremoved with hkept | ⟨hnone, ⟨b, hb, -⟩, -⟩
      · exact Or.inl (by rw [content?, hkept, hbackup])
      · refine Or.inr ⟨hnone, fun hkeep ↦ ?_⟩
        subst hg
        rw [surplus, if_pos (show (f.renewed t.next now).keep = 0 from hkeep)] at hb
        exact absurd hb List.not_mem_nil
  · rcases h.at_place hq with hsame | ⟨hnone, -, hbackup⟩ | ⟨hfree, -⟩
    · exact Or.inl (by rw [content?, hsame, ← content?, hcontent])
    · exact Or.inr ⟨hnone, hbackup⟩
    · rw [content?, hfree] at hcontent
      exact absurd hcontent (by simp)
  · rcases h.at_place hq with hsame | ⟨hnone, -⟩ | ⟨-, hmoved, -⟩
    · exact Or.inl (hsame.trans hfree)
    · exact Or.inl hnone
    · exact Or.inr (hmoved.trans hactive.symm)

/-! ### One action -/

/-- A path leads to one file. -/
theorem Reaches.unique {directory' : Place} {name' : String} (h : Reaches t path directory name)
    (h' : Reaches t path directory' name') : directory' = directory ∧ name' = name := by
  have habove := h.above
  have hlast := h.last
  rw [h'.above] at habove
  rw [h'.last] at hlast
  exact ⟨Except.ok.inj habove, Option.some.inj hlast⟩

theorem openAt_fst (t : FileTree) (path : FilePath) (limit keep : Nat) :
    (openAt t path limit keep).1 = (prepare t path).1 := by
  unfold openAt
  split
  · next hprepare => rw [hprepare]
  · next hprepare =>
    rw [hprepare]
    split_ifs <;> rfl

/-- The tree holds together, and a log file that is open is the one the path leads to. -/
structure Usage.Sound (path : FilePath) (u : Usage) : Prop where
  wellFormed : u.files.WellFormed
  path : ∀ f ∈ u.file, f.path = path
  steady : ∀ f ∈ u.file, ∃ id active, Steady u.files f id active

theorem Usage.Sound.reaches (h : u.Sound path) (hf : f ∈ u.file) :
    Reaches u.files path f.directory f.name := by
  obtain ⟨id, active, hsteady⟩ := h.steady f hf
  exact h.path f hf ▸ hsteady.reaches

theorem Usage.step_openWith (u : Usage) (path : FilePath) (limit keep : Nat) :
    (u.step path (.openWith limit keep)).files = (prepare u.files path).1 ∧
      ∀ f ∈ (u.step path (.openWith limit keep)).file,
        openAt u.files path limit keep = ((prepare u.files path).1, .ok f) := by
  rw [← openAt_fst u.files path limit keep, Usage.step]
  rcases openAt u.files path limit keep with ⟨left, _ | g⟩
  · exact ⟨rfl, fun f hf ↦ absurd hf (Option.not_mem_none f)⟩
  · exact ⟨rfl, fun f hf ↦ by rw [Option.some.inj hf]⟩

theorem Usage.step_write (path : FilePath) (hf : u.file = some f) {now : Timestamp}
    (hwrite : LogFile.write u.files f now.text bytes = (t', f', failed)) :
    (u.step path (.write now bytes)).files = t' ∧
      (u.step path (.write now bytes)).file = some f' := by
  rw [Usage.step, hf]
  dsimp only
  rw [hwrite]
  cases failed <;> exact ⟨rfl, rfl⟩

/-- An action keeps the usage sound, and no directory is lost. -/
theorem Usage.Sound.step (h : u.Sound path) (a : Action) :
    (u.step path a).Sound path ∧
      ∀ q, u.files.isDirectory q = true → (u.step path a).files.isDirectory q = true := by
  cases a with
  | close =>
    exact ⟨⟨h.wellFormed, fun f hf ↦ absurd hf (Option.not_mem_none f),
      fun f hf ↦ absurd hf (Option.not_mem_none f)⟩, fun _ hq ↦ hq⟩
  | openWith limit keep =>
    obtain ⟨hfiles, hfile⟩ := u.step_openWith path limit keep
    obtain ⟨hwell, hextends⟩ := prepare_keeps h.wellFormed path
    refine ⟨⟨hfiles ▸ hwell, fun f hf ↦ ?_, fun f hf ↦ ?_⟩, fun q hq ↦ ?_⟩
    · obtain ⟨directory, name, id, -, rfl, -⟩ := openAt_eq_ok h.wellFormed (hfile f hf)
      rfl
    · obtain ⟨directory, name, id, hprepare, rfl, -⟩ := openAt_eq_ok h.wellFormed (hfile f hf)
      rw [hfiles]
      exact ⟨id, _, steady_start h.wellFormed hprepare limit keep⟩
    · rw [hfiles]
      exact hextends.isDirectory hq
  | write now bytes =>
    cases hf : u.file with
    | none =>
      have hstep : u.step path (.write now bytes) = u := by rw [Usage.step, hf]
      rw [hstep]
      exact ⟨h, fun _ hq ↦ hq⟩
    | some f =>
      rcases hwrite : LogFile.write u.files f now.text bytes with ⟨left, g, failed⟩
      obtain ⟨hfiles, hfile⟩ := Usage.step_write path hf hwrite
      obtain ⟨id, active, hsteady⟩ := h.steady f hf
      have hwritten := hsteady.written hwrite
      obtain ⟨id', active', hsteady'⟩ := hsteady.write hwritten
      refine ⟨⟨hfiles ▸ hsteady'.wellFormed, fun f' hf' ↦ ?_, fun f' hf' ↦ ?_⟩, fun q hq ↦ ?_⟩
      · obtain rfl : g = f' := Option.some.inj (hfile.symm.trans hf')
        exact hwritten.same.1.trans (h.path f hf)
      · obtain rfl : g = f' := Option.some.inj (hfile.symm.trans hf')
        rw [hfiles]
        exact ⟨id', active', hsteady'⟩
      · rw [hfiles]
        exact hwritten.keepsDirectories hsteady.node hq

/-- An action leaves what stands at a place that an open log file spares, if a log file it opens
spares the place by its names. -/
theorem Usage.Sound.spares (h : u.Sound path) (hnode : u.files.node? q = some node)
    (hspares : ∀ f ∈ u.file, Spares f q) (a : Action)
    (hq : ∀ f ∈ (u.step path a).file, q ≠ f.place ∧ isBackupPlace f.directory f.name q = false) :
    (u.step path a).files.node? q = some node ∧ ∀ f ∈ (u.step path a).file, Spares f q := by
  cases a with
  | close => exact ⟨hnode, fun f hf ↦ absurd hf (Option.not_mem_none f)⟩
  | openWith limit keep =>
    obtain ⟨hfiles, hfile⟩ := u.step_openWith path limit keep
    refine ⟨?_, fun f hf ↦ ?_⟩
    · rw [hfiles]
      exact (prepare_keeps h.wellFormed path).2 q node hnode
    · obtain ⟨hplace, hbackup⟩ := hq f hf
      obtain ⟨directory, name, id, -, rfl, -⟩ := openAt_eq_ok h.wellFormed (hfile f hf)
      exact spares_start (by simpa [start, LogFile.place] using hplace)
        (by simpa [start] using hbackup)
  | write now bytes =>
    cases hf : u.file with
    | none =>
      have hstep : u.step path (.write now bytes) = u := by rw [Usage.step, hf]
      rw [hstep]
      exact ⟨hnode, hspares⟩
    | some f =>
      rcases hwrite : LogFile.write u.files f now.text bytes with ⟨left, g, failed⟩
      obtain ⟨hfiles, hfile⟩ := Usage.step_write path hf hwrite
      obtain ⟨id, active, hsteady⟩ := h.steady f hf
      obtain ⟨hnode', hspares'⟩ := (hsteady.written hwrite).spares (hspares f hf) hnode
      refine ⟨hfiles ▸ hnode', fun f' hf' ↦ ?_⟩
      obtain rfl : g = f' := Option.some.inj (hfile.symm.trans hf')
      exact hspares'

/-! ### Every run -/

theorem sound_of_run (ht : t.WellFormed) (path : FilePath) (actions : List Action) :
    (Usage.run path t actions).Sound path := by
  induction actions using List.reverseRecOn with
  | nil =>
    exact ⟨ht, fun f hf ↦ absurd hf (Option.not_mem_none f),
      fun f hf ↦ absurd hf (Option.not_mem_none f)⟩
  | append_singleton done a ih =>
    rw [Usage.run_concat]
    exact (ih.step a).1

theorem isDirectory_of_run (ht : t.WellFormed) {done actions : List Action}
    (hdone : done <+: actions) (hq : (Usage.run path t done).files.isDirectory q = true) :
    (Usage.run path t actions).files.isDirectory q = true := by
  obtain ⟨rest, rfl⟩ := hdone
  induction rest using List.reverseRecOn with
  | nil => rwa [List.append_nil]
  | append_singleton rest a ih =>
    rw [← List.append_assoc, Usage.run_concat]
    exact ((sound_of_run ht path (done ++ rest)).step a).2 q ih

/-- However often the path is opened, it is the same file. -/
theorem place_of_run (ht : t.WellFormed) {done actions : List Action} (hdone : done <+: actions)
    (hf : f ∈ (Usage.run path t done).file) (hf' : f' ∈ (Usage.run path t actions).file) :
    f'.directory = f.directory ∧ f'.name = f.name := by
  have hreaches := ((sound_of_run ht path done).reaches hf).of_directories fun _ hq ↦
    isDirectory_of_run ht hdone hq
  exact hreaches.unique ((sound_of_run ht path actions).reaches hf')

theorem spares_of_run (ht : t.WellFormed) (hnode : t.node? q = some node) {actions : List Action}
    (hq : ∀ done, done <+: actions → ∀ f ∈ (Usage.run path t done).file,
      q ≠ f.place ∧ isBackupPlace f.directory f.name q = false) :
    (Usage.run path t actions).files.node? q = some node ∧
      ∀ f ∈ (Usage.run path t actions).file, Spares f q := by
  induction actions using List.reverseRecOn with
  | nil => exact ⟨hnode, fun f hf ↦ absurd hf (Option.not_mem_none f)⟩
  | append_singleton done a ih =>
    obtain ⟨hnode', hspares⟩ :=
      ih fun before hbefore ↦ hq before (hbefore.trans (List.prefix_append _ _))
    have hlast := hq (done ++ [a]) (List.prefix_refl _)
    rw [Usage.run_concat] at hlast ⊢
    exact (sound_of_run ht path done).spares hnode' hspares a hlast

/-- In a run of openings, writes and closings on the file of a path, in any tree, the open log file
is always the same file, under the last name of the path. Whatever stood in the tree at first
goes on standing, unless it has that place or the name of a backup of it. An opening takes nothing
away, and a write overwrites no file. -/
theorem spares_neighbours (ht : t.WellFormed) (path : FilePath) (actions : List Action) :
    (∀ done, done <+: actions → ∀ f ∈ (Usage.run path t done).file,
      path.segments.getLast? = some f.name ∧
        ∀ before, before <+: done → ∀ g ∈ (Usage.run path t before).file, f.place = g.place) ∧
      (∀ q node, t.node? q = some node →
        (∀ done, done <+: actions → ∀ f ∈ (Usage.run path t done).file,
          q ≠ f.place ∧ isBackupPlace f.directory f.name q = false) →
        (Usage.run path t actions).files.node? q = some node) ∧
      (∀ done limit keep, done ++ [.openWith limit keep] <+: actions →
        Extends (Usage.run path t done).files
          (Usage.run path t (done ++ [.openWith limit keep])).files) ∧
      ∀ done now bytes, done ++ [.write now bytes] <+: actions →
        ∀ f ∈ (Usage.run path t done).file,
          Leaves (Usage.run path t done).files
            (Usage.run path t (done ++ [.write now bytes])).files f
            now.text := by
  refine ⟨fun done hdone f hf ↦ ⟨?_, fun before hbefore g hg ↦ ?_⟩, fun q node hnode hq ↦ ?_,
    fun done limit keep _ ↦ ?_, fun done now bytes _ f hf ↦ ?_⟩
  · exact ((sound_of_run ht path done).reaches hf).last
  · obtain ⟨hdirectory, hname⟩ := place_of_run ht hbefore hg hf
    rw [LogFile.place, LogFile.place, hdirectory, hname]
  · exact (spares_of_run ht hnode hq).1
  · have hsound := sound_of_run ht path done
    rw [Usage.run_concat, (Usage.step_openWith _ path limit keep).1]
    exact (prepare_keeps hsound.wellFormed path).2
  · rcases hwrite : LogFile.write (Usage.run path t done).files f now.text bytes with
      ⟨left, g, failed⟩
    obtain ⟨id, active, hsteady⟩ := (sound_of_run ht path done).steady f hf
    rw [Usage.run_concat, (Usage.step_write path hf hwrite).1]
    exact (hsteady.written hwrite).leaves hsteady

/-- A full log file, a neighbour whose name begins like that of a backup, and a backup whose number
is filled with a zero. -/
def neighbourhood : FileTree :=
  ⟨[(["app.log"], .file 0 "abc".toUTF8), (["app.log.txt"], .file 1 "notes".toUTF8),
    (["app.log.20240101T000000.05"], .file 2 "old".toUTF8)], 3⟩

/-- Removing the one old backup fails, as it would have another name, and with that the write that
rotates. The neighbour stays. -/
theorem spares_neighbours_lenient :
    let run := Usage.run ⟨"app.log"⟩ neighbourhood
      [.openWith 2 1, .write ⟨2024, 2, 29, 23, 59, 59⟩ "de".toUTF8]
    run.files.node? ["app.log.txt"] = some (.file 1 "notes".toUTF8) ∧ run.failures.length = 1 ∧
      run.files.content? ["app.log.20240101T000000.05"] = some "old".toUTF8 ∧
      run.files.content? ["app.log.20240229T235959"] = some "abc".toUTF8 ∧
      run.files.content? ["app.log"] = some "".toUTF8 := by
  intro run
  have ht : neighbourhood.WellFormed := ⟨by decide, by decide, by decide, by decide⟩
  have hq : ∀ done ∈ List.inits [.openWith 2 1, .write ⟨2024, 2, 29, 23, 59, 59⟩ "de".toUTF8],
      ∀ f ∈ (Usage.run ⟨"app.log"⟩ neighbourhood done).file,
        ["app.log.txt"] ≠ f.place ∧ isBackupPlace f.directory f.name ["app.log.txt"] = false := by
    decide +kernel
  refine ⟨(spares_neighbours ht _ _).2.1 _ _ rfl
      fun done hdone ↦ hq done ((List.mem_inits _ _).mpr hdone),
    ?_, ?_, ?_, ?_⟩ <;> decide +kernel

end Logbook.LogFile
