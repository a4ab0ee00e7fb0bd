import Logbook.Proofs.Rotation.Journal

/-!
# The end of a log file

Whatever a log file held when it was opened, however many backups it keeps and whatever else stands
in its directory: a write that does not fail leaves its text at the end of the active file, behind
what was there or, after a rotation, as all there is (`IsOpen.exists_ends`). After many writes none
of which fails, the active file ends with the latest texts in order (`latest_of_writeAll`), where
the texts before them have gone to backups.

Nothing is known of the backups here. So the files of interest are none at all (`nowhere`), but for
the one rotation that is looked at, where it is the backup it makes.
-/

set_option autoImplicit false
set_option relaxedAutoImplicit false

namespace Logbook.LogFile

open FileTree

variable {t t' : FileTree} {f f' : LogFile} {place : Place} {id : Nat} {active bytes : ByteArray}
  {now : String}

/-- No place at all. -/
def nowhere (_ : Place) : Bool :=
  false

theorem place_ne_nil (f : LogFile) : f.place ≠ [] := by
  simp [LogFile.place]

/-! ### Removing backups -/

/-- Removing backups takes files away as a whole, and from the places of these backups only. -/
theorem node?_removeAll (f : LogFile) (bs : List BackupName) (t : FileTree) (q : Place) :
    (removeAll t f bs).1.node? q = t.node? q ∨
      (removeAll t f bs).1.node? q = none ∧ (∃ b ∈ bs, q = f.backupPlace b) ∧
        (t.content? q).isSome = true := by
  induction bs generalizing t with
  | nil => exact Or.inl rfl
  | cons b rest ih =>
    rw [removeAll]
    cases hremove : t.removeFile (f.backupPath b) (f.backupPlace b) with
    | error e =>
      refine (ih t).imp_right ?_
      rintro ⟨hnone, ⟨c, hc, hq⟩, hfile⟩
      exact ⟨hnone, ⟨c, List.mem_cons_of_mem b hc, hq⟩, hfile⟩
    | ok removed =>
      obtain ⟨hfile, rfl⟩ := removeFile_eq_ok hremove
      by_cases hq : q = f.backupPlace b
      · have hgone : (t.erase (f.backupPlace b)).node? q = none := by
          rw [hq]
          exact node?_erase_self (by simp [backupPlace])
        refine Or.inr ⟨?_, ⟨b, List.mem_cons_self, hq⟩, hq ▸ hfile⟩
        rcases ih (t.erase (f.backupPlace b)) with hsame | ⟨hnone, -⟩
        · rw [hsame, hgone]
        · exact hnone
      · have hsame : (t.erase (f.backupPlace b)).node? q = t.node? q := node?_erase_of_ne hq
        have hrest := ih (t.erase (f.backupPlace b))
        rw [hsame, content?, hsame, ← content?] at hrest
        refine hrest.imp_right ?_
        rintro ⟨hnone, ⟨c, hc, hq⟩, hfile⟩
        exact ⟨hnone, ⟨c, List.mem_cons_of_mem b hc, hq⟩, hfile⟩

/-- Removing backups, whether or not that succeeds, leaves the active file and all directories. -/
theorem removeAll_keeps (f : LogFile) (bs : List BackupName) (ht : t.WellFormed) :
    (removeAll t f bs).1.WellFormed ∧ (removeAll t f bs).1.node? f.place = t.node? f.place ∧
      ∀ q, t.isDirectory q = true → (removeAll t f bs).1.isDirectory q = true := by
  refine ⟨?_, ?_, fun q hq ↦ ?_⟩
  · induction bs generalizing t with
    | nil => exact ht
    | cons b rest ih =>
      rw [removeAll]
      cases hremove : t.removeFile (f.backupPath b) (f.backupPlace b) with
      | error e => exact ih ht
      | ok removed =>
        obtain ⟨-, rfl⟩ := removeFile_eq_ok hremove
        exact ih (ht.erase (f.backupPlace b))
  · refine (node?_removeAll f bs t f.place).resolve_right ?_
    rintro ⟨-, ⟨b, -, hplace⟩, -⟩
    exact backupPlace_ne_place f b hplace.symm
  · rcases node?_removeAll f bs t q with hsame | ⟨-, -, hfile⟩
    · rwa [isDirectory, hsame]
    · rw [content?_of_isDirectory hq] at hfile
      exact absurd hfile Bool.false_ne_true

theorem prune_keeps (f : LogFile) (ht : t.WellFormed) :
    (prune t f).1.WellFormed ∧ (prune t f).1.node? f.place = t.node? f.place ∧
      (∀ q, t.isDirectory q = true → (prune t f).1.isDirectory q = true) ∧
      ∃ backups, (prune t f).2.1 = { f with backups } := by
  rw [prune]
  split_ifs
  · exact ⟨ht, rfl, fun _ hq ↦ hq, f.backups, rfl⟩
  · obtain ⟨hwell, hnode, hkeep⟩ := removeAll_keeps f (f.backups.drop f.keep).reverse ht
    exact ⟨hwell, hnode, hkeep, _, rfl⟩

/-! ### One write -/

/-- What a text is written behind: what is in the active file, unless it is beyond the limit. -/
def base (f : LogFile) (active : ByteArray) : ByteArray :=
  if f.limit < active.size then ByteArray.empty else active

/-- A write that does not fail leaves its text at the end. -/
theorem IsOpen.exists_ends (h : IsOpen t f nowhere id active []) (hbytes : bytes.size ≠ 0)
    (hwrite : write t f now bytes = (t', f', none)) :
    ∃ next, IsOpen t' f' nowhere next (f.base active ++ bytes) [] ∧ f'.place = f.place := by
  by_cases hlimit : f.limit < active.size
  · rcases hrotate : rotate t f now with ⟨left, g, failed⟩
    cases failed with
    | some e =>
      rw [write, if_neg hbytes, if_pos (by rwa [h.count]), hrotate] at hwrite
      exact absurd (congrArg (fun r ↦ r.2.2) hwrite) (by simp)
    | none =>
      obtain ⟨hfits, hsame, moved, hmoved⟩ := h.guards_of_rotate hrotate
      have hfree : t.node? (f.backupPlace (nextBackup f now)) = none := by
        unfold rename at hmoved
        split_ifs at hmoved with hlong htaken
        rw [Bool.not_eq_true, Option.isSome_eq_false_iff, Option.isNone_iff_eq_none] at htaken
        exact htaken
      -- The backup this rotation makes is the one file of interest.
      have hone :
          IsOpen t f (fun q ↦ decide (q = f.backupPlace (nextBackup f now))) id active [] := by
        refine ⟨Stands.of_node? h.stands.wellFormed f.place_ne_nil h.stands.node?_eq ?_, h.reaches,
          h.handle, h.count⟩
        intro q hq
        rwa [of_decide_eq_true hq]
      obtain ⟨fresh, g', hg', hfresh, -, hrotate'⟩ :=
        hone.rotate_eq hfits hsame (fun _ ↦ decide_eq_true rfl) hmoved
      obtain ⟨hwell, hnode, hkeep, backups, hpruned⟩ := prune_keeps g' hfresh.stands.wellFormed
      rw [hrotate, Prod.mk.injEq, Prod.mk.injEq] at hrotate'
      obtain ⟨rfl, rfl, -⟩ := hrotate'
      rw [hpruned] at hrotate
      rw [hfresh.stands.node?_eq] at hnode
      have hopen : IsOpen (prune fresh g').1 { g' with backups } nowhere t.next ByteArray.empty [] :=
        ⟨Stands.of_node? hwell g'.place_ne_nil hnode fun _ hq ↦ absurd hq Bool.false_ne_true,
          hfresh.reaches.of_directories hkeep, hfresh.handle, hfresh.count⟩
      rw [h.write_of_lt hbytes hlimit hrotate hopen.handle] at hwrite
      simp only [Prod.mk.injEq, and_true] at hwrite
      obtain ⟨rfl, rfl⟩ := hwrite
      refine ⟨t.next, ?_, by rw [hg']; rfl⟩
      rw [base, if_pos hlimit]
      exact hopen.append bytes
  · rw [h.write_of_le now hbytes (Nat.not_lt.mp hlimit)] at hwrite
    simp only [Prod.mk.injEq, and_true] at hwrite
    obtain ⟨rfl, rfl⟩ := hwrite
    refine ⟨id, ?_, rfl⟩
    rw [base, if_neg hlimit]
    exact h.append bytes

/-! ### Many writes -/

/-- The bytes of a file are the latest of some texts, at least the last of them, behind what stood
in the file at first or, where older texts have gone from it, behind nothing. -/
def EndsWith (initial content : ByteArray) (texts : List ByteArray) : Prop :=
  ∃ gone latest base, texts = gone ++ latest ∧ (texts ≠ [] → latest ≠ []) ∧
    content = base ++ joined latest ∧ (base = initial ∧ gone = [] ∨ base = ByteArray.empty)

theorem endsWith_nil (initial : ByteArray) : EndsWith initial initial [] :=
  ⟨[], [], initial, rfl, fun h ↦ h, ByteArray.append_empty.symm, Or.inl ⟨rfl, rfl⟩⟩

theorem EndsWith.concat {initial content : ByteArray} {texts : List ByteArray}
    (h : EndsWith initial content texts) (f : LogFile) (bytes : ByteArray) :
    EndsWith initial (f.base content ++ bytes) (texts ++ [bytes]) := by
  rw [base]
  split_ifs
  · refine ⟨texts, [bytes], ByteArray.empty, rfl, by simp, ?_, Or.inr rfl⟩
    rw [← List.nil_append [bytes], joined_concat]
    simp [joined]
  · obtain ⟨gone, latest, base, rfl, -, rfl, hbase⟩ := h
    refine ⟨gone, latest ++ [bytes], base, by rw [List.append_assoc], by simp, ?_, hbase⟩
    rw [joined_concat, ByteArray.append_assoc]

theorem IsOpen.endsWith_writeAll {initial : ByteArray} {texts : List ByteArray}
    (h : IsOpen t f nowhere id active []) (hends : EndsWith initial active texts)
    {writes : List (String × ByteArray)} (hbytes : ∀ w ∈ writes, w.2.size ≠ 0)
    (hwrites : writeAll t f writes = (t', f', [])) :
    ∃ next content, IsOpen t' f' nowhere next content [] ∧ f'.place = f.place ∧
      EndsWith initial content (texts ++ writes.map Prod.snd) := by
  induction writes generalizing t f id active texts with
  | nil =>
    simp only [writeAll, Prod.mk.injEq, and_true] at hwrites
    obtain ⟨rfl, rfl⟩ := hwrites
    rw [List.map_nil, List.append_nil]
    exact ⟨id, active, h, rfl, hends⟩
  | cons w rest ih =>
    obtain ⟨now, bytes⟩ := w
    rw [List.forall_mem_cons] at hbytes
    rcases hfirst : write t f now bytes with ⟨left, g, failed⟩
    rcases hrest : writeAll left g rest with ⟨last, g', failures⟩
    simp only [writeAll, hfirst, hrest, Prod.mk.injEq, List.append_eq_nil_iff,
      Option.toList_eq_nil_iff] at hwrites
    obtain ⟨rfl, rfl, rfl, rfl⟩ := hwrites
    obtain ⟨next, hopen, hplace⟩ := h.exists_ends hbytes.1 hfirst
    obtain ⟨last, content, hopen', hplace', hends'⟩ :=
      ih hopen (hends.concat f bytes) hbytes.2 hrest
    rw [List.append_assoc] at hends'
    exact ⟨last, content, hopen', hplace'.trans hplace, hends'⟩

/-- A log file that was just opened stands open, with what its file held before. -/
theorem isOpen_start {path : FilePath} {opened : FileTree} (ht : t.WellFormed)
    (hprepare : prepare t path = (opened, .ok (place, id))) (limit keep : Nat) :
    IsOpen opened (start opened path place id limit keep) nowhere id
      ((t.content? place).getD ByteArray.empty) [] := by
  have hplace := place_start ht hprepare limit keep
  have hreaches := reaches_start ht hprepare limit keep
  obtain ⟨-, -, -, -, hwell, hnode, -⟩ := prepare_eq_ok ht hprepare
  set f := start opened path place id limit keep with hf
  rw [← hplace] at hnode ⊢
  have hstands : Stands opened nowhere f.place id ((t.content? f.place).getD ByteArray.empty) [] :=
    Stands.of_node? hwell f.place_ne_nil hnode fun _ hq ↦ absurd hq Bool.false_ne_true
  have hcount : f.count = ((opened.content? place).getD ByteArray.empty).size := rfl
  refine ⟨hstands, hreaches, rfl, ?_⟩
  rw [hcount, ← hplace, hstands.content?_eq]
  rfl

/-- After writes none of which fails, a log file stands open and ends with the texts that were
written. -/
theorem latest_of_writeAll {path : FilePath} {opened : FileTree} (ht : t.WellFormed)
    (hprepare : prepare t path = (opened, .ok (place, id))) {limit keep : Nat}
    (hf : f = start opened path place id limit keep) {writes : List (String × ByteArray)}
    (hbytes : ∀ w ∈ writes, w.2.size ≠ 0) (hwrites : writeAll opened f writes = (t', f', [])) :
    ∃ next content, IsOpen t' f' nowhere next content [] ∧ f'.place = f.place ∧
      EndsWith ((t.content? place).getD ByteArray.empty) content (writes.map Prod.snd) := by
  have hopen := isOpen_start ht hprepare limit keep
  rw [← hf] at hopen
  exact hopen.endsWith_writeAll (endsWith_nil _) hbytes hwrites

end Logbook.LogFile
