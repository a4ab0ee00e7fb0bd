import Logbook.Proofs.Rotation.Neighbours

/-!
# Log files side by side

A log file has places of its own (`Owns`): that of the active file, and all that are named like a
backup of it. Two log files have no place in common as soon as neither stands at a place of the
other (`not_owns_of_owns`), because the timestamp in the name of a backup tells where the name of
its log file ends (`BackupName.eq_of_names`).

A write changes no place that its log file does not own (`Written.outside`), and what it does
depends on what is seen at those it owns (`InOrder.write_alike`), not on the rest of the tree, and
not on the numbers of the files.
-/

set_option autoImplicit false
set_option relaxedAutoImplicit false

namespace Logbook

/-! ### Where the name of a log file ends -/

namespace Timestamp

theorem suffix_of_number? {width n : Nat} {cs rest : List Char}
    (h : number? width cs = some (n, rest)) : rest <:+ cs := by
  unfold number? at h
  simp only at h
  split_ifs at h
  rw [← (Prod.mk.inj (Option.some.inj h)).2]
  exact (List.drop_suffix _ _).trans (List.dropWhile_suffix _)

theorem suffix_of_year? {year : Int} {cs rest : List Char} (h : year? cs = some (year, rest)) :
    rest <:+ cs := by
  have hsigned : ∀ {sign : Int} {cs : List Char}, year?.signedYear? sign cs = some (year, rest) →
      rest <:+ cs := by
    intro sign cs h
    unfold year?.signedYear? at h
    simp only at h
    split_ifs at h
    rw [← (Prod.mk.inj (Option.some.inj h)).2]
    exact List.dropWhile_suffix _
  refine List.IsSuffix.trans ?_ (List.dropWhile_suffix Text.isBlank (l := cs))
  unfold year? at h
  split at h
  · next hcs => exact hcs ▸ (hsigned h).trans (List.suffix_cons _ _)
  · next hcs => exact hcs ▸ (hsigned h).trans (List.suffix_cons _ _)
  · obtain ⟨⟨n, rest'⟩, hn, hrest⟩ := Option.map_eq_some_iff.mp h
    exact (Prod.mk.inj hrest).2 ▸ suffix_of_number? hn

/-- A text that is read as a timestamp has the mark between the date and the time. -/
theorem mark_mem_of_read? {cs : List Char} {t : Timestamp} (h : read? cs = some t) : 'T' ∈ cs := by
  simp only [read?, Option.bind_eq_bind, Option.bind_eq_some_iff] at h
  obtain ⟨⟨year, afterYear⟩, hyear, ⟨month, afterMonth⟩, hmonth, ⟨day, afterDay⟩, hday, h⟩ := h
  split at h
  · next rest hmark =>
    have hsuffix : 'T' :: rest <:+ cs :=
      hmark ▸
        (suffix_of_number? hday).trans ((suffix_of_number? hmonth).trans (suffix_of_year? hyear))
    exact hsuffix.subset List.mem_cons_self
  · exact absurd h (by simp)

end Timestamp

namespace BackupName

variable {base base' name : String} {b : BackupName} {cs : List Char}

/-- A name is that of a backup of a log file: it counts as one, or a backup with a date is called
so, even if its number is too large to be read back. -/
def Names (base name : String) : Prop :=
  (ofFileName? base name).isSome = true ∨ ∃ b : BackupName, b.IsDated ∧ name = b.fileName base

theorem mark_mem_stamp (h : b.IsDated) : 'T' ∈ b.stamp.toList := by
  have hvalid := h.valid
  cases hread : Timestamp.read? b.stamp.toList with
  | none =>
    rw [hread] at hvalid
    exact absurd hvalid (by simp)
  | some t => exact Timestamp.mark_mem_of_read? hread

theorem mark_not_mem_of_digits (h : ∀ c ∈ cs, Decimal.isDigit c = true) : 'T' ∉ cs :=
  fun hmark ↦ absurd (h 'T' hmark) (by decide)

theorem mark_not_mem_of_number? {n : Nat} (h : number? cs = some n) : 'T' ∉ cs := by
  unfold number? at h
  split at h
  · next rest =>
    simp only [Option.ite_none_left_eq_some, Bool.or_eq_true, not_or, Bool.not_eq_true',
      Bool.not_eq_false, List.all_eq_true] at h
    rw [List.mem_cons, not_or]
    exact ⟨by decide, mark_not_mem_of_digits h.1.2⟩
  · simp only [Option.ite_none_left_eq_some, Bool.or_eq_true, not_or, Bool.not_eq_true',
      Bool.not_eq_false, List.all_eq_true] at h
    exact mark_not_mem_of_digits h.1.2

theorem mark_not_mem_numberChars (number : Option Nat) : 'T' ∉ numberChars number := by
  cases number with
  | none => exact List.not_mem_nil
  | some n =>
    rw [numberChars, List.mem_cons, not_or]
    exact ⟨by decide, mark_not_mem_of_digits fun _ hc ↦ Decimal.isDigit_of_mem_toDigits hc⟩

/-- A suffix begins with the timestamp of its backup and has no mark behind it. -/
theorem exists_of_ofSuffix? {packed : Bool} (h : ofSuffix? cs packed = some b) :
    ∃ rest, cs = b.stamp.toList ++ rest ∧ 'T' ∉ rest := by
  have hsplit : cs.takeWhile (· ≠ '.') ++ cs.drop (cs.takeWhile (· ≠ '.')).length = cs :=
    List.prefix_iff_eq_append.mp (List.takeWhile_prefix _)
  unfold ofSuffix? at h
  simp only at h
  split_ifs at h
  split at h
  · next hrest =>
    rw [← Option.some.inj h, String.toList_ofList]
    exact ⟨[], by rw [← hrest, hsplit], List.not_mem_nil⟩
  · next point rest hrest =>
    obtain ⟨n, hn, rfl⟩ := Option.map_eq_some_iff.mp h
    have hdrop : cs.drop (cs.takeWhile (· ≠ '.')).length = cs.dropWhile (· ≠ '.') :=
      List.append_cancel_left (hsplit.trans List.takeWhile_append_dropWhile.symm)
    have hpoint := List.head?_dropWhile_not (fun c ↦ decide (c ≠ '.')) cs
    rw [← hdrop, hrest] at hpoint
    have hpoint' : point = '.' := by simpa using hpoint
    rw [String.toList_ofList]
    refine ⟨point :: rest, by rw [← hrest, hsplit], ?_⟩
    rw [List.mem_cons, not_or, hpoint']
    exact ⟨by decide, mark_not_mem_of_number? hn⟩

/-- A name that counts as that of a backup has the timestamp of the backup behind the name of the
log file, and no mark behind that. -/
theorem exists_of_ofFileName? (h : ofFileName? base name = some b) :
    ∃ rest, name.toList = base.toList ++ '.' :: (b.stamp.toList ++ rest) ∧ 'T' ∉ rest := by
  obtain ⟨front, ending, packed, hname, hending, hstart, hsuffix⟩ :
      ∃ front ending packed, front ++ ending = name.toList ∧ 'T' ∉ ending ∧
        (base ++ ".").toList.isPrefixOf front = true ∧
        ofSuffix? (front.drop (base ++ ".").toList.length) packed = some b := by
    unfold ofFileName? dropEnding? at h
    simp only at h
    split at h
    · next shorter hshorter =>
      split_ifs at h hshorter with hstart hending
      rw [← Option.some.inj hshorter] at h hstart
      exact ⟨_, ".gz".toList, true,
        List.suffix_iff_eq_append.mp (List.isSuffixOf_iff_suffix.mp hending),
        by decide, hstart, h⟩
    · split_ifs at h with hstart
      exact ⟨_, [], false, List.append_nil _, List.not_mem_nil, hstart, h⟩
  have hfront := List.prefix_iff_eq_append.mp (List.isPrefixOf_iff_prefix.mp hstart)
  obtain ⟨rest, hrest, hmark⟩ := exists_of_ofSuffix? hsuffix
  refine ⟨rest ++ ending, ?_, ?_⟩
  · rw [← hname, ← hfront, hrest]
    simp
  · rw [List.mem_append, not_or]
    exact ⟨hmark, hending⟩

/-- Behind the name of the log file stands a timestamp, and behind that there is no mark. -/
theorem exists_of_names (h : Names base name) : ∃ stamp rest : List Char,
    name.toList = base.toList ++ '.' :: (stamp ++ rest) ∧
      '.' ∉ stamp ∧ 'T' ∈ stamp ∧ 'T' ∉ rest := by
  have hpoint : (base ++ ".").toList = base.toList ++ ['.'] := by simp
  have hending : 'T' ∉ ".gz".toList := by decide
  rcases h with h | ⟨b, hdated, rfl⟩
  · obtain ⟨b, hb⟩ := Option.isSome_iff_exists.mp h
    obtain ⟨hdated, -⟩ := isDated_of_ofFileName? hb
    obtain ⟨rest, hname, hrest⟩ := exists_of_ofFileName? hb
    exact ⟨b.stamp.toList, rest, hname, hdated.point, mark_mem_stamp hdated, hrest⟩
  · refine ⟨b.stamp.toList, numberChars b.number ++ if b.packed then ".gz".toList else [], ?_,
      hdated.point, mark_mem_stamp hdated, fun hmark ↦ ?_⟩
    · rw [toList_fileName, hpoint]
      simp
    · rcases List.mem_append.mp hmark with hmark | hmark
      · exact mark_not_mem_numberChars _ hmark
      · split_ifs at hmark
        · exact hending hmark
        · exact absurd hmark List.not_mem_nil

/-- A name that goes on behind a timestamp cannot go on behind another one further on. -/
theorem eq_nil_of_stamps {more stamp stamp' rest rest' : List Char}
    (h : '.' :: (stamp ++ rest) = more ++ '.' :: (stamp' ++ rest')) (hpoint : '.' ∉ stamp)
    (hrest : 'T' ∉ rest) (hmark : 'T' ∈ stamp') : more = [] := by
  cases more with
  | nil => rfl
  | cons c more =>
    have htail : stamp ++ rest = more ++ '.' :: (stamp' ++ rest') := (List.cons.inj h).2
    rcases List.append_eq_append_iff.mp htail with ⟨middle, -, hmiddle⟩ | ⟨middle, hmiddle, hbehind⟩
    · refine absurd ?_ hrest
      rw [hmiddle]
      simp [hmark]
    · cases middle with
      | nil =>
        refine absurd ?_ hrest
        rw [List.nil_append] at hbehind
        rw [← hbehind]
        simp [hmark]
      | cons d middle =>
        refine absurd ?_ hpoint
        rw [hmiddle, (List.cons.inj hbehind).1]
        simp

/-- A name is that of a backup of one log file only. -/
theorem eq_of_names (h : Names base name) (h' : Names base' name) : base = base' := by
  obtain ⟨stamp, rest, hname, hpoint, hmark, hrest⟩ := exists_of_names h
  obtain ⟨stamp', rest', hname', hpoint', hmark', hrest'⟩ := exists_of_names h'
  rw [← String.toList_inj]
  rcases List.append_eq_append_iff.mp (hname.symm.trans hname') with
    ⟨more, hbase, hmore⟩ | ⟨more, hbase, hmore⟩
  · rw [hbase, eq_nil_of_stamps hmore hpoint hrest hmark', List.append_nil]
  · rw [hbase, eq_nil_of_stamps hmore hpoint' hrest' hmark, List.append_nil]

end BackupName

/-! ### What is seen of a tree -/

/-- The bytes of a file. -/
def Node.bytes? : Node → Option ByteArray
  | .directory => none
  | .file _ content => some content

namespace FileTree

variable {t t' : FileTree} {P : Place → Prop} {q : Place} {id : Nat} {content : ByteArray}

/-- What is seen at a place: nothing, a directory, or a file with its bytes. The number of the file
is not seen. -/
def seen (t : FileTree) (q : Place) : Option (Option ByteArray) :=
  (t.node? q).map Node.bytes?

/-- The same is seen of two trees at the places of a kind. -/
def SameOn (P : Place → Prop) (t t' : FileTree) : Prop :=
  ∀ q, P q → t'.seen q = t.seen q

theorem seen_of_node? (h : t.node? q = some (.file id content)) :
    t.seen q = some (some content) := by
  rw [seen, h]
  rfl

theorem isSome_node?_of_seen (h : t'.seen q = t.seen q) :
    (t'.node? q).isSome = (t.node? q).isSome := by
  rw [← Option.isSome_map, ← seen, h, seen, Option.isSome_map]

theorem bytes_of_seen {id' : Nat} {content' : ByteArray} (h : t'.seen q = t.seen q)
    (hnode : t.node? q = some (.file id content))
    (hnode' : t'.node? q = some (.file id' content')) :
    content' = content := by
  rw [seen_of_node? hnode, seen_of_node? hnode'] at h
  exact Option.some.inj (Option.some.inj h)

theorem seen_erase (hq : q ≠ []) (r : Place) :
    (t.erase q).seen r = if r = q then none else t.seen r := by
  split_ifs with h
  · rw [h, seen, node?_erase_self hq, Option.map_none]
  · rw [seen, node?_erase_of_ne h, seen]

/-- Removing a file goes by what is seen at its place. -/
theorem removeFile_eq (t : FileTree) (path : FilePath) (q : Place) : t.removeFile path q =
    if path.isLong || (q.getLast?.map FilePath.isLongName).getD false then .error .nameTooLong
    else
      match t.seen q with
      | none => .error .notFound
      | some none => .error .isDirectory
      | some (some _) => .ok (t.erase q) := by
  rw [removeFile, seen]
  rcases t.node? q with _ | _ | ⟨id, content⟩ <;> rfl

theorem removeFile_alike (path : FilePath) (h : t'.seen q = t.seen q) :
    (∃ e, t.removeFile path q = .error e ∧ t'.removeFile path q = .error e) ∨
      t.removeFile path q = .ok (t.erase q) ∧ t'.removeFile path q = .ok (t'.erase q) := by
  rw [removeFile_eq, removeFile_eq, h]
  split_ifs
  · exact Or.inl ⟨_, rfl, rfl⟩
  · rcases t.seen q with _ | _ | content
    · exact Or.inl ⟨_, rfl, rfl⟩
    · exact Or.inl ⟨_, rfl, rfl⟩
    · exact Or.inr ⟨rfl, rfl⟩

end FileTree

namespace LogFile

open FileTree

variable {t t' u u' fresh fresh' : FileTree} {f f' g g' : LogFile} {id id' : Nat}
  {active active' bytes : ByteArray} {now : String} {q : Place} {failed failed' : Option WriteError}

/-! ### Places of one's own -/

/-- A place is that of a log file, or named like a backup of it. -/
def Owns (f : LogFile) (q : Place) : Prop :=
  q = f.place ∨ ∃ name, q = f.directory ++ [name] ∧ BackupName.Names f.name name

theorem owns_place (f : LogFile) : f.Owns f.place :=
  Or.inl rfl

theorem owns_backupPlace (f : LogFile) {b : BackupName} (h : b.IsDated) :
    f.Owns (f.backupPlace b) :=
  Or.inr ⟨b.fileName f.name, rfl, Or.inr ⟨b, h, rfl⟩⟩

/-- Two log files of which neither stands at a place of the other have no place in common. -/
theorem not_owns_of_owns (hf : ¬ f.Owns g.place) (hg : ¬ g.Owns f.place) (hq : f.Owns q) :
    ¬ g.Owns q := by
  intro hq'
  rcases hq with rfl | ⟨name, rfl, hname⟩
  · exact hg hq'
  rcases hq' with hplace | ⟨name', hboth, hname'⟩
  · exact hf (Or.inr ⟨name, hplace.symm, hname⟩)
  · obtain ⟨hdirectory, hlast⟩ := List.append_inj' hboth rfl
    obtain rfl : name = name' := List.singleton_inj.mp hlast
    refine hf (Or.inl ?_)
    rw [LogFile.place, LogFile.place, hdirectory, BackupName.eq_of_names hname hname']

/-- All known backups have a date. -/
def IsDated (f : LogFile) : Prop :=
  ∀ b ∈ f.backups, b.IsDated

theorem isDated_start (t : FileTree) (path : FilePath) (place : Place) (id limit keep : Nat) :
    (start t path place id limit keep).IsDated := by
  intro b hb
  obtain ⟨found, -, hfound⟩ :=
    List.mem_filterMap.mp ((mem_of_mem_foldl hb).resolve_left List.not_mem_nil)
  exact (BackupName.isDated_of_ofFileName? hfound).1

theorem nextBackup_isDated {reading : Timestamp} (hreading : reading.IsReading) (f : LogFile) :
    (nextBackup f reading.text).IsDated := by
  unfold nextBackup
  cases f.backups.head? with
  | none => exact BackupName.isDated_of_reading hreading _ _
  | some newest => exact BackupName.isDated_of_reading hreading _ _

theorem Written.owns_eq (h : Written t f id active now bytes t' f' failed) : f'.Owns = f.Owns := by
  obtain ⟨-, hdirectory, hname, -⟩ := h.same
  funext q
  rw [Owns, Owns, LogFile.place, LogFile.place, hdirectory, hname]

/-- Backups that are made at readings of the clock have a date. -/
theorem Written.isDated (h : Written t f id active now bytes t' f' failed) (hdated : f.IsDated)
    (hnext : (nextBackup f now).IsDated) : f'.IsDated := by
  intro b hb
  rcases h.backup_mem hb with hb | ⟨rfl, -⟩
  · exact hdated b hb
  · exact hnext

/-! ### Writes and the places they touch -/

/-- A write changes no place that its log file does not own. -/
theorem Written.outside (h : Written t f id active now bytes t' f' failed) (hdated : f.IsDated)
    (hnext : (nextBackup f now).IsDated) (hq : ¬ f.Owns q) : t'.node? q = t.node? q := by
  refine h.elsewhere ?_ (fun b hb ↦ ?_) fun hbackup ↦ absurd ?_ hq
  · rintro rfl
    exact hq f.owns_place
  · rintro rfl
    exact hq (f.owns_backupPlace (hdated b hb))
  · rw [hbackup]
    exact f.owns_backupPlace hnext

/-- A log file but for the number it writes to. -/
def closed (f : LogFile) : LogFile :=
  { f with handle := none }

theorem exists_of_closed (h : f'.closed = f.closed) :
    ∃ handle, f' = { f with handle := handle } := by
  refine ⟨f'.handle, ?_⟩
  rw [show f' = { f'.closed with handle := f'.handle } from rfl, h]
  rfl

theorem owns_of_closed (h : f'.closed = f.closed) : f'.Owns = f.Owns := by
  obtain ⟨handle, rfl⟩ := exists_of_closed h
  rfl

theorem removeAll_of_closed (h : f'.closed = f.closed) (t : FileTree) (bs : List BackupName) :
    removeAll t f' bs = removeAll t f bs := by
  obtain ⟨handle, rfl⟩ := exists_of_closed h
  induction bs generalizing t with
  | nil => rfl
  | cons b rest ih =>
    simp only [removeAll, ih]
    rfl

/-- Removing backups goes by what is seen at their places. -/
theorem removeAll_alike {P : Place → Prop} {bs : List BackupName}
    (hplaces : ∀ b ∈ bs, P (f.backupPlace b)) (h : SameOn P t t') :
    (removeAll t' f bs).2 = (removeAll t f bs).2 ∧
      SameOn P (removeAll t f bs).1 (removeAll t' f bs).1 := by
  induction bs generalizing t t' with
  | nil => exact ⟨rfl, h⟩
  | cons b rest ih =>
    rw [List.forall_mem_cons] at hplaces
    rw [removeAll, removeAll]
    rcases removeFile_alike (f.backupPath b) (h _ hplaces.1) with ⟨e, he, he'⟩ | ⟨hremoved, hremoved'⟩
    · rw [he, he']
      exact ⟨rfl, (ih hplaces.2 h).2⟩
    · rw [hremoved, hremoved']
      refine ih hplaces.2 fun q hq ↦ ?_
      have hplace : f.backupPlace b ≠ [] := by simp [backupPlace]
      rw [seen_erase hplace, seen_erase hplace, h q hq]

theorem obstacle?_alike (hnext : (nextBackup f now).IsDated) (h : SameOn f.Owns t t') :
    obstacle? t' f now = obstacle? t f now := by
  rw [obstacle?, obstacle?, isSome_node?_of_seen (h _ (f.owns_backupPlace hnext))]

/-- Moving the file to its next backup looks the same where the trees did. -/
theorem Moved.alike {b : BackupName} (hmoved : Moved t f b active fresh)
    (hmoved' : Moved t' f b active fresh') (h : SameOn f.Owns t t') :
    SameOn f.Owns fresh fresh' := by
  intro q hq
  by_cases hplace : q = f.place
  · rw [hplace, seen_of_node? hmoved.new, seen_of_node? hmoved'.new]
  by_cases hbackup : q = f.backupPlace b
  · obtain ⟨n, hn⟩ := hmoved.backup
    obtain ⟨n', hn'⟩ := hmoved'.backup
    rw [hbackup, seen_of_node? hn, seen_of_node? hn']
  · have hsame := h q hq
    rw [seen, seen] at hsame ⊢
    rw [hmoved.elsewhere q hplace hbackup, hmoved'.elsewhere q hplace hbackup, hsame]

/-- Two trees in which the active file has got the same bytes, and nothing else has changed. -/
theorem sameOn_of_active {content : ByteArray} (h : SameOn f.Owns t t')
    (hnode : u.node? f.place = some (.file id content))
    (hnode' : u'.node? f.place = some (.file id' content))
    (helsewhere : ∀ q, q ≠ f.place → u.node? q = t.node? q)
    (helsewhere' : ∀ q, q ≠ f.place → u'.node? q = t'.node? q) : SameOn f.Owns u u' := by
  intro q hq
  by_cases hplace : q = f.place
  · rw [hplace, seen_of_node? hnode, seen_of_node? hnode']
  · have hsame := h q hq
    rw [seen, seen] at hsame ⊢
    rw [helsewhere q hplace, helsewhere' q hplace, hsame]

/-- Writes of the same bytes at the same time do the same where the same is seen. -/
theorem Written.alike (h : Written t f id active now bytes u g failed)
    (h' : Written t' f' id' active now bytes u' g' failed') (hclosed : f'.closed = f.closed)
    (hsame : SameOn f.Owns t t') (hdated : f.IsDated) (hnext : (nextBackup f now).IsDated) :
    failed' = failed ∧ g'.closed = g.closed ∧ SameOn f.Owns u u' := by
  obtain ⟨handle, rfl⟩ := exists_of_closed hclosed
  have hobstacles := obstacle?_alike hnext hsame
  cases h with
  | idle hbytes =>
    cases h' with
    | idle => exact ⟨rfl, rfl, hsame⟩
    | appended hbytes' | refused hbytes' | rotated hbytes' => exact absurd hbytes hbytes'
  | appended hbytes hlimit hwell hnode helsewhere =>
    cases h' with
    | idle hbytes' => exact absurd hbytes' hbytes
    | appended hbytes' hlimit' hwell' hnode' helsewhere' =>
      exact ⟨rfl, rfl, sameOn_of_active hsame hnode hnode' helsewhere helsewhere'⟩
    | refused hbytes' hlimit' | rotated hbytes' hlimit' =>
      exact absurd hlimit' (Nat.not_lt.mpr hlimit)
  | refused hbytes hlimit hobstacle =>
    cases h' with
    | idle hbytes' => exact absurd hbytes' hbytes
    | appended hbytes' hlimit' => exact absurd hlimit (Nat.not_lt.mpr hlimit')
    | refused hbytes' hlimit' hobstacle' =>
      exact ⟨hobstacle'.symm.trans (hobstacles.trans hobstacle), rfl, hsame⟩
    | rotated hbytes' hlimit' hobstacle' =>
      exact absurd (hobstacle'.symm.trans (hobstacles.trans hobstacle)) (by simp)
  | rotated hbytes hlimit hobstacle hmoved hg hfailed hcontent hwell hnode helsewhere =>
    cases h' with
    | idle hbytes' => exact absurd hbytes' hbytes
    | appended hbytes' hlimit' => exact absurd hlimit (Nat.not_lt.mpr hlimit')
    | refused hbytes' hlimit' hobstacle' =>
      exact absurd (hobstacle'.symm.trans (hobstacles.trans hobstacle)) (by simp)
    | rotated hbytes' hlimit' hobstacle' hmoved' hg' hfailed' hcontent' hwell' hnode' helsewhere' =>
      subst hg hg'
      have hknown : ∀ b ∈ (f.renewed t.next now).surplus, f.Owns (f.backupPlace b) := by
        intro b hb
        refine f.owns_backupPlace ?_
        rcases mem_insertBackup (mem_of_mem_surplus hb) with rfl | hb
        · exact hnext
        · exact hdated b hb
      have hfresh := hmoved.alike ⟨hmoved'.wellFormed, hmoved'.free, hmoved'.new, hmoved'.backup,
        hmoved'.elsewhere⟩ hsame
      obtain ⟨hfailures, hremoved⟩ := removeAll_alike (f := f.renewed t.next now) hknown hfresh
      have hclosed : LogFile.closed (renewed { f with handle := handle } t'.next now) =
          (f.renewed t.next now).closed := rfl
      rw [removeAll_of_closed hclosed] at hfailed' helsewhere'
      obtain rfl := hfailed'.symm.trans (hfailures.trans hfailed)
      obtain rfl := hcontent'.trans hcontent.symm
      refine ⟨rfl, rfl, sameOn_of_active hremoved hnode hnode' helsewhere helsewhere'⟩

/-! ### Log files in order -/

/-- A log file is steady, and all its backups have dates. -/
structure InOrder (t : FileTree) (f : LogFile) : Prop where
  steady : ∃ id active, Steady t f id active
  dated : f.IsDated

namespace InOrder

theorem wellFormed (h : InOrder t f) : t.WellFormed := by
  obtain ⟨id, active, hsteady⟩ := h.steady
  exact hsteady.wellFormed

theorem start {path : FilePath} {made : FileTree} {place : Place} (ht : t.WellFormed)
    (hprepare : prepare t path = (made, .ok (place, id))) (limit keep : Nat) :
    InOrder made (LogFile.start made path place id limit keep) :=
  ⟨⟨id, _, steady_start ht hprepare limit keep⟩, isDated_start made path place id limit keep⟩

/-- A log file stays in order when its file does not change and no directory is lost. -/
theorem of_node? (h : InOrder t f) (ht' : t'.WellFormed)
    (hkeep : ∀ q, t.isDirectory q = true → t'.isDirectory q = true)
    (hnode : ∀ node, t.node? f.place = some node → t'.node? f.place = some node) :
    InOrder t' f := by
  obtain ⟨id, active, hsteady⟩ := h.steady
  exact ⟨⟨id, active, ht', hsteady.reaches.of_directories hkeep, hnode _ hsteady.node,
    hsteady.count, hsteady.handle⟩, h.dated⟩

/-- A write keeps a log file in order and at its places. It removes no directory and changes nothing
elsewhere. -/
theorem write (h : InOrder t f) (hnext : (nextBackup f now).IsDated)
    (hwrite : LogFile.write t f now bytes = (t', f', failed)) :
    InOrder t' f' ∧ f'.Owns = f.Owns ∧ f'.place = f.place ∧
      (∀ q, t.isDirectory q = true → t'.isDirectory q = true) ∧
      ∀ q, ¬ f.Owns q → t'.node? q = t.node? q := by
  obtain ⟨id, active, hsteady⟩ := h.steady
  have hwritten := hsteady.written hwrite
  obtain ⟨-, hdirectory, hname, -⟩ := hwritten.same
  refine ⟨⟨hsteady.write hwritten, hwritten.isDated h.dated hnext⟩, hwritten.owns_eq, ?_,
    fun q ↦ hwritten.keepsDirectories hsteady.node, fun q ↦ hwritten.outside h.dated hnext⟩
  rw [LogFile.place, LogFile.place, hdirectory, hname]

/-- What a write does goes by what is seen at the places its log file owns. -/
theorem write_alike (h : InOrder t f) (h' : InOrder t' f') (hclosed : f'.closed = f.closed)
    (hsame : SameOn f.Owns t t') (hnext : (nextBackup f now).IsDated)
    (hwrite : LogFile.write t f now bytes = (u, g, failed))
    (hwrite' : LogFile.write t' f' now bytes = (u', g', failed')) :
    failed' = failed ∧ g'.closed = g.closed ∧ SameOn g.Owns u u' := by
  obtain ⟨id, active, hsteady⟩ := h.steady
  obtain ⟨id', active', hsteady'⟩ := h'.steady
  have hplace : f'.place = f.place := by
    obtain ⟨handle, rfl⟩ := exists_of_closed hclosed
    rfl
  have hnode' := hsteady'.node
  rw [hplace] at hnode'
  obtain rfl := bytes_of_seen (hsame _ f.owns_place) hsteady.node hnode'
  have hwritten := hsteady.written hwrite
  rw [hwritten.owns_eq]
  exact hwritten.alike (hsteady'.written hwrite') hclosed hsame h.dated hnext

end InOrder

/-- However much is written, a log file owns the same places. -/
theorem Steady.owns_writeAll (h : Steady t f id active) {writes : List (String × ByteArray)}
    {failures : List WriteError} (hwrites : writeAll t f writes = (t', f', failures)) :
    f'.Owns = f.Owns := by
  induction writes generalizing t f id active failures with
  | nil =>
    simp only [writeAll, Prod.mk.injEq] at hwrites
    rw [hwrites.2.1]
  | cons w rest ih =>
    obtain ⟨now, bytes⟩ := w
    rcases hwrite : LogFile.write t f now bytes with ⟨u, g, failed⟩
    rcases hrest : writeAll u g rest with ⟨u', g', failures'⟩
    simp only [writeAll, hwrite, hrest, Prod.mk.injEq] at hwrites
    obtain ⟨rfl, rfl, -⟩ := hwrites
    have hwritten := h.written hwrite
    obtain ⟨id', active', hsteady⟩ := h.write hwritten
    exact (ih hsteady hrest).trans hwritten.owns_eq

end LogFile

end Logbook
