import Logbook.Proofs.Rotation.Archive
import Logbook.Proofs.Rotation.Opening

/-!
# Rotation keeps a ledger

A log file is opened, written to and closed any number of times (`Action`, `Usage`). What this does
to the bytes on disk is said by a `Ledger` that knows nothing of files: the active bytes and the
bytes of the backups, oldest first. A write with the log file open first moves the active bytes to
the backups if there are more of them than the limit, and prunes the backups; opening and closing
changes no bytes, and an empty write does nothing.

`run_describes` says that after every action the files on disk are those of the ledger. It needs a
directory without backups to begin with, positive limits, a clock that does not go backwards and
room for the names of the backups. The proof is a simulation: one action keeps the invariant
`Agrees` (`Agrees.step`), and so does a run.

From the ledger alone it follows that the bytes of the files are the texts that were written, in
order and each in one file, but for whole backups gone from the start (`Ledger.Accounts`).
-/

set_option autoImplicit false
set_option relaxedAutoImplicit false

namespace Logbook.LogFile

open FileTree

/-! ### Using a log file -/

/-- What is done with the log file of a path. -/
inductive Action where
  | openWith (limit keep : Nat)
  | write (now : Timestamp) (bytes : ByteArray)
  | close

/-- Why an action failed. -/
inductive Failure where
  | opening (e : OpenError)
  | writing (e : WriteError)

/-- The files, the log file while it is open, and what has failed. -/
structure Usage where
  files : FileTree
  file : Option LogFile
  failures : List Failure

/-- One action. Without an open log file a write does nothing. -/
def Usage.step (path : FilePath) (u : Usage) : Action → Usage
  | .openWith limit keep =>
    match openAt u.files path limit keep with
    | (files, .ok f) => { u with files, file := some f }
    | (files, .error e) => ⟨files, none, u.failures ++ [.opening e]⟩
  | .write now bytes =>
    match u.file with
    | none => u
    | some f =>
      match LogFile.write u.files f now.text bytes with
      | (files, f, none) => { u with files, file := some f }
      | (files, f, some e) => ⟨files, some f, u.failures ++ [.writing e]⟩
  | .close => { u with file := none }

/-- Actions one after the other on the files of a tree. -/
def Usage.run (path : FilePath) (t : FileTree) (actions : List Action) : Usage :=
  actions.foldl (Usage.step path) ⟨t, none, []⟩

/-- The readings of the clock at the writes. -/
def readings (actions : List Action) : List Timestamp :=
  actions.filterMap fun
    | .write now _ => some now
    | _ => none

theorem readings_append (done rest : List Action) :
    readings (done ++ rest) = readings done ++ readings rest :=
  List.filterMap_append

/-! ### The ledger of a run -/

/-- What an action does to the ledger. -/
def Ledger.step (l : Ledger) : Action → Ledger
  | .openWith limit keep => { l with limits := some (limit, keep) }
  | .write _ bytes =>
    match l.limits with
    | none => l
    | some (limit, keep) => if bytes.size = 0 then l else l.put limit keep bytes
  | .close => { l with limits := none }

/-- What an action would do to the ledger if an empty write were one like any other. -/
def Ledger.stepEager (l : Ledger) : Action → Ledger
  | .openWith limit keep => { l with limits := some (limit, keep) }
  | .write _ bytes =>
    match l.limits with
    | none => l
    | some (limit, keep) => l.put limit keep bytes
  | .close => { l with limits := none }

/-- The ledger of a log file without backups that has not been opened yet. A missing file counts as
an empty one. -/
def Ledger.initial (t : FileTree) (place : Place) : Ledger :=
  ⟨(t.content? place).getD ByteArray.empty, [], none⟩

/-- The ledger behind some actions. -/
def Ledger.run (l : Ledger) (actions : List Action) : Ledger :=
  actions.foldl Ledger.step l

/-- The texts that are written by some actions, where writes to a closed file do not count. -/
def entered : Bool → List Action → List ByteArray
  | _, [] => []
  | _, .openWith _ _ :: rest => entered true rest
  | isOpen, .write _ bytes :: rest =>
    if isOpen && bytes.size ≠ 0 then bytes :: entered isOpen rest else entered isOpen rest
  | _, .close :: rest => entered false rest

/-- Texts behind one another. -/
def joined (texts : List ByteArray) : ByteArray :=
  texts.foldl (· ++ ·) ByteArray.empty

/-- The texts can be cut into groups such that each file holds the texts of one group, but for some
groups at the start whose files are gone. -/
def Ledger.Accounts (l : Ledger) (texts : List ByteArray) : Prop :=
  ∃ groups gone : List (List ByteArray), texts = (gone ++ groups).flatten ∧
    groups.map joined = l.backups ++ [l.active]

theorem joined_concat (texts : List ByteArray) (bytes : ByteArray) :
    joined (texts ++ [bytes]) = joined texts ++ bytes :=
  List.foldl_concat ..

/-- Each file holds the texts of one group. -/
def Ledger.Holds (l : Ledger) (groups : List (List ByteArray)) : Prop :=
  groups.map joined = l.backups ++ [l.active]

/-- A write adds its text to the last group, or starts a group with it. Groups at the start may be
gone afterwards, but not where all backups are kept. -/
theorem Ledger.Holds.put {l : Ledger} {groups : List (List ByteArray)} (h : l.Holds groups)
    (limit keep : Nat) (bytes : ByteArray) :
    ∃ gone kept : List (List ByteArray), (gone ++ kept).flatten = groups.flatten ++ [bytes] ∧
      (l.put limit keep bytes).Holds kept ∧ (keep = 0 → gone = []) := by
  unfold Ledger.Holds at h
  unfold Ledger.put Ledger.Holds
  split_ifs with hlimit
  · set m := if keep = 0 then 0 else groups.length - keep with hm
    have hkept : keepLast keep (l.backups ++ [l.active]) = (groups.drop m).map joined := by
      have hlength : (l.backups ++ [l.active]).length = groups.length := by
        rw [← h, List.length_map]
      rw [keepLast, hlength, ← h, hm]
      split_ifs
      · rfl
      · rw [List.map_drop]
    refine ⟨groups.take m, groups.drop m ++ [[bytes]], ?_, ?_, fun hkeep ↦ ?_⟩
    · rw [← List.append_assoc, List.take_append_drop]
      simp
    · rw [List.map_append, ← hkept]
      simp [joined]
    · rw [hm, if_pos hkeep, List.take_zero]
  · rcases List.eq_nil_or_concat groups with rfl | ⟨init, last, rfl⟩
    · simp at h
    · rw [List.concat_eq_append] at h ⊢
      rw [List.map_append, List.map_singleton] at h
      obtain ⟨hinit, hlast⟩ := List.append_inj' h rfl
      refine ⟨[], init ++ [last ++ [bytes]], by simp, ?_, fun _ ↦ rfl⟩
      rw [List.map_append, List.map_singleton, joined_concat, hinit, List.singleton_inj.mp hlast]

theorem Ledger.Accounts.put {l : Ledger} {texts : List ByteArray} (h : l.Accounts texts)
    (limit keep : Nat) (bytes : ByteArray) :
    (l.put limit keep bytes).Accounts (texts ++ [bytes]) := by
  obtain ⟨groups, gone, rfl, hgroups⟩ := h
  obtain ⟨gone', kept, hflatten, hkept, -⟩ := Ledger.Holds.put hgroups limit keep bytes
  refine ⟨kept, gone ++ gone', ?_, hkept⟩
  rw [List.append_assoc gone, List.flatten_append, List.flatten_append, hflatten, List.append_assoc]

/-- At first there is what the active file holds. -/
theorem Ledger.accounts_initial (t : FileTree) (place : Place) :
    (Ledger.initial t place).Accounts [(t.content? place).getD ByteArray.empty] := by
  refine ⟨[[(t.content? place).getD ByteArray.empty]], [], rfl, ?_⟩
  rw [List.map_singleton, Ledger.initial, joined, List.foldl_cons, ByteArray.empty_append]
  rfl

/-- What a run writes is accounted for by the files of the ledger. -/
theorem Ledger.accounts_run {l : Ledger} {texts : List ByteArray} (h : l.Accounts texts)
    (actions : List Action) :
    (l.run actions).Accounts (texts ++ entered l.limits.isSome actions) := by
  induction actions generalizing l texts with
  | nil =>
    rw [entered, List.append_nil]
    exact h
  | cons a rest ih =>
    cases a with
    | openWith limit keep => exact ih h
    | close => exact ih h
    | write now bytes =>
      cases hlimits : l.limits with
      | none =>
        have hstep : l.step (.write now bytes) = l := by simp only [Ledger.step, hlimits]
        have hrest := ih h
        rw [Ledger.run, List.foldl_cons, hstep]
        rwa [hlimits] at hrest
      | some limits =>
        obtain ⟨limit, keep⟩ := limits
        by_cases hbytes : bytes.size = 0
        · have hstep : l.step (.write now bytes) = l := by
            simp only [Ledger.step, hlimits, if_pos hbytes]
          have hentered : entered true (.write now bytes :: rest) = entered true rest := by
            simp [entered, hbytes]
          have hrest := ih h
          rw [hlimits] at hrest
          rw [Ledger.run, List.foldl_cons, hstep, Option.isSome_some, hentered]
          exact hrest
        · have hstep : l.step (.write now bytes) = l.put limit keep bytes := by
            simp only [Ledger.step, hlimits, if_neg hbytes]
          have hentered : entered true (.write now bytes :: rest) = bytes :: entered true rest := by
            simp [entered, hbytes]
          have hopen : (l.put limit keep bytes).limits = some (limit, keep) := by
            unfold Ledger.put
            split_ifs <;> exact hlimits
          have hrest := ih (h.put limit keep bytes)
          rw [hopen, List.append_assoc] at hrest
          rw [Ledger.run, List.foldl_cons, hstep, Option.isSome_some, hentered]
          exact hrest

/-! ### One action -/

/-- What an action needs: a positive limit where it opens, and where it writes, a clock that has not
gone backwards and room for the backup it may make. -/
def Action.Fits (path : FilePath) (name : String) (past : List Timestamp) : Action → Prop
  | .openWith limit _ => 0 < limit
  | .write now _ => now.IsReading ∧ (∀ s ∈ past, s.IsReading ∧ s ≤ now) ∧
      RoomAt path name (past ++ [now]) now
  | .close => True

/-- Files and ledger agree, with the log file open or closed alike, and nothing else in the tree has
changed since the path was first opened. -/
structure Agrees (origin : FileTree) (path : FilePath) (directory : Place) (name : String)
    (past : List Timestamp) (u : Usage) (l : Ledger) : Prop where
  failures : u.failures = []
  elsewhere : SameElsewhere (isBackupPlace directory name) (directory ++ [name]) origin u.files
  archive : ∃ id backups, Archive past u.files path directory name id l.active backups ∧
    l.backups = backups.map Prod.snd ∧
    u.file = l.limits.map (follower path directory name id l.active backups)

variable {origin t : FileTree} {path : FilePath} {directory : Place} {name : String} {id : Nat}
  {past : List Timestamp} {u : Usage} {l : Ledger}

theorem openAt_of_prepare {opened : FileTree} {place : Place} {limit : Nat}
    (hprepare : prepare t path = (opened, .ok (place, id))) (hlimit : 0 < limit) (keep : Nat) :
    openAt t path limit keep = (opened, .ok (start opened path place id limit keep)) := by
  rw [openAt, hprepare]
  exact if_neg (Nat.ne_of_gt hlimit)

/-- A tree without backups in which the path has been opened starts an archive. -/
theorem archive_of_prepare (past : List Timestamp) (ht : t.WellFormed)
    (hprepare : prepare t path = (origin, .ok (directory ++ [name], id)))
    (hnone : ∀ q, isBackupPlace directory name q = true → origin.node? q = none) :
    Archive past origin path directory name id (Ledger.initial t (directory ++ [name])).active [] ∧
      ∀ q, q ≠ directory ++ [name] → origin.content? q = t.content? q := by
  obtain ⟨directory', name', hplace, hreaches, hwell, hnode, hsame⟩ := prepare_eq_ok ht hprepare
  obtain ⟨rfl, hnames⟩ := List.append_inj' hplace rfl
  obtain rfl := List.singleton_inj.mp hnames
  have hstands := Stands.of_node? hwell (by simp) hnode hnone
  exact ⟨⟨hreaches, hstands, by simp, by simp, by simp, by simp⟩, hsame⟩

/-- The first opening brings files and ledger together. -/
theorem agrees_of_openWith (ht : t.WellFormed)
    (hprepare : prepare t path = (origin, .ok (directory ++ [name], id)))
    (hnone : ∀ q, isBackupPlace directory name q = true → origin.node? q = none) {limit : Nat}
    (hlimit : 0 < limit) (keep : Nat) :
    Agrees origin path directory name past (Usage.step path ⟨t, none, []⟩ (.openWith limit keep))
      ((Ledger.initial t (directory ++ [name])).step (.openWith limit keep)) := by
  obtain ⟨harchive, -⟩ := archive_of_prepare past ht hprepare hnone
  have hstep : Usage.step path ⟨t, none, []⟩ (.openWith limit keep) =
      ⟨origin, some (follower path directory name id
        (Ledger.initial t (directory ++ [name])).active [] (limit, keep)), []⟩ := by
    rw [Usage.step]
    dsimp only
    rw [openAt_of_prepare hprepare hlimit, harchive.start_eq]
  rw [hstep]
  exact ⟨rfl, SameElsewhere.refl _ _ _, id, [], harchive, rfl, rfl⟩

/-- An action keeps files and ledger in agreement. -/
theorem Agrees.step (h : Agrees origin path directory name past u l) {a : Action}
    (ha : a.Fits path name past) :
    Agrees origin path directory name (past ++ readings [a]) (u.step path a) (l.step a) := by
  obtain ⟨id, backups, harchive, hbackups, hfile⟩ := h.archive
  cases a with
  | close =>
    have hpast : past ++ readings [.close] = past := List.append_nil past
    rw [hpast]
    exact ⟨h.failures, h.elsewhere, id, backups, harchive, hbackups, rfl⟩
  | openWith limit keep =>
    have hpast : past ++ readings [.openWith limit keep] = past := List.append_nil past
    have hstep : u.step path (.openWith limit keep) =
        { u with file := some (follower path directory name id l.active backups (limit, keep)) } := by
      rw [Usage.step, openAt_of_prepare (harchive.reaches.prepare_eq harchive.stands.node?_eq) ha,
        harchive.start_eq]
    rw [hpast, hstep]
    exact ⟨h.failures, h.elsewhere, id, backups, harchive, hbackups, rfl⟩
  | write now bytes =>
    have hpast : past ++ readings [.write now bytes] = past ++ [now] := rfl
    rw [hpast]
    obtain ⟨hnow, hpast, hroom⟩ := ha
    cases hlimits : l.limits with
    | none =>
      rw [hlimits] at hfile
      have hstep : u.step path (.write now bytes) = u := by
        rw [Usage.step, hfile]
        rfl
      have hledger : l.step (.write now bytes) = l := by simp only [Ledger.step, hlimits]
      rw [hstep, hledger]
      exact ⟨h.failures, h.elsewhere, id, backups, harchive.later now, hbackups,
        by rw [hfile, hlimits]⟩
    | some limits =>
      set f := follower path directory name id l.active backups limits with hf
      have hopen : u.file = some f := by
        rw [hfile, hlimits]
        rfl
      by_cases hbytes : bytes.size = 0
      · have hstep : u.step path (.write now bytes) = u := by
          have hwrite : LogFile.write u.files f now.text bytes = (u.files, f, none) := by
            rw [LogFile.write, if_pos hbytes]
          rw [Usage.step, hopen]
          simp only [hwrite, ← hopen]
        have hledger : l.step (.write now bytes) = l := by
          simp only [Ledger.step, hlimits, if_pos hbytes]
        rw [hstep, hledger]
        exact ⟨h.failures, h.elsewhere, id, backups, harchive.later now, hbackups,
          by rw [hopen, hlimits]; rfl⟩
      · obtain ⟨left, next, kept, hwrite, hkept, hsnd, hsame⟩ :=
          Archive.write_eq (f := f) harchive ⟨rfl, rfl, rfl⟩ hnow hpast hroom hbytes rfl hbackups
        have hledger : l.step (.write now bytes) = l.put limits.1 limits.2 bytes := by
          simp only [Ledger.step, hlimits, if_neg hbytes]
        have hstep : u.step path (.write now bytes) =
            { u with
              files := left
              file := some (follower path directory name next
                (l.put limits.1 limits.2 bytes).active kept limits) } := by
          rw [Usage.step, hopen]
          dsimp only
          rw [hwrite]
          rfl
        have hopen' : (l.put limits.1 limits.2 bytes).limits = some limits := by
          unfold Ledger.put
          split_ifs <;> exact hlimits
        rw [hstep, hledger]
        refine ⟨h.failures, h.elsewhere.trans hsame, next, kept, hkept, hsnd, ?_⟩
        rw [hopen']
        rfl

/-! ### Every run -/

/-- The files on disk hold the bytes of the ledger, where a missing active file counts as an empty
one, and the backups stand in the order of their names. -/
structure Ledger.Describes (l : Ledger) (t : FileTree) (directory : Place) (name : String) :
    Prop where
  active : (t.content? (directory ++ [name])).getD ByteArray.empty = l.active
  backups : (filesWhere t (isBackupPlace directory name)).map Prod.snd = l.backups
  order : (filesWhere t (isBackupPlace directory name)).map Prod.fst =
    (scan t directory name).reverse.map fun b ↦ directory ++ [b.fileName name]

/-- An archive with the bytes of a ledger is described by it. -/
theorem Archive.describes {backups : Backups}
    (h : Archive past t path directory name id l.active backups)
    (hbackups : l.backups = backups.map Prod.snd) : l.Describes t directory name := by
  refine ⟨?_, ?_, ?_⟩
  · rw [h.stands.content?_eq]
    rfl
  · rw [h.stands.filesWhere_eq, hbackups, Backups.files, List.map_map]
    rfl
  · rw [h.stands.filesWhere_eq, h.scan_eq, List.reverse_reverse, Backups.files, List.map_map,
      List.map_map]
    rfl

theorem Agrees.describes (h : Agrees origin path directory name past u l) :
    l.Describes u.files directory name := by
  obtain ⟨id, backups, harchive, hbackups, -⟩ := h.archive
  exact harchive.describes hbackups

/-- A directory without backups is described by a ledger without backups. -/
theorem describes_initial (ht : t.WellFormed)
    (hnone : ∀ q, isBackupPlace directory name q = true → t.content? q = none) :
    (Ledger.initial t (directory ++ [name])).Describes t directory name := by
  have hfiles : filesWhere t (isBackupPlace directory name) = [] := by
    refine List.filterMap_eq_nil_iff.mpr fun entry hentry ↦ ?_
    cases hchosen : chosen (isBackupPlace directory name) entry with
    | none => rfl
    | some file =>
      obtain ⟨q, content⟩ := file
      obtain ⟨hq, rfl, n, hnode⟩ := chosen_eq_some_iff.mp hchosen
      obtain ⟨before, behind, hnodes⟩ := List.append_of_mem hentry
      have hcontent := hnone entry.1 hq
      rw [content?, ht.node?_around hnodes, hnode] at hcontent
      exact absurd hcontent (by simp)
  refine ⟨rfl, ?_, ?_⟩
  · rw [hfiles]
    rfl
  · rw [LogFile.scan_eq, hfiles]
    rfl

theorem Usage.run_concat (path : FilePath) (t : FileTree) (done : List Action) (a : Action) :
    Usage.run path t (done ++ [a]) = (Usage.run path t done).step path a :=
  List.foldl_concat ..

theorem Ledger.run_concat (l : Ledger) (done : List Action) (a : Action) :
    l.run (done ++ [a]) = (l.run done).step a :=
  List.foldl_concat ..

/-- Behind a run of actions that fit, the path has not been opened and everything is as it was, or
files and ledger agree. -/
theorem agrees_of_run (ht : t.WellFormed)
    (hprepare : prepare t path = (origin, .ok (directory ++ [name], id)))
    (hnone : ∀ q, isBackupPlace directory name q = true → origin.node? q = none)
    {done : List Action}
    (hfits : ∀ before a, before ++ [a] <+: done → a.Fits path name (readings before)) :
    (∀ limit keep, .openWith limit keep ∉ done) ∧ Usage.run path t done = ⟨t, none, []⟩ ∧
        (Ledger.initial t (directory ++ [name])).run done =
          Ledger.initial t (directory ++ [name]) ∨
      Agrees origin path directory name (readings done) (Usage.run path t done)
        ((Ledger.initial t (directory ++ [name])).run done) := by
  induction done using List.reverseRecOn with
  | nil => exact Or.inl ⟨by simp, rfl, rfl⟩
  | append_singleton done a ih =>
    have ha : a.Fits path name (readings done) := hfits done a (List.prefix_refl _)
    rw [Usage.run_concat, Ledger.run_concat, readings_append]
    rcases ih fun before b hb ↦ hfits before b (hb.trans (List.prefix_append done [a])) with
      ⟨hunopened, husage, hledger⟩ | hagrees
    · rw [husage, hledger]
      cases a with
      | openWith limit keep => exact Or.inr (agrees_of_openWith ht hprepare hnone ha keep)
      | write now bytes => exact Or.inl ⟨by simpa using hunopened, rfl, rfl⟩
      | close => exact Or.inl ⟨by simpa using hunopened, rfl, rfl⟩
    · exact Or.inr (hagrees.step ha)

/-- A clock that does not go backwards and room for all backups fit every action of a run. -/
theorem fits_of_run {actions done : List Action} (hdone : done <+: actions)
    (hlimits : ∀ limit keep, .openWith limit keep ∈ actions → 0 < limit)
    (hreadings : ∀ s ∈ readings actions, s.IsReading) (hclock : (readings actions).Pairwise (· ≤ ·))
    (hroom : ∀ s ∈ readings actions, RoomAt path name (readings actions) s) (before : List Action)
    (a : Action) (ha : before ++ [a] <+: done) : a.Fits path name (readings before) := by
  obtain ⟨behind, rfl⟩ := ha.trans hdone
  cases a with
  | close => trivial
  | openWith limit keep => exact hlimits limit keep (by simp)
  | write now bytes =>
    refine fits_of_prefix hreadings hclock hroom ⟨readings behind, ?_⟩
    rw [readings_append, readings_append]
    rfl

/-- After every action of a run the files on disk are those of the ledger. No action fails, the
other files keep their bytes, the ledger accounts for every text that was written, and closing and
opening again changes no more of the ledger than its limits. -/
theorem run_describes (ht : t.WellFormed)
    (hprepare : prepare t path = (origin, .ok (directory ++ [name], id)))
    (hnone : ∀ q, isBackupPlace directory name q = true → origin.node? q = none)
    {actions done : List Action}
    (hlimits : ∀ limit keep, .openWith limit keep ∈ actions → 0 < limit)
    (hreadings : ∀ s ∈ readings actions, s.IsReading) (hclock : (readings actions).Pairwise (· ≤ ·))
    (hroom : ∀ s ∈ readings actions, RoomAt path name (readings actions) s)
    (hdone : done <+: actions) :
    (Usage.run path t done).failures = [] ∧
      ((Ledger.initial t (directory ++ [name])).run done).Describes (Usage.run path t done).files
        directory name ∧
      ((∃ limit keep, .openWith limit keep ∈ done) →
        ((Usage.run path t done).files.content? (directory ++ [name])).isSome = true) ∧
      (∀ q, q ≠ directory ++ [name] → isBackupPlace directory name q = false →
        (Usage.run path t done).files.content? q = t.content? q) ∧
      ((Ledger.initial t (directory ++ [name])).run done).Accounts
        ((t.content? (directory ++ [name])).getD ByteArray.empty :: entered false done) ∧
      ∀ limit keep,
        (Ledger.initial t (directory ++ [name])).run (done ++ [.close, .openWith limit keep]) =
          { (Ledger.initial t (directory ++ [name])).run done with
            limits := some (limit, keep) } := by
  obtain ⟨-, hsame⟩ := archive_of_prepare [] ht hprepare hnone
  have haccounts := Ledger.accounts_initial t (directory ++ [name])
  have hreopen : ∀ limit keep,
      (Ledger.initial t (directory ++ [name])).run (done ++ [.close, .openWith limit keep]) =
        { (Ledger.initial t (directory ++ [name])).run done with limits := some (limit, keep) } :=
    fun _ _ ↦ List.foldl_append
  rcases agrees_of_run ht hprepare hnone (fits_of_run hdone hlimits hreadings hclock hroom) with
    ⟨hunopened, husage, hledger⟩ | hagrees
  · refine ⟨by rw [husage], ?_, ?_, ?_, Ledger.accounts_run haccounts done, hreopen⟩
    · rw [husage, hledger]
      refine describes_initial ht fun q hq ↦ ?_
      have hplace : q ≠ directory ++ [name] := by
        rintro rfl
        rw [isBackupPlace_self] at hq
        exact absurd hq Bool.false_ne_true
      rw [← hsame q hplace, content?, hnone q hq]
    · rintro ⟨limit, keep, hmem⟩
      exact absurd hmem (hunopened limit keep)
    · intro q _ _
      rw [husage]
  · refine ⟨hagrees.failures, hagrees.describes, ?_, ?_, Ledger.accounts_run haccounts done, hreopen⟩
    · intro _
      obtain ⟨id, backups, harchive, -⟩ := hagrees.archive
      rw [harchive.stands.content?_eq]
      rfl
    · intro q hplace hq
      rw [content?, hagrees.elsewhere q hplace hq, ← content?, hsame q hplace]

/-- Three rotations in two seconds, with the log file opened twice: the limits change, and the
oldest of three backups goes. -/
theorem run_describes_three_rotations :
    let actions : List Action :=
      [.openWith 2 0, .write ⟨2024, 2, 29, 23, 59, 59⟩ "ab".toUTF8, .close, .openWith 1 2,
        .write ⟨2024, 2, 29, 23, 59, 59⟩ "cd".toUTF8, .write ⟨2024, 3, 1, 0, 0, 0⟩ "ef".toUTF8]
    (Ledger.mk "ef".toUTF8 ["ab".toUTF8, "cd".toUTF8] (some (1, 2))).Describes
      (Usage.run ⟨"app.log"⟩ (FileTree.empty.addFile ["app.log"] "old".toUTF8).1 actions).files []
        "app.log" := by
  intro actions
  have ht : (FileTree.empty.addFile ["app.log"] "old".toUTF8).1.WellFormed :=
    wellFormed_empty.addFile (by simp) (by simp [places, FileTree.empty]) _
  have hprepare : prepare (FileTree.empty.addFile ["app.log"] "old".toUTF8).1 ⟨"app.log"⟩ =
      ((FileTree.empty.addFile ["app.log"] "old".toUTF8).1, .ok ([] ++ ["app.log"], 0)) := rfl
  have hnone : ∀ q, isBackupPlace [] "app.log" q = true →
      (FileTree.empty.addFile ["app.log"] "old".toUTF8).1.node? q = none := by
    intro q hq
    rw [← Option.not_isSome_iff_eq_none, isSome_node?_iff]
    rintro (rfl | hmem)
    · exact absurd hq (by decide)
    · obtain rfl : q = ["app.log"] := by simpa [places, FileTree.empty, FileTree.addFile] using hmem
      exact absurd hq (by decide)
  have hlimits : ∀ limit keep, Action.openWith limit keep ∈ actions → 0 < limit := by
    intro limit keep hmem
    simp only [actions, List.mem_cons, Action.openWith.injEq, reduceCtorEq, List.not_mem_nil,
      false_or, or_false] at hmem
    omega
  exact (run_describes ht hprepare hnone hlimits (by decide) (by decide) (by decide)
    (List.prefix_refl actions)).2.1

/-- An empty write makes no backup, though the active file holds more than its limit. -/
theorem not_describes_stepEager :
    let actions : List Action :=
      [.openWith 1 0, .write ⟨2024, 2, 29, 23, 59, 59⟩ "ab".toUTF8,
        .write ⟨2024, 2, 29, 23, 59, 59⟩ "".toUTF8]
    (∀ s ∈ readings actions, s.IsReading) ∧ (readings actions).Pairwise (· ≤ ·) ∧
      (∀ s ∈ readings actions, RoomAt ⟨"app.log"⟩ "app.log" (readings actions) s) ∧
      ¬(actions.foldl Ledger.stepEager (Ledger.initial FileTree.empty ["app.log"])).Describes
        (Usage.run ⟨"app.log"⟩ FileTree.empty actions).files [] "app.log" := by
  intro actions
  refine ⟨by decide, by decide, by decide, fun h ↦ ?_⟩
  exact absurd (congrArg List.length h.backups) (by decide)

end Logbook.LogFile
