import Logbook.Proofs.FileTree
import Logbook.Rotation.LogFile

/-!
# Opening the file of a path

Opening a log file makes the directories above it and the file itself where they are missing, and
leaves everything that is there (`prepare_keeps`). The path of a file that was opened
leads to the file's place (`Reaches`), and goes on to do so while no directory is lost: opening it
again then changes nothing at all (`Reaches.prepare_eq`).
-/

set_option autoImplicit false
set_option relaxedAutoImplicit false

namespace Logbook

namespace FileTree

variable {t t' : FileTree} {place : Place}

/-! ### Making directories -/

/-- The second tree has the files of the first, byte for byte. -/
def SameFiles (t t' : FileTree) : Prop :=
  ∀ q, t'.content? q = t.content? q

/-- Everything that stands in the first tree stands in the second. -/
def Extends (t t' : FileTree) : Prop :=
  ∀ q node, t.node? q = some node → t'.node? q = some node

theorem Extends.trans {t'' : FileTree} (h : Extends t t') (h' : Extends t' t'') : Extends t t'' :=
  fun q node hnode ↦ h' q node (h q node hnode)

/-- More entries take nothing away. -/
theorem extends_append {more : List (Place × Node)} (h : t'.nodes = t.nodes ++ more) :
    Extends t t' := by
  intro q node hnode
  by_cases hroot : q = []
  · rwa [node?, if_pos hroot] at hnode ⊢
  · rw [node?_of_ne_nil _ hroot] at hnode ⊢
    rw [h, List.lookup_append, hnode]
    rfl

theorem Extends.isDirectory (h : Extends t t') (hplace : t.isDirectory place = true) :
    t'.isDirectory place = true := by
  unfold FileTree.isDirectory at hplace ⊢
  split at hplace
  · next hnode => rw [h place _ hnode]
  · exact absurd hplace Bool.false_ne_true

/-- A directory that is made stands at a place that was free. -/
theorem createDirectory_eq_ok {segments : List String} (h : t.createDirectory segments = .ok t') :
    ∃ q, q ≠ [] ∧ q ∉ t.places ∧ t' = t.addDirectory q := by
  unfold createDirectory at h
  split at h
  · exact absurd h (by simp)
  · next name _ =>
    cases hparent : t.resolve segments.dropLast with
    | error e => rw [hparent] at h; exact absurd h (by simp [bind, Except.bind])
    | ok parent =>
      simp only [hparent, bind, Except.bind] at h
      split_ifs at h with _ _ _ hsome
      have hfree : ¬(parent ++ [name] = [] ∨ parent ++ [name] ∈ t.places) := by
        rwa [← isSome_node?_iff]
      rw [not_or] at hfree
      exact ⟨parent ++ [name], hfree.1, hfree.2, (Except.ok.inj h).symm⟩

theorem sameFiles_addDirectory (hplace : place ≠ []) (hfree : place ∉ t.places) :
    SameFiles t (t.addDirectory place) := by
  intro q
  by_cases hroot : q = []
  · rw [content?, content?, node?, node?, if_pos hroot, if_pos hroot]
  · have hlookup : (t.addDirectory place).nodes.lookup q =
        (t.nodes.lookup q).or (if q = place then some .directory else none) := by
      by_cases hq : q = place <;>
        simp [addDirectory, List.lookup_append, List.lookup_cons, hq, beq_eq_false_iff_ne.mpr]
    have hnone : t.nodes.lookup place = none := by
      rw [← node?_of_ne_nil t hplace, ← Option.not_isSome_iff_eq_none, isSome_node?_iff, not_or]
      exact ⟨hplace, hfree⟩
    rw [content?, content?, node?_of_ne_nil _ hroot, node?_of_ne_nil _ hroot, hlookup]
    by_cases hq : q = place
    · rw [hq, hnone]
      simp
    · simp [hq]

/-- Making the directories of a path makes one after the other, each at a free place, also where it
fails midway: what every single one keeps is kept by all. -/
theorem createDirectoriesRev_rel {R : FileTree → FileTree → Prop} (hrefl : ∀ t, R t t)
    (htrans : ∀ {t t' t''}, R t t' → R t' t'' → R t t'')
    (hone : ∀ (t : FileTree) (q : Place), q ≠ [] → q ∉ t.places → R t (t.addDirectory q))
    (segments : List String) : ∀ t, R t (t.createDirectoriesRev segments).1 := by
  have hstep : ∀ {t made : FileTree} {names : List String},
      t.createDirectory names = .ok made → R t made := by
    intro t made names hmade
    obtain ⟨q, hq, hfree, rfl⟩ := createDirectory_eq_ok hmade
    exact hone t q hq hfree
  induction segments with
  | nil => exact hrefl
  | cons name above ih =>
    intro t
    unfold createDirectoriesRev
    dsimp only
    split
    · next made hmade => exact hstep hmade
    · split
      · next made e habove =>
        have hrest := ih t
        rwa [habove] at hrest
      · next made habove =>
        have hrest := ih t
        rw [habove] at hrest
        split
        · next all hall => exact htrans hrest (hstep hall)
        · exact hrest
    · exact hrefl t

/-- Making the directories of a path adds directories only, also where it fails midway. -/
theorem createDirectoriesRev_keeps (segments : List String) (h : t.WellFormed) :
    (t.createDirectoriesRev segments).1.WellFormed ∧
      SameFiles t (t.createDirectoriesRev segments).1 ∧
      Extends t (t.createDirectoriesRev segments).1 := by
  refine createDirectoriesRev_rel
    (R := fun t t' ↦ t.WellFormed → t'.WellFormed ∧ SameFiles t t' ∧ Extends t t')
    (fun t h ↦ ⟨h, fun _ ↦ rfl, fun _ _ hnode ↦ hnode⟩) ?_ ?_ segments t h
  · intro t t' t'' hfirst hthen h
    obtain ⟨hwell, hsame, hextends⟩ := hfirst h
    obtain ⟨hwell', hsame', hextends'⟩ := hthen hwell
    exact ⟨hwell', fun q ↦ (hsame' q).trans (hsame q), hextends.trans hextends'⟩
  · intro t q hq hfree h
    exact ⟨h.addDirectory hq hfree, sameFiles_addDirectory hq hfree, extends_append rfl⟩

theorem createParents_keeps (h : t.WellFormed) (path : FilePath) :
    (t.createParents path).1.WellFormed ∧ SameFiles t (t.createParents path).1 ∧
      Extends t (t.createParents path).1 := by
  unfold createParents
  split
  · exact ⟨h, fun _ ↦ rfl, fun _ _ hnode ↦ hnode⟩
  · exact createDirectoriesRev_keeps _ h

/-- The directories above a path are made one after the other, too, in every tree. -/
theorem createParents_rel {R : FileTree → FileTree → Prop} (hrefl : ∀ t, R t t)
    (htrans : ∀ {t t' t''}, R t t' → R t' t'' → R t t'')
    (hone : ∀ (t : FileTree) (q : Place), q ≠ [] → q ∉ t.places → R t (t.addDirectory q))
    (t : FileTree) (path : FilePath) : R t (t.createParents path).1 := by
  unfold createParents
  split
  · exact hrefl t
  · exact createDirectoriesRev_rel hrefl htrans hone _ t

/-- The directories above a path are made without a change to any file. -/
theorem sameFiles_createParents (t : FileTree) (path : FilePath) :
    SameFiles t (t.createParents path).1 :=
  createParents_rel (fun _ _ ↦ rfl) (fun h h' q ↦ (h' q).trans (h q))
    (fun _ _ hq hfree ↦ sameFiles_addDirectory hq hfree) t path

/-- The directories above a path are made without a loss. -/
theorem extends_createParents (t : FileTree) (path : FilePath) :
    Extends t (t.createParents path).1 :=
  createParents_rel (R := Extends) (fun _ _ _ hnode ↦ hnode) (fun h h' ↦ h.trans h')
    (fun _ q _ _ ↦ @extends_append _ _ [(q, .directory)] rfl) t path

end FileTree

namespace LogFile

open FileTree

variable {t t' opened : FileTree} {path : FilePath} {directory place : Place} {name : String}
  {id : Nat}

/-! ### The path of a file -/

/-- The path leads to a file of this name in this directory. -/
structure Reaches (t : FileTree) (path : FilePath) (directory : Place) (name : String) : Prop where
  accepted : refused? path = none
  parentAccepted : refused? path.parent = none
  nonempty : path.isEmpty = false
  last : path.segments.getLast? = some name
  above : t.resolve path.segments.dropLast = .ok directory
  isDirectory : t.isDirectory directory = true
  ending : path.ending = .name
  notUp : name ≠ ".."
  short : FilePath.isLongName name = false

/-- A path goes on leading to its file while no directory is lost. -/
theorem Reaches.of_directories (h : Reaches t path directory name)
    (hkeep : ∀ q, t.isDirectory q = true → t'.isDirectory q = true) :
    Reaches t' path directory name :=
  { h with
    above := resolve_of_directories hkeep h.above h.isDirectory
    isDirectory := hkeep directory h.isDirectory }

/-- The directories above a file are there already. -/
theorem Reaches.createParents_eq (h : Reaches t path directory name) :
    t.createParents path = (t, none) := by
  rw [createParents, h.parentAccepted]
  exact createDirectoriesRev_of_resolve h.above h.isDirectory

/-- Opening a file that is there changes nothing. -/
theorem Reaches.prepare_eq (h : Reaches t path directory name) {content : ByteArray}
    (hfile : t.node? (directory ++ [name]) = some (.file id content)) :
    prepare t path = (t, .ok (directory ++ [name], id)) := by
  have hopen : t.openAppend path = .ok (t, directory ++ [name], id) := by
    simp [openAppend, h.accepted, h.nonempty, h.last, h.above, bind, Except.bind, h.isDirectory,
      h.notUp, h.ending, h.short, hfile]
  rw [prepare, h.createParents_eq]
  simp only [hopen]

/-- A file that is there keeps its directory. It may be opened again on the way. -/
theorem Reaches.restore_eq {f : LogFile} {content : ByteArray}
    (h : Reaches t f.path f.directory f.name) (hfile : t.node? f.place = some (.file id content)) :
    restore t f = (t, some f) ∨ restore t f = (t, some { f with handle := some id }) := by
  unfold restore
  split_ifs
  · exact Or.inl rfl
  · refine Or.inr ?_
    rw [h.createParents_eq]
    simp [reopen, hfile]

/-- What opening for appending leaves: the path reaches its file, which is new and empty if it was
not there. -/
theorem openAppend_eq_ok (hparent : refused? path.parent = none)
    (h : t.openAppend path = .ok (opened, place, id)) :
    ∃ directory name, place = directory ++ [name] ∧ Reaches t path directory name ∧
      ((∃ content, t.node? place = some (.file id content)) ∧ opened = t ∨
        t.node? place = none ∧ id = t.next ∧ opened = (t.addFile place ByteArray.empty).1) := by
  unfold openAppend at h
  split at h
  · exact absurd h (by simp)
  next haccepted =>
  split_ifs at h with hempty
  split at h
  · exact absurd h (by simp)
  next name hlast =>
  cases habove : t.resolve path.segments.dropLast with
  | error e => rw [habove] at h; exact absurd h (by simp [bind, Except.bind])
  | ok parent =>
    simp only [habove, bind, Except.bind] at h
    cases hending : path.ending with
    | slash =>
      rw [hending] at h
      split_ifs at h
    | dot =>
      rw [hending] at h
      cases hnext : t.follow parent name <;> simp only [hnext] at h <;> split_ifs at h
    | name =>
      simp only [hending] at h
      split_ifs at h with hdirectory hup hlong
      have hreaches : Reaches t path parent name :=
        ⟨haccepted, hparent, by simpa using hempty, hlast, habove, by simpa using hdirectory,
          hending, hup, by simpa using hlong⟩
      split at h
      · exact absurd h (by simp)
      · next n content hnode =>
        simp only [Except.ok.injEq, Prod.mk.injEq] at h
        obtain ⟨rfl, rfl, rfl⟩ := h
        exact ⟨parent, name, rfl, hreaches, Or.inl ⟨⟨content, hnode⟩, rfl⟩⟩
      · next hnode =>
        simp only [Except.ok.injEq, Prod.mk.injEq] at h
        obtain ⟨rfl, rfl, rfl⟩ := h
        exact ⟨parent, name, rfl, hreaches, Or.inr ⟨hnode, rfl, rfl⟩⟩

/-- Opening leaves everything that is there, also where it fails midway. -/
theorem prepare_keeps (h : t.WellFormed) (path : FilePath) :
    (prepare t path).1.WellFormed ∧ Extends t (prepare t path).1 := by
  obtain ⟨hwell, -, hextends⟩ := createParents_keeps h path
  have hparent : (t.createParents path).2 = none → refused? path.parent = none := by
    unfold createParents
    cases refused? path.parent <;> simp
  rcases hmade : t.createParents path with ⟨made, failed⟩
  rw [hmade] at hwell hextends hparent
  cases failed with
  | some e =>
    rw [prepare, hmade]
    exact ⟨hwell, hextends⟩
  | none =>
    cases hopen : made.openAppend path with
    | error e =>
      rw [prepare, hmade]
      simp only [hopen]
      exact ⟨hwell, hextends⟩
    | ok file =>
      obtain ⟨opened, place, id⟩ := file
      rw [prepare, hmade]
      simp only [hopen]
      obtain ⟨directory, name, rfl, -, hcase⟩ := openAppend_eq_ok (hparent rfl) hopen
      rcases hcase with ⟨-, rfl⟩ | ⟨hnode, rfl, rfl⟩
      · exact ⟨hwell, hextends⟩
      · exact ⟨hwell.addFile (by simp) (not_mem_places hnode) ByteArray.empty,
          hextends.trans (extends_append rfl)⟩

/-- Opening a log file for the first time: the path reaches the file, which holds what it held
before, and no other file has changed. -/
theorem prepare_opens (hprepare : prepare t path = (opened, .ok (place, id))) :
    ∃ directory name, place = directory ++ [name] ∧ Reaches opened path directory name ∧
      opened.node? place = some (.file id ((t.content? place).getD ByteArray.empty)) ∧
      ∀ q, q ≠ place → opened.content? q = t.content? q := by
  have hsame := sameFiles_createParents t path
  have hparent : refused? path.parent = none := by
    cases hrefused : refused? path.parent with
    | none => rfl
    | some e =>
      rw [prepare, createParents, hrefused] at hprepare
      exact absurd (congrArg Prod.snd hprepare) (by simp)
  unfold prepare at hprepare
  split at hprepare
  · exact absurd (congrArg Prod.snd hprepare) (by simp)
  next made hmade =>
  rw [hmade] at hsame
  split at hprepare
  · exact absurd (congrArg Prod.snd hprepare) (by simp)
  next file atPlace n hopen =>
  simp only [Prod.mk.injEq, Except.ok.injEq] at hprepare
  obtain ⟨rfl, rfl, rfl⟩ := hprepare
  obtain ⟨directory, name, rfl, hreaches, hcase⟩ := openAppend_eq_ok hparent hopen
  have hplace : directory ++ [name] ≠ [] := by simp
  rcases hcase with ⟨⟨content, hnode⟩, rfl⟩ | ⟨hnode, rfl, rfl⟩
  · refine ⟨directory, name, rfl, hreaches, ?_, fun q _ ↦ hsame q⟩
    rw [← hsame, content?, hnode]
    rfl
  · refine ⟨directory, name, rfl, hreaches.of_directories fun q hq ↦ ?_, ?_, fun q hq ↦ ?_⟩
    · have hne : q ≠ directory ++ [name] := by
        rintro rfl
        rw [FileTree.isDirectory, hnode] at hq
        exact absurd hq (by simp)
      rwa [FileTree.isDirectory, node?_addFile_of_ne hne]
    · rw [← hsame, content?, hnode]
      exact node?_addFile_self hplace hnode ByteArray.empty
    · rw [← hsame, content?, content?, node?_addFile_of_ne hq]

/-- Opening a log file for the first time leaves the tree well formed too. -/
theorem prepare_eq_ok (h : t.WellFormed) (hprepare : prepare t path = (opened, .ok (place, id))) :
    ∃ directory name, place = directory ++ [name] ∧ Reaches opened path directory name ∧
      opened.WellFormed ∧
      opened.node? place = some (.file id ((t.content? place).getD ByteArray.empty)) ∧
      ∀ q, q ≠ place → opened.content? q = t.content? q := by
  obtain ⟨directory, name, hplace, hreaches, hnode, hsame⟩ := prepare_opens hprepare
  have hwell := (prepare_keeps h path).1
  rw [hprepare] at hwell
  exact ⟨directory, name, hplace, hreaches, hwell, hnode, hsame⟩

/-- Where opening fails, the directories above the path have been made, and nothing else. -/
theorem eq_createParents_of_prepare_error {e : IoError}
    (hprepare : prepare t path = (opened, .error e)) : opened = (t.createParents path).1 := by
  unfold prepare at hprepare
  split at hprepare
  · next made _ hmade => rw [hmade, (Prod.mk.inj hprepare).1]
  next made hmade =>
  split at hprepare
  · rw [hmade, (Prod.mk.inj hprepare).1]
  · exact absurd (congrArg Prod.snd hprepare) (by simp)

theorem sameFiles_of_prepare_error {e : IoError} (hprepare : prepare t path = (opened, .error e)) :
    SameFiles t opened :=
  eq_createParents_of_prepare_error hprepare ▸ sameFiles_createParents t path

/-- A path that reaches a file is the path of that file's place. -/
theorem Reaches.placeOf?_eq (h : Reaches t path directory name)
    (hfile : (t.content? (directory ++ [name])).isSome = true) :
    t.placeOf? path = some (directory ++ [name]) := by
  have hnode : (t.node? (directory ++ [name])).isSome = true := by
    unfold content? at hfile
    split at hfile
    · next hnode => rw [hnode]; rfl
    · exact absurd hfile (by simp)
  have hresolve : t.resolve path.segments = .ok (directory ++ [name]) := by
    obtain ⟨front, hfront⟩ := List.getLast?_eq_some_iff.mp h.last
    have habove := h.above
    rw [hfront, List.dropLast_concat] at habove
    rw [hfront, resolve, List.foldlM_append, ← resolve, habove]
    simp [follow, h.isDirectory, h.notUp, h.short, hnode, bind, Except.bind, pure, Except.pure]
  rw [placeOf?, hresolve]
  simp [hfile, h.ending]

/-- What an opening that succeeds has opened. -/
theorem openAt_eq_ok (h : t.WellFormed) {limit keep : Nat} {f : LogFile}
    (hopen : openAt t path limit keep = (opened, .ok f)) :
    ∃ directory name id, prepare t path = (opened, .ok (directory ++ [name], id)) ∧
      f = start opened path (directory ++ [name]) id limit keep ∧
      Reaches opened path directory name := by
  unfold openAt at hopen
  split at hopen
  · exact absurd (congrArg Prod.snd hopen) (by simp)
  next left place id hprepare =>
  split_ifs at hopen
  · exact absurd (congrArg Prod.snd hopen) (by simp)
  simp only [Prod.mk.injEq, Except.ok.injEq] at hopen
  obtain ⟨rfl, rfl⟩ := hopen
  obtain ⟨directory, name, rfl, hreaches, -⟩ := prepare_eq_ok h hprepare
  exact ⟨directory, name, id, hprepare, rfl, hreaches⟩

end LogFile

end Logbook
