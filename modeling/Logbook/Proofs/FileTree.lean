import Logbook.FileTree
import Mathlib.Data.List.Nodup
import Mathlib.Tactic

/-!
# File trees that hold together

A tree is well formed (`FileTree.WellFormed`) if no place has two entries, the root has none, and
no two files share a number or have one that is still to be given. Every change keeps a tree well
formed: making directories and files, appending, renaming and removing.

The entries of a tree stand in the order in which they were made, so the effect of a change is
stated on the list of entries, around the entry it concerns (`nodes_append`, `nodes_rename`). What
stands elsewhere stays (`node?_of_replaced`, `node?_addFile_of_ne`, `node?_erase_of_ne`).

Resolving the path of a directory looks at nothing but directories: where no directory is lost it
leads to the same place (`resolve_of_directories`), and making it again changes nothing
(`createDirectoriesRev_of_resolve`).
-/

set_option autoImplicit false
set_option relaxedAutoImplicit false

namespace Logbook

/-- The number of a file. -/
def Node.id? : Node → Option Nat
  | .directory => none
  | .file id _ => some id

/-- A file with a number, when bytes are appended to it; everything else as it is. -/
def Node.extend (id : Nat) (bytes : ByteArray) : Node → Node
  | .directory => .directory
  | .file n content => .file n (if n = id then content ++ bytes else content)

theorem Node.extend_of_ne {node : Node} {id : Nat} (h : node.id? ≠ some id) (bytes : ByteArray) :
    node.extend id bytes = node := by
  cases node with
  | directory => rfl
  | file n content =>
    have hn : n ≠ id := fun heq ↦ h (congrArg some heq)
    rw [extend, if_neg hn]

namespace FileTree

variable {t t' : FileTree} {place target : Place} {node : Node} {before behind : List (Place × Node)}

/-- The places with an entry. -/
def places (t : FileTree) : List Place :=
  t.nodes.map Prod.fst

/-- The numbers of all files. -/
def ids (t : FileTree) : List Nat :=
  t.nodes.filterMap fun entry ↦ entry.2.id?

/-- No place has two entries and the root has none, and every file has a number of its own that was
given already. -/
structure WellFormed (t : FileTree) : Prop where
  rootless : [] ∉ t.places
  distinct : t.places.Nodup
  numbered : t.ids.Nodup
  given : ∀ id ∈ t.ids, id < t.next

theorem wellFormed_empty : empty.WellFormed :=
  ⟨List.not_mem_nil, List.nodup_nil, List.nodup_nil, by simp [ids, empty]⟩

/-! ### What stands at a place -/

theorem node?_of_ne_nil (t : FileTree) (hplace : place ≠ []) :
    t.node? place = t.nodes.lookup place := by
  rw [node?, if_neg hplace]

theorem isSome_node?_iff (t : FileTree) (place : Place) :
    (t.node? place).isSome = true ↔ place = [] ∨ place ∈ t.places := by
  by_cases hplace : place = []
  · simp [node?, hplace]
  · rw [node?_of_ne_nil t hplace, List.lookup_isSome_iff]
    simp only [hplace, false_or, places, List.mem_map, beq_iff_eq]
    constructor
    · rintro ⟨entry, hentry, rfl⟩
      exact ⟨entry, hentry, rfl⟩
    · rintro ⟨entry, hentry, rfl⟩
      exact ⟨entry, hentry, rfl⟩

theorem not_mem_places (h : t.node? place = none) : place ∉ t.places := by
  intro hmem
  have hsome := (isSome_node?_iff t place).mpr (Or.inr hmem)
  rw [h] at hsome
  exact absurd hsome Bool.false_ne_true

/-- Elsewhere an entry plays no part. -/
theorem lookup_around {q : Place} (h : q ≠ place) :
    (before ++ (place, node) :: behind).lookup q = (before ++ behind).lookup q := by
  have hne : (q == place) = false := beq_eq_false_iff_ne.mpr h
  rw [List.lookup_append, List.lookup_append, List.lookup_cons, hne]

theorem WellFormed.not_mem_around (h : t.WellFormed)
    (hnodes : t.nodes = before ++ (place, node) :: behind) :
    place ≠ [] ∧ place ∉ before.map Prod.fst ∧ place ∉ behind.map Prod.fst := by
  have hdistinct := h.distinct
  have hrootless := h.rootless
  rw [places, hnodes, List.map_append, List.map_cons] at hdistinct hrootless
  rw [List.nodup_middle, List.nodup_cons, List.mem_append, not_or] at hdistinct
  refine ⟨?_, hdistinct.1⟩
  rintro rfl
  exact hrootless (List.mem_append_right _ List.mem_cons_self)

theorem WellFormed.node?_around (h : t.WellFormed)
    (hnodes : t.nodes = before ++ (place, node) :: behind) : t.node? place = some node := by
  obtain ⟨hplace, hbefore, -⟩ := h.not_mem_around hnodes
  have hnone : before.lookup place = none := by
    rw [List.lookup_eq_none_iff]
    intro entry hentry
    refine bne_iff_ne.mpr ?_
    rintro rfl
    exact hbefore (List.mem_map_of_mem hentry)
  rw [node?_of_ne_nil t hplace, hnodes, List.lookup_append, hnone]
  simp

/-- What stands at a place has an entry there. -/
theorem exists_around (hplace : place ≠ []) (h : t.node? place = some node) :
    ∃ before behind, t.nodes = before ++ (place, node) :: behind := by
  rw [node?_of_ne_nil t hplace, List.lookup_eq_some_iff] at h
  obtain ⟨before, behind, hnodes, -⟩ := h
  exact ⟨before, behind, hnodes⟩

/-- Where an entry is replaced by another one, nothing changes at other places. -/
theorem node?_of_replaced {node' : Node} (hnodes : t.nodes = before ++ (place, node) :: behind)
    (hnodes' : t'.nodes = before ++ (target, node') :: behind) {q : Place} (hplace : q ≠ place)
    (htarget : q ≠ target) : t'.node? q = t.node? q := by
  by_cases hroot : q = []
  · simp [node?, hroot]
  · rw [node?_of_ne_nil _ hroot, node?_of_ne_nil _ hroot, hnodes, hnodes', lookup_around hplace,
      lookup_around htarget]

/-- A file made at a free place stands there. -/
theorem node?_addFile_self (hplace : place ≠ []) (hnode : t.node? place = none)
    (content : ByteArray) :
    (t.addFile place content).1.node? place = some (.file t.next content) := by
  rw [node?_of_ne_nil _ hplace] at hnode ⊢
  simp [addFile, List.lookup_append, hnode]

/-- A file that is made changes nothing elsewhere. -/
theorem node?_addFile_of_ne {q : Place} (hq : q ≠ place) (content : ByteArray) :
    (t.addFile place content).1.node? q = t.node? q := by
  by_cases hroot : q = []
  · rw [node?, node?, if_pos hroot, if_pos hroot]
  · rw [node?_of_ne_nil _ hroot, node?_of_ne_nil _ hroot, addFile, lookup_around hq,
      List.append_nil]

/-! ### Changes keep a tree well formed -/

/-- An entry may be replaced by one of the same number, at the same place or at a free one. -/
theorem WellFormed.replace (h : t.WellFormed) {node' : Node}
    (hnodes : t.nodes = before ++ (place, node) :: behind)
    (hnodes' : t'.nodes = before ++ (target, node') :: behind) (hnext : t'.next = t.next)
    (hid : node'.id? = node.id?) (htarget : target = place ∨ target ≠ [] ∧ target ∉ t.places) :
    t'.WellFormed := by
  obtain ⟨hplace, hbefore, hbehind⟩ := h.not_mem_around hnodes
  have hids : t'.ids = t.ids := by
    simp only [ids, hnodes, hnodes', List.filterMap_append, List.filterMap_cons, hid]
  have hrootless := h.rootless
  have hdistinct := h.distinct
  simp only [places, hnodes, List.map_append, List.map_cons] at hrootless hdistinct htarget
  rw [List.nodup_middle, List.nodup_cons] at hdistinct
  simp only [List.mem_append, List.mem_cons, not_or] at hrootless htarget hdistinct
  have hfree : target ≠ [] ∧ target ∉ before.map Prod.fst ∧ target ∉ behind.map Prod.fst := by
    rcases htarget with rfl | ⟨hroot, hb, -, hb'⟩
    · exact ⟨hplace, hbefore, hbehind⟩
    · exact ⟨hroot, hb, hb'⟩
  refine ⟨?_, ?_, hids ▸ h.numbered, fun id hmem ↦ hnext ▸ h.given id (hids ▸ hmem)⟩
  · rw [places, hnodes', List.map_append, List.map_cons, List.mem_append, List.mem_cons]
    rintro (hroot | hroot | hroot)
    · exact hrootless.1 hroot
    · exact hfree.1 hroot.symm
    · exact hrootless.2.2 hroot
  · rw [places, hnodes', List.map_append, List.map_cons, List.nodup_middle, List.nodup_cons,
      List.mem_append, not_or]
    exact ⟨hfree.2, hdistinct.2⟩

theorem WellFormed.addFile (h : t.WellFormed) (hplace : place ≠ []) (hfree : place ∉ t.places)
    (content : ByteArray) : (t.addFile place content).1.WellFormed := by
  have hplaces : (t.addFile place content).1.places = t.places ++ [place] := by
    simp [FileTree.addFile, places]
  have hids : (t.addFile place content).1.ids = t.ids ++ [t.next] := by
    simp [FileTree.addFile, ids, Node.id?]
  refine ⟨?_, ?_, ?_, ?_⟩
  · rw [hplaces, List.mem_append, List.mem_singleton]
    rintro (hroot | hroot)
    · exact h.rootless hroot
    · exact hplace hroot.symm
  · rw [hplaces, List.nodup_middle, List.append_nil, List.nodup_cons]
    exact ⟨hfree, h.distinct⟩
  · rw [hids, List.nodup_middle, List.append_nil, List.nodup_cons]
    exact ⟨fun hnext ↦ Nat.lt_irrefl _ (h.given _ hnext), h.numbered⟩
  · rw [hids]
    intro id hid
    show id < t.next + 1
    rcases List.mem_append.mp hid with hid | hid
    · exact Nat.lt_succ_of_lt (h.given id hid)
    · rw [List.mem_singleton.mp hid]
      exact Nat.lt_succ_self _

theorem WellFormed.addDirectory (h : t.WellFormed) (hplace : place ≠ []) (hfree : place ∉ t.places) :
    (t.addDirectory place).WellFormed := by
  have hplaces : (t.addDirectory place).places = t.places ++ [place] := by
    simp [FileTree.addDirectory, places]
  have hids : (t.addDirectory place).ids = t.ids := by
    simp [FileTree.addDirectory, ids, Node.id?]
  refine ⟨?_, ?_, hids ▸ h.numbered, hids ▸ h.given⟩
  · rw [hplaces, List.mem_append, List.mem_singleton]
    rintro (hroot | hroot)
    · exact h.rootless hroot
    · exact hplace hroot.symm
  · rw [hplaces, List.nodup_middle, List.append_nil, List.nodup_cons]
    exact ⟨hfree, h.distinct⟩

theorem WellFormed.erase (h : t.WellFormed) (place : Place) : (t.erase place).WellFormed := by
  have hplaces : (t.erase place).places.Sublist t.places := List.filter_sublist.map _
  have hids : (t.erase place).ids.Sublist t.ids := List.filter_sublist.filterMap _
  exact ⟨fun hroot ↦ h.rootless (hplaces.subset hroot), h.distinct.sublist hplaces,
    h.numbered.sublist hids, fun id hid ↦ h.given id (hids.subset hid)⟩

theorem node?_erase_of_ne {q r : Place} (h : r ≠ q) : (t.erase q).node? r = t.node? r := by
  by_cases hroot : r = []
  · simp [node?, hroot]
  rw [node?_of_ne_nil _ hroot, node?_of_ne_nil _ hroot, FileTree.erase]
  induction t.nodes with
  | nil => rfl
  | cons entry rest ih =>
    obtain ⟨s, node⟩ := entry
    by_cases hs : s = q
    · have hrs : (r == s) = false := beq_eq_false_iff_ne.mpr fun heq ↦ h (heq.trans hs)
      rw [List.filter_cons_of_neg (by simpa using hs), ih, List.lookup_cons, hrs]
    · rw [List.filter_cons_of_pos (by simpa using hs), List.lookup_cons, List.lookup_cons, ih]

theorem node?_erase_self {q : Place} (h : q ≠ []) : (t.erase q).node? q = none := by
  rw [← Option.not_isSome_iff_eq_none, isSome_node?_iff, not_or]
  refine ⟨h, fun hmem ↦ ?_⟩
  obtain ⟨entry, hentry, hfst⟩ := List.mem_map.mp hmem
  exact absurd hfst (by simpa using (List.mem_filter.mp hentry).2)

/-! ### Appending and renaming -/

theorem append_eq (t : FileTree) (id : Nat) (bytes : ByteArray) : t.append id bytes =
    { t with nodes := t.nodes.map fun entry ↦ (entry.1, entry.2.extend id bytes) } := by
  unfold append
  congr 1
  refine List.map_congr_left fun entry _ ↦ ?_
  obtain ⟨place, node⟩ := entry
  cases node with
  | directory => rfl
  | file n content =>
    by_cases hn : n = id <;> simp [Node.extend, hn]

/-- Only the file with the number grows. -/
theorem nodes_append (h : t.WellFormed) {id : Nat} {content : ByteArray}
    (hnodes : t.nodes = before ++ (place, .file id content) :: behind) (bytes : ByteArray) :
    (t.append id bytes).nodes = before ++ (place, .file id (content ++ bytes)) :: behind := by
  have hnumbered := h.numbered
  rw [ids, hnodes, List.filterMap_append,
    List.filterMap_cons_some (f := fun entry : Place × Node ↦ entry.2.id?) (b := id) rfl,
    List.nodup_middle, List.nodup_cons, List.mem_append, not_or] at hnumbered
  have hsame : ∀ entries : List (Place × Node), id ∉ entries.filterMap (fun e ↦ e.2.id?) →
      entries.map (fun entry ↦ (entry.1, entry.2.extend id bytes)) = entries := by
    intro entries hid
    refine (List.map_congr_left fun entry hentry ↦ ?_).trans (List.map_id entries)
    have hne : entry.2.id? ≠ some id := fun heq ↦ hid (List.mem_filterMap.mpr ⟨entry, hentry, heq⟩)
    rw [Node.extend_of_ne hne]
    rfl
  rw [append_eq]
  show t.nodes.map (fun entry ↦ (entry.1, entry.2.extend id bytes)) = _
  rw [hnodes, List.map_append, List.map_cons, hsame before hnumbered.1.1,
    hsame behind hnumbered.1.2, Node.extend, if_pos rfl]

/-- What a renaming of a file that succeeds has done: the entry stands under the other name. -/
theorem nodes_rename (h : t.WellFormed) {directory : Place} {source target : String} {id : Nat}
    {content : ByteArray}
    (hnodes : t.nodes = before ++ (directory ++ [source], .file id content) :: behind)
    (path : FilePath) :
    t.rename directory source path target =
      if FilePath.isLongName source || FilePath.isLongName target || path.isLong then
        .error .nameTooLong
      else if (t.node? (directory ++ [target])).isSome then .error .alreadyExists
      else .ok { t with
        nodes := before ++ (directory ++ [target], .file id content) :: behind } := by
  obtain ⟨-, hbefore, hbehind⟩ := h.not_mem_around hnodes
  -- A change of the entries that leaves all but the renamed one as they are keeps both parts.
  have hkept : ∀ (change : Place × Node → Place × Node) (entries : List (Place × Node)),
      directory ++ [source] ∉ entries.map Prod.fst →
      (∀ entry, entry.1 ≠ directory ++ [source] → change entry = entry) →
      entries.map change = entries := by
    intro change entries hsource hchange
    refine (List.map_congr_left fun entry hentry ↦ ?_).trans (List.map_id entries)
    apply hchange
    intro heq
    exact hsource (heq ▸ List.mem_map_of_mem hentry)
  rw [rename, h.node?_around hnodes]
  simp only
  rw [hnodes, List.map_append, List.map_cons, hkept _ before hbefore, hkept _ behind hbehind]
  · simp
  · intro entry hne
    simp [hne]
  · intro entry hne
    simp [hne]

/-- A file under a short name and on a short path can be removed. -/
theorem removeFile_of_file {directory : Place} {name : String} {path : FilePath} {id : Nat}
    {content : ByteArray} (hname : FilePath.isLongName name = false) (hpath : path.isLong = false)
    (h : t.node? (directory ++ [name]) = some (.file id content)) :
    t.removeFile path (directory ++ [name]) = .ok (t.erase (directory ++ [name])) := by
  rw [removeFile, List.getLast?_append_of_ne_nil _ (by simp), h]
  simp [hname, hpath]

/-- What is removed is a file. -/
theorem removeFile_eq_ok {path : FilePath} (h : t.removeFile path place = .ok t') :
    (t.content? place).isSome = true ∧ t' = t.erase place := by
  unfold removeFile at h
  split_ifs at h
  split at h
  · exact absurd h (by simp)
  · exact absurd h (by simp)
  · next id content hnode =>
    rw [content?, hnode]
    exact ⟨rfl, (Except.ok.inj h).symm⟩

/-! ### Paths of directories -/

theorem follow_eq_ok {name : String} {next : Place} (h : t.follow place name = .ok next) :
    t.isDirectory place = true ∧ (name = ".." ∧ next = place.dropLast ∨
      name ≠ ".." ∧ FilePath.isLongName name = false ∧ (t.node? (place ++ [name])).isSome = true ∧
        next = place ++ [name]) := by
  unfold follow at h
  split_ifs at h with hdirectory hdots hlong hsome
  · exact ⟨by simpa using hdirectory, Or.inl ⟨hdots, (Except.ok.inj h).symm⟩⟩
  · exact ⟨by simpa using hdirectory,
      Or.inr ⟨hdots, by simpa using hlong, hsome, (Except.ok.inj h).symm⟩⟩

/-- A directory has no bytes. -/
theorem content?_of_isDirectory (h : t.isDirectory place = true) : t.content? place = none := by
  unfold isDirectory at h
  split at h
  · next hnode => rw [content?, hnode]
  · exact absurd h Bool.false_ne_true

theorem isSome_node?_of_isDirectory (h : t.isDirectory place = true) :
    (t.node? place).isSome = true := by
  unfold isDirectory at h
  split at h
  · next hnode => rw [hnode]; rfl
  · exact absurd h Bool.false_ne_true

/-- A step of a path that goes on exists if there are at least as many directories. -/
theorem follow_of_directories (hkeep : ∀ q, t.isDirectory q = true → t'.isDirectory q = true)
    {name : String} {next : Place} (h : t.follow place name = .ok next)
    (hnext : t.isDirectory next = true) : t'.follow place name = .ok next := by
  obtain ⟨hdirectory, hstep⟩ := follow_eq_ok h
  unfold follow
  rcases hstep with ⟨hdots, rfl⟩ | ⟨hdots, hlong, -, rfl⟩
  · simp [hkeep _ hdirectory, hdots]
  · simp [hkeep _ hdirectory, hdots, hlong, isSome_node?_of_isDirectory (hkeep _ hnext)]

theorem resolveFrom_of_directories
    (hkeep : ∀ q, t.isDirectory q = true → t'.isDirectory q = true) (segments : List String) :
    ∀ start, segments.foldlM t.follow start = .ok place → t.isDirectory place = true →
      segments.foldlM t'.follow start = .ok place ∧ t.isDirectory start = true := by
  induction segments with
  | nil =>
    intro start h hplace
    have hstart : start = place := Except.ok.inj h
    exact ⟨h, hstart ▸ hplace⟩
  | cons name rest ih =>
    intro start h hplace
    rw [List.foldlM_cons] at h
    cases hnext : t.follow start name with
    | error e => rw [hnext] at h; exact absurd h (by simp [bind, Except.bind])
    | ok next =>
      rw [hnext] at h
      obtain ⟨hrest, hdirectory⟩ := ih next h hplace
      refine ⟨?_, (follow_eq_ok hnext).1⟩
      rw [List.foldlM_cons, follow_of_directories hkeep hnext hdirectory]
      exact hrest

/-- The path of a directory leads to the same place where no directory is lost. -/
theorem resolve_of_directories (hkeep : ∀ q, t.isDirectory q = true → t'.isDirectory q = true)
    {segments : List String} (h : t.resolve segments = .ok place)
    (hplace : t.isDirectory place = true) : t'.resolve segments = .ok place :=
  (resolveFrom_of_directories hkeep segments [] h hplace).1

/-- A directory that exists is not made again. -/
theorem createDirectory_of_resolve {segments : List String} (h : t.resolve segments = .ok place) :
    t.createDirectory segments = .error .alreadyExists := by
  rcases List.eq_nil_or_concat segments with rfl | ⟨above, name, rfl⟩
  · rfl
  · rw [List.concat_eq_append] at h ⊢
    rw [resolve, List.foldlM_append] at h
    cases hparent : above.foldlM t.follow [] with
    | error e => rw [hparent] at h; exact absurd h (by simp [bind, Except.bind])
    | ok parent =>
      rw [hparent] at h
      have hstep : t.follow parent name = .ok place := by
        cases hlast : t.follow parent name with
        | error e => simp [bind, Except.bind, hlast] at h
        | ok next => simpa [bind, Except.bind, pure, Except.pure, hlast] using h
      obtain ⟨hdirectory, hname⟩ := follow_eq_ok hstep
      have hresolve : t.resolve above = .ok parent := hparent
      unfold createDirectory
      simp only [List.getLast?_append_of_ne_nil _ (List.cons_ne_nil name []),
        List.getLast?_singleton, List.dropLast_concat, hresolve, bind, Except.bind, hdirectory,
        Bool.not_true, Bool.false_eq_true, ↓reduceIte]
      rcases hname with ⟨hdots, -⟩ | ⟨hdots, hlong, hsome, -⟩
      · simp [hdots]
      · simp [hdots, hlong, hsome]

/-- Making the directories of a path again changes nothing. -/
theorem createDirectoriesRev_of_resolve {segments : List String}
    (h : t.resolve segments = .ok place) (hplace : t.isDirectory place = true) :
    t.createDirectoriesRev segments.reverse = (t, none) := by
  have hleads : t.leadsToDirectory segments = true := by
    rw [leadsToDirectory, h]
    exact hplace
  cases hreverse : segments.reverse with
  | nil => rfl
  | cons name above =>
    have hsegments : (name :: above).reverse = segments := by
      rw [← hreverse, List.reverse_reverse]
    unfold createDirectoriesRev
    simp only [hsegments, createDirectory_of_resolve h, hleads, ↓reduceIte]

end FileTree

end Logbook
