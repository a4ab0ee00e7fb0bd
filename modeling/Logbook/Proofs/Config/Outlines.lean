import Logbook.Proofs.Config.Fields
import Logbook.Proofs.Toml.DistinctKeys
import Logbook.Proofs.Toml.Documents

/-!
# Outlines of a configuration

A configuration is written as tables of its parts, each with some of its settings (`Outline`). In
whatever order the tables come, the document that is read presents each part with the settings it
was written with (`Presents`): this holds at the start, and every table adds its part
(`Presents.add_part`), so it holds at the end (`exists_document`). A table of the log file may stand
before or behind that of logging, which it belongs to.
-/

set_option autoImplicit false
set_option relaxedAutoImplicit false

namespace Logbook.Config

open Toml (Assembly Entries Line finishEntries keys_finishEntries get?_finishEntries)

/-! ### What a document presents -/

/-- The names that a header gives a part. -/
def Part.path : Part → List String
  | listener => ["listener"]
  | logging => ["logging"]
  | file => ["logging", "file"]

/-- What stands under the name of logging, from the entries of logging and of the log file. -/
inductive LoggingEntry : Option Entries → Option Entries → Option Toml.Entry → Prop
  | absent : LoggingEntry none none none
  | implied (file : Entries) :
      LoggingEntry none (some file) (some (.table .implied [("file", .table .explicit file)]))
  | alone (logging : Entries) :
      LoggingEntry (some logging) none (some (.table .explicit logging))
  | before (logging file : Entries) :
      LoggingEntry (some logging) (some file)
        (some (.table .explicit (("file", .table .explicit file) :: logging)))
  | behind (logging file : Entries) :
      LoggingEntry (some logging) (some file)
        (some (.table .explicit (logging ++ [("file", .table .explicit file)])))

/-- The tables of a document have the entries of the parts. -/
structure Presents (parts : Part → Option Entries) (root : Entries) : Prop where
  distinct : root.keys.Nodup
  listener : root.get? "listener" = (parts .listener).map (.table .explicit)
  logging : LoggingEntry (parts .logging) (parts .file) (root.get? "logging")
  noFile : ∀ entries ∈ parts .logging, "file" ∉ entries.keys

theorem presents_nil : Presents (fun _ ↦ none) [] where
  distinct := List.nodup_nil
  listener := rfl
  logging := .absent
  noFile := by simp

/-! ### One more part -/

open Function (update)

variable {parts : Part → Option Entries} {root entries : Entries} {a : Assembly}

/-- A header can open the table of a part, and with these entries in it the document presents the
part with them. -/
def Opens (parts : Part → Option Entries) (a : Assembly) (part : Part) (entries : Entries) : Prop :=
  ∃ b root', a.header part.path = some b ∧ (b.current.keys ++ entries.keys).Nodup ∧
    Assembly.settle { b with current := b.current ++ entries } = some root' ∧
    Presents (update parts part (some entries)) root'

theorem Presents.opens_listener (h : Presents parts root) (ha : a.settle = some root)
    (hnew : parts .listener = none) (hnodup : entries.keys.Nodup) :
    Opens parts a .listener entries := by
  have hget : root.get? "listener" = none := by rw [h.listener, hnew, Option.map_none]
  have hheld : Assembly.implied? root "listener" = some [] := by rw [Assembly.implied?, hget]
  refine ⟨_, _, Assembly.header_top ha hheld, hnodup, Assembly.settle_top, ?_⟩
  constructor
  · exact Keyed.nodup_keys_put _ _ _ (Keyed.nodup_keys_erase _ h.distinct)
  · simp
  · simpa using h.logging
  · simpa using h.noFile

/-- A table of logging takes over the table of the log file that came before it. -/
theorem Presents.opens_logging (h : Presents parts root) (ha : a.settle = some root)
    (hnew : parts .logging = none) (hnodup : entries.keys.Nodup) (hfile : "file" ∉ entries.keys) :
    Opens parts a .logging entries := by
  have hdistinct := Keyed.nodup_keys_erase "logging" h.distinct
  have hlistener := h.listener
  have hlogging := h.logging
  rw [hnew] at hlogging
  generalize hparts : parts .file = file at hlogging
  generalize hget : root.get? "logging" = entry at hlogging
  cases hlogging with
  | absent =>
    have hheld : Assembly.implied? root "logging" = some [] := by rw [Assembly.implied?, hget]
    refine ⟨_, _, Assembly.header_top ha hheld, hnodup, Assembly.settle_top, ?_⟩
    constructor
    · exact Keyed.nodup_keys_put _ _ _ hdistinct
    · simpa using hlistener
    · simpa [hparts] using .alone entries
    · simpa using hfile
  | implied file =>
    have hheld : Assembly.implied? root "logging" = some [("file", .table .explicit file)] := by
      rw [Assembly.implied?, hget]
    refine ⟨_, _, Assembly.header_top ha hheld, List.nodup_cons.mpr ⟨hfile, hnodup⟩,
      Assembly.settle_top, ?_⟩
    constructor
    · exact Keyed.nodup_keys_put _ _ _ hdistinct
    · simpa using hlistener
    · simpa [hparts] using .before entries file
    · simpa using hfile

/-- A table of the log file goes into that of logging, which it makes where it is missing. -/
theorem Presents.opens_file (h : Presents parts root) (ha : a.settle = some root)
    (hnew : parts .file = none) (hnodup : entries.keys.Nodup) : Opens parts a .file entries := by
  have hlistener := h.listener
  have hlogging := h.logging
  have hnoFile := h.noFile
  rw [hnew] at hlogging
  generalize hparts : parts .logging = logging at hlogging hnoFile
  generalize hget : root.get? "logging" = entry at hlogging
  cases hlogging with
  | absent =>
    have hput : (root.put "logging" (.table .implied [])).get? "logging" =
        some (.table .implied []) := by simp
    refine ⟨_, _, Assembly.header_sub ha hget, hnodup, Assembly.settle_sub hput, ?_⟩
    constructor
    · exact Keyed.nodup_keys_put _ _ _ (Keyed.nodup_keys_put _ _ _ h.distinct)
    · simpa using hlistener
    · simpa [hparts] using .implied entries
    · simp [hparts]
  | alone logging =>
    have hnot := hnoFile logging rfl
    have hheld : Assembly.implied? logging "file" = some [] := by
      rw [Assembly.implied?, Keyed.get?_eq_none_iff.mpr hnot]
    have hput : (root.put "logging" (.table .explicit (logging.erase "file"))).get? "logging" =
        some (.table .explicit logging) := by simp [Keyed.erase_of_notMem hnot]
    refine ⟨_, _, Assembly.header_sub_of_table ha hget hheld, hnodup, Assembly.settle_sub hput, ?_⟩
    constructor
    · exact Keyed.nodup_keys_put _ _ _ (Keyed.nodup_keys_put _ _ _ h.distinct)
    · simpa using hlistener
    · simpa [hparts, Keyed.put_of_notMem hnot] using .behind logging entries
    · simpa [hparts] using hnot

/-- A part that is not there yet can be added in any order. -/
theorem Presents.opens (h : Presents parts root) (ha : a.settle = some root) {part : Part}
    (hnew : parts part = none) (hnodup : entries.keys.Nodup) (hfile : "file" ∉ entries.keys) :
    Opens parts a part entries := by
  cases part with
  | listener => exact h.opens_listener ha hnew hnodup
  | logging => exact h.opens_logging ha hnew hnodup hfile
  | file => exact h.opens_file ha hnew hnodup

/-! ### All parts -/

/-- The tables of a configuration in their order, each with its settings in their order. -/
abbrev Outline := List (Part × List Setting)

/-- No part and no setting is written twice, and every setting stands in its part. -/
structure Outline.Proper (outline : Outline) : Prop where
  parts : (outline.map Prod.fst).Nodup
  distinct : ∀ p ∈ outline, p.2.Nodup
  placed : ∀ p ∈ outline, ∀ f ∈ p.2, f.part = p.1

/-- The settings that are written. -/
def Outline.settings (outline : Outline) : List Setting :=
  outline.flatMap Prod.snd

variable {value : Setting → Toml.Value} {spelling : Setting → List Char} {outline : Outline}
  {settings : List Setting}

/-- The lines of a table. -/
def partLines (value : Setting → Toml.Value) (spelling : Setting → List Char)
    (p : Part × List Setting) : List Line :=
  .header p.1.path :: p.2.map fun f ↦ .pair f.key (value f) (spelling f)

/-- The entries of a table. -/
def entriesOf (value : Setting → Toml.Value) (settings : List Setting) : Entries :=
  settings.map fun f ↦ (f.key, .value (value f))

/-- Settings of one part have different keys. -/
theorem Setting.eq_of_key : ∀ f g : Setting, f.part = g.part → f.key = g.key → f = g := by
  intro f g hpart hkey
  cases f <;> cases g <;> simp_all [part, key]

theorem Setting.key_ne_file (f : Setting) : f.key ≠ "file" := by
  cases f <;> simp [key]

theorem keys_entriesOf : (entriesOf value settings).keys = settings.map Setting.key := by
  simp [entriesOf, Keyed.keys, Function.comp_def]

theorem nodup_keys_entriesOf (value : Setting → Toml.Value) (hnodup : settings.Nodup) {part : Part}
    (hpart : ∀ f ∈ settings, f.part = part) : (entriesOf value settings).keys.Nodup := by
  rw [keys_entriesOf]
  apply List.Nodup.map_on _ hnodup
  intro f hf g hg hkey
  exact Setting.eq_of_key f g ((hpart f hf).trans (hpart g hg).symm) hkey

theorem file_notMem_keys_entriesOf : "file" ∉ (entriesOf value settings).keys := by
  rw [keys_entriesOf, List.mem_map]
  rintro ⟨f, -, hf⟩
  exact f.key_ne_file hf

/-- The lines of a table add its part. -/
theorem Presents.add_part (value : Setting → Toml.Value) (spelling : Setting → List Char)
    (h : Presents parts root) (ha : a.settle = some root) {p : Part × List Setting}
    (hnew : parts p.1 = none) (hnodup : p.2.Nodup)
    (hpart : ∀ f ∈ p.2, f.part = p.1) :
    ∃ b root', (partLines value spelling p).foldlM Line.add a = some b ∧ b.settle = some root' ∧
      Presents (update parts p.1 (some (entriesOf value p.2))) root' := by
  obtain ⟨b, root', hheader, hkeys, hsettle, hpresents⟩ :=
    h.opens ha hnew (nodup_keys_entriesOf value hnodup hpart) file_notMem_keys_entriesOf
  rw [keys_entriesOf] at hkeys
  refine ⟨_, root', ?_, hsettle, hpresents⟩
  rw [partLines, List.foldlM_cons, Line.add, hheader, Option.bind_eq_bind, Option.bind_some,
    Toml.foldlM_pairs value spelling hkeys]
  rfl

/-- The tables of an outline add their parts to those that are there, in any order. -/
theorem Presents.add_parts (value : Setting → Toml.Value) (spelling : Setting → List Char)
    (h : Presents parts root) (ha : a.settle = some root) (houtline : outline.Proper)
    (hnew : ∀ p ∈ outline, parts p.1 = none) :
    ∃ b root', (outline.flatMap (partLines value spelling)).foldlM Line.add a = some b ∧
      b.settle = some root' ∧
      Presents (fun part ↦ ((outline.lookup part).map (entriesOf value)).or (parts part))
        root' := by
  induction outline generalizing parts root a with
  | nil => exact ⟨a, root, rfl, ha, h⟩
  | cons p rest ih =>
    have hfirst := List.nodup_cons.mp houtline.parts
    have hrest : Outline.Proper rest :=
      ⟨hfirst.2, fun q hq ↦ houtline.distinct q (List.mem_cons_of_mem _ hq),
        fun q hq ↦ houtline.placed q (List.mem_cons_of_mem _ hq)⟩
    obtain ⟨b, root', hb, hsettle, hpresents⟩ := h.add_part value spelling ha
      (hnew p List.mem_cons_self) (houtline.distinct p List.mem_cons_self)
      (houtline.placed p List.mem_cons_self)
    have hothers : ∀ q ∈ rest, update parts p.1 (some (entriesOf value p.2)) q.1 = none := by
      intro q hq
      have hne : q.1 ≠ p.1 := fun heq ↦ hfirst.1 (heq ▸ List.mem_map_of_mem hq)
      rw [Function.update_of_ne hne]
      exact hnew q (List.mem_cons_of_mem _ hq)
    obtain ⟨c, root'', hc, hsettle', hpresents'⟩ := ih hpresents hsettle hrest hothers
    refine ⟨c, root'', ?_, hsettle', ?_⟩
    · rw [List.flatMap_cons, List.foldlM_append, hb]
      exact hc
    · convert hpresents' using 2 with part
      obtain ⟨q, settings⟩ := p
      by_cases hpart : part = q
      · subst hpart
        have hlookup : rest.lookup part = none := by
          rw [List.lookup_eq_none_iff]
          intro r hr
          have hmem : r.1 ∈ rest.map Prod.fst := List.mem_map_of_mem hr
          exact bne_iff_ne.mpr fun heq ↦ hfirst.1 (heq ▸ hmem)
        rw [List.lookup_cons_self, hlookup, Function.update_self]
        rfl
      · rw [Function.update_of_ne hpart, List.lookup_cons, beq_false_of_ne hpart]

/-! ### The finished document -/

variable {key : String}

/-- What stands under the name of logging holds the table of the log file, and else the entries of
logging. -/
theorem LoggingEntry.views {logging file : Option Entries} {entry : Option Toml.Entry}
    (h : LoggingEntry logging file entry) (hnoFile : ∀ entries ∈ logging, "file" ∉ entries.keys)
    (hnodup : ∀ entries ∈ logging, entries.keys.Nodup) :
    ∃ (origin : Toml.Origin) (inner : Option Entries), entry = inner.map (.table origin) ∧
      (∀ entries ∈ inner, entries.keys.Nodup) ∧
      inner.bind (·.get? "file") = file.map (.table .explicit) ∧
      ∀ key, key ≠ "file" → inner.bind (·.get? key) = logging.bind (·.get? key) := by
  cases h with
  | absent => exact ⟨.explicit, none, rfl, by simp, rfl, fun _ _ ↦ rfl⟩
  | implied file =>
    refine ⟨.implied, some [("file", .table .explicit file)], rfl, by simp, rfl, ?_⟩
    intro key hkey
    exact if_neg hkey.symm
  | alone logging =>
    refine ⟨.explicit, some logging, rfl, hnodup, ?_, fun _ _ ↦ rfl⟩
    exact Keyed.get?_eq_none_iff.mpr (hnoFile _ rfl)
  | before logging file =>
    refine ⟨.explicit, some (("file", .table .explicit file) :: logging), rfl, ?_, rfl, ?_⟩
    · simpa using ⟨hnoFile _ rfl, hnodup _ rfl⟩
    · intro key hkey
      exact if_neg hkey.symm
  | behind logging file =>
    rw [← Keyed.put_of_notMem (hnoFile _ rfl)]
    refine ⟨.explicit, some (logging.put "file" (.table .explicit file)), rfl, ?_, ?_, ?_⟩
    · simpa using Keyed.nodup_keys_put _ _ _ (hnodup _ rfl)
    · rw [Option.bind_some, Keyed.get?_put, if_pos rfl, Option.map_some]
    · intro key hkey
      rw [Option.bind_some, Option.bind_some, Keyed.get?_put, if_neg hkey.symm]

theorem table?_of_get? {members : Toml.Table} {o : Option Toml.Table}
    (h : members.get? key = o.map .table) : table? members key = o := by
  rw [table?, h]
  cases o <;> rfl

theorem map_finish_table (origin : Toml.Origin) (o : Option Entries) :
    (o.map (.table origin)).map Toml.Entry.finish = (o.map finishEntries).map .table := by
  cases o <;> rfl

theorem bind_get?_finished (o : Option Entries) (key : String) :
    (o.map finishEntries).bind (fun t : Toml.Table ↦ t.get? key) =
      (o.bind (·.get? key)).map Toml.Entry.finish := by
  cases o with
  | none => rfl
  | some entries => exact get?_finishEntries entries key

theorem nodup_keys_finished {o : Option Entries} (h : ∀ entries ∈ o, entries.keys.Nodup) :
    ∀ t : Toml.Table, t ∈ o.map finishEntries → t.keys.Nodup := by
  simpa [keys_finishEntries] using h

/-- The finished document has the tables of the parts, each with what its settings were given. -/
theorem Presents.finished (h : Presents parts root)
    (hnodup : ∀ part, ∀ entries ∈ parts part, entries.keys.Nodup) :
    Sectioned (finishEntries root) ∧ ∀ f : Setting, f.find? (finishEntries root) =
      ((parts f.part).bind (·.get? f.key)).map Toml.Entry.finish := by
  obtain ⟨origin, inner, hentry, hinner, hfile, hothers⟩ :=
    h.logging.views h.noFile (hnodup .logging)
  have hlistener : Keyed.get? (finishEntries root) "listener" =
      ((parts .listener).map finishEntries).map .table := by
    rw [get?_finishEntries, h.listener, map_finish_table]
  have hlogging : Keyed.get? (finishEntries root) "logging" =
      (inner.map finishEntries).map .table := by
    rw [get?_finishEntries, hentry, map_finish_table]
  have hinnerFile : (inner.map finishEntries).bind (fun t : Toml.Table ↦ t.get? "file") =
      ((parts .file).map finishEntries).map .table := by
    rw [bind_get?_finished, hfile, map_finish_table]
  have hlistenerTable := table?_of_get? hlistener
  have hloggingTable := table?_of_get? hlogging
  have hfileTable : Part.file.table? (finishEntries root) = (parts .file).map finishEntries := by
    rw [Part.table?, hloggingTable]
    cases inner with
    | none =>
      cases hparts : parts .file with
      | none => rfl
      | some file => simp [hparts] at hfile
    | some inner => exact table?_of_get? hinnerFile
  constructor
  · constructor
    · rw [keys_finishEntries]
      exact h.distinct
    · rw [Part.table?, hlistener, hlistenerTable]
    · rw [Part.table?, hlogging, hloggingTable]
    · rw [Part.table?, hloggingTable, hfileTable, hinnerFile]
    · intro part
      cases part with
      | listener =>
        rw [Part.table?, hlistenerTable]
        exact nodup_keys_finished (hnodup .listener)
      | logging =>
        rw [Part.table?, hloggingTable]
        exact nodup_keys_finished hinner
      | file =>
        rw [hfileTable]
        exact nodup_keys_finished (hnodup .file)
  · intro f
    rw [Setting.find?]
    cases hpart : f.part with
    | listener => rw [Part.table?, hlistenerTable, bind_get?_finished]
    | logging => rw [Part.table?, hloggingTable, bind_get?_finished, hothers _ f.key_ne_file]
    | file => rw [hfileTable, bind_get?_finished]

theorem Outline.Proper.lookup (h : outline.Proper) {p : Part × List Setting} (hp : p ∈ outline) :
    List.lookup p.1 outline = some p.2 := by
  obtain ⟨before, after, rfl⟩ := List.append_of_mem hp
  have hparts := h.parts
  rw [List.map_append, List.nodup_append] at hparts
  rw [List.lookup_eq_some_iff]
  refine ⟨before, after, rfl, ?_⟩
  intro q hq
  exact bne_iff_ne.mpr (hparts.2.2 q.1 (List.mem_map_of_mem hq) p.1 List.mem_cons_self).symm

/-- The table of a part holds a setting if the part was written with it. -/
theorem get?_entriesOf {f : Setting} (hnodup : settings.Nodup)
    (hpart : ∀ g ∈ settings, g.part = f.part) : (entriesOf value settings).get? f.key =
      if f ∈ settings then some (.value (value f)) else none := by
  split_ifs with hf
  · have hmem : (f.key, Toml.Entry.value (value f)) ∈ entriesOf value settings :=
      List.mem_map_of_mem hf
    exact Keyed.get?_of_mem (nodup_keys_entriesOf value hnodup hpart) hmem
  · rw [Keyed.get?_eq_none_iff, keys_entriesOf, List.mem_map]
    rintro ⟨g, hg, hkey⟩
    exact hf (Setting.eq_of_key g f (hpart g hg) hkey ▸ hg)

theorem Outline.Proper.of_lookup (h : outline.Proper) {part : Part}
    (hlookup : List.lookup part outline = some settings) :
    settings.Nodup ∧ ∀ f ∈ settings, f.part = part := by
  have hp : (part, settings) ∈ outline := mem_of_lookup hlookup
  exact ⟨h.distinct _ hp, h.placed _ hp⟩

/-- A setting is written if it stands in the table of its part. -/
theorem Outline.Proper.mem_settings (h : outline.Proper) {f : Setting} :
    f ∈ outline.settings ↔
      ∃ settings, List.lookup f.part outline = some settings ∧ f ∈ settings := by
  constructor
  · intro hf
    obtain ⟨p, hp, hfp⟩ := List.mem_flatMap.mp hf
    rw [h.placed p hp f hfp]
    exact ⟨p.2, h.lookup hp, hfp⟩
  · rintro ⟨settings, hlookup, hf⟩
    exact List.mem_flatMap.mpr ⟨_, mem_of_lookup hlookup, hf⟩

/-- A document of an outline holds the settings of the outline, and no others. -/
theorem exists_document (value : Setting → Toml.Value) (spelling : Setting → List Char)
    (houtline : outline.Proper) : ∃ document,
    ((outline.flatMap (partLines value spelling)).foldlM Line.add .start).bind Assembly.finish =
      some document ∧ Sectioned document ∧
    ∀ f : Setting, f.find? document = if f ∈ outline.settings then some (value f) else none := by
  obtain ⟨b, root, hlines, hsettle, hpresents⟩ :=
    presents_nil.add_parts (a := .start) value spelling rfl houtline fun _ _ ↦ rfl
  simp only [Option.or_none] at hpresents
  obtain ⟨hsectioned, hfind⟩ := hpresents.finished (by
    intro part entries hentries
    obtain ⟨settings, hlookup, rfl⟩ := Option.map_eq_some_iff.mp hentries
    obtain ⟨hnodup, hpart⟩ := houtline.of_lookup hlookup
    exact nodup_keys_entriesOf value hnodup hpart)
  refine ⟨finishEntries root, ?_, hsectioned, ?_⟩
  · rw [hlines, Option.bind_some, Assembly.finish, hsettle]
    rfl
  · intro f
    rw [hfind]
    cases hlookup : outline.lookup f.part with
    | none => simp [houtline.mem_settings, hlookup]
    | some settings =>
      obtain ⟨hnodup, hpart⟩ := houtline.of_lookup hlookup
      simp only [houtline.mem_settings, hlookup, Option.map_some, Option.bind_some,
        get?_entriesOf hnodup hpart, Option.some.injEq, exists_eq_left']
      split_ifs <;> rfl

end Logbook.Config
