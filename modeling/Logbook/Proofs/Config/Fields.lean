import Logbook.Config.Settings
import Logbook.Proofs.Keyed

/-!
# Settings and their defaults

Each setting of a group has its key, and the other keys leave it alone (`IsField`). So a setting
that was read from a table is the value under its key, or its default where the table has none,
whatever else the table holds (`IsField.of_toGroup`). For the settings of the service this makes
every single one independent of the others (`value_of_ofToml`), and a document in which each of them
can be read can be read as a whole (`exists_ofToml`).
-/

set_option autoImplicit false
set_option relaxedAutoImplicit false

namespace Logbook

theorem mem_of_lookup {κ α : Type} [BEq κ] [LawfulBEq κ] {k : κ} {v : α} {l : List (κ × α)}
    (h : l.lookup k = some v) : (k, v) ∈ l := by
  obtain ⟨before, after, rfl, -⟩ := List.lookup_eq_some_iff.mp h
  exact List.mem_append_right _ List.mem_cons_self

end Logbook

namespace Logbook.Toml.Value

/-! ### One group -/

variable {α β : Type} {setters : Setters α} {key name : String} {get : α → β}
  {read : Value → Except ShapeError β} {members : Table} {settings settings' defaults : α}

/-- A setting of a group: its key sets it to what is read there, and no other key changes it. -/
structure IsField (setters : Setters α) (key : String) (get : α → β)
    (read : Value → Except ShapeError β) : Prop where
  own : ∀ settings v, (setMember setters settings (key, v)).map get = read v
  other : ∀ settings settings' k v, k ≠ key → setMember setters settings (k, v) = .ok settings' →
    get settings' = get settings

/-- Setting something leaves a setting as it was. -/
def Keeps (get : α → β) (set : α → Value → Except ShapeError α) : Prop :=
  ∀ settings v settings', set settings v = .ok settings' → get settings' = get settings

theorem keeps_map {γ : Type} {read : Value → Except ShapeError γ} {put : α → γ → α}
    (h : ∀ settings x, get (put settings x) = get settings) :
    Keeps get fun settings v ↦ put settings <$> read v := by
  intro settings v settings' hset
  dsimp only at hset
  cases hread : read v with
  | error e =>
    rw [hread] at hset
    cases hset
  | ok x =>
    rw [hread] at hset
    cases hset
    exact h settings x

/-- A setting is given by the one setter of its key if the others leave it as it was. -/
theorem IsField.of_setters {put : α → β → α} (before : Setters α) {after : Setters α}
    (hsetters :
      setters = before ++ (key, fun settings v ↦ do return put settings (← read v)) :: after)
    (hget : ∀ settings x, get (put settings x) = x)
    (hkeep : ∀ p ∈ before ++ after, p.1 ≠ key ∧ Keeps get p.2) : IsField setters key get read where
  own settings v := by
    have hbefore : before.lookup key = none := by
      rw [List.lookup_eq_none_iff]
      intro p hp
      exact bne_iff_ne.mpr (hkeep p (List.mem_append_left _ hp)).1.symm
    rw [setMember, hsetters, List.lookup_append, hbefore, List.lookup_cons_self]
    dsimp only [Option.none_or]
    cases read v with
    | error e => rfl
    | ok x => exact congrArg Except.ok (hget settings x)
  other settings settings' k v hk hset := by
    unfold setMember at hset
    split at hset
    · next set hlookup =>
      have hmem : (k, set) ∈ setters := mem_of_lookup hlookup
      have hrest : (k, set) ∈ before ++ after := by
        rw [hsetters, List.mem_append, List.mem_cons, Prod.mk.injEq] at hmem
        rcases hmem with hmem | ⟨hkey, -⟩ | hmem
        · exact List.mem_append_left _ hmem
        · exact absurd hkey hk
        · exact List.mem_append_right _ hmem
      exact (hkeep _ hrest).2 settings v settings' hset
    · cases hset
      rfl

/-- After several members a setting is the value of its own member, if there is one. -/
theorem IsField.of_foldlM (h : IsField setters key get read) (hnodup : members.keys.Nodup)
    (hfold : members.foldlM (setMember setters) settings = .ok settings') :
    (members.get? key).elim (.ok (get settings)) read = .ok (get settings') := by
  induction members generalizing settings with
  | nil =>
    cases hfold
    rfl
  | cons p rest ih =>
    obtain ⟨k, v⟩ := p
    rw [Keyed.keys_cons, List.nodup_cons] at hnodup
    rw [List.foldlM_cons] at hfold
    cases hset : setMember setters settings (k, v) with
    | error e =>
      rw [hset] at hfold
      cases hfold
    | ok next =>
      rw [hset] at hfold
      have hrest := ih hnodup.2 hfold
      by_cases hk : k = key
      · subst hk
        have hown := h.own settings v
        rw [Keyed.get?_eq_none_iff.mpr hnodup.1] at hrest
        rw [hset] at hown
        rw [Keyed.get?_cons, if_pos rfl, Option.elim_some, ← hown]
        exact hrest
      · rw [Keyed.get?_cons, if_neg hk, ← h.other settings next k v hk hset]
        exact hrest

/-- A setting read from a table is the value under its key, or else its default. -/
theorem IsField.of_toGroup (h : IsField setters key get read) {part : Option Table}
    (hnodup : ∀ t ∈ part, t.keys.Nodup)
    (hgroup : (part.map Value.table).elim (.ok defaults) (toGroup name setters defaults) =
      .ok settings) :
    (part.bind (·.get? key)).elim (.ok (get defaults)) read = .ok (get settings) := by
  cases part with
  | none =>
    cases hgroup
    rfl
  | some t => exact h.of_foldlM (hnodup t rfl) hgroup

theorem IsField.exists_setMember (h : IsField setters key get read) {v : Value}
    (hread : ∃ x, read v = .ok x) (settings : α) :
    ∃ settings', setMember setters settings (key, v) = .ok settings' := by
  obtain ⟨x, hx⟩ := hread
  have hown := h.own settings v
  rw [hx] at hown
  cases hset : setMember setters settings (key, v) with
  | error e =>
    rw [hset] at hown
    cases hown
  | ok settings' => exact ⟨settings', rfl⟩

/-- A member that is no setting is passed over. -/
theorem exists_setMember_of_lookup {k : String} (h : setters.lookup k = none) (v : Value)
    (settings : α) : ∃ settings', setMember setters settings (k, v) = .ok settings' := by
  refine ⟨settings, ?_⟩
  rw [setMember, h]

theorem exists_foldlM
    (h : ∀ p ∈ members, ∀ settings, ∃ settings', setMember setters settings p = .ok settings')
    (settings : α) : ∃ settings', members.foldlM (setMember setters) settings = .ok settings' := by
  induction members generalizing settings with
  | nil => exact ⟨settings, rfl⟩
  | cons p rest ih =>
    rw [List.forall_mem_cons] at h
    obtain ⟨next, hnext⟩ := h.1 settings
    rw [List.foldlM_cons, hnext]
    exact ih h.2 next

/-- A table whose members can be read can be read as a group. -/
theorem exists_toGroup {part : Option Table} (hnodup : ∀ t ∈ part, t.keys.Nodup)
    (hmembers : ∀ k v, part.bind (·.get? k) = some v →
      ∀ settings, ∃ settings', setMember setters settings (k, v) = .ok settings') :
    ∃ settings, (part.map Value.table).elim (.ok defaults) (toGroup name setters defaults) =
      .ok settings := by
  cases part with
  | none => exact ⟨defaults, rfl⟩
  | some t =>
    apply exists_foldlM
    intro p hp
    exact hmembers p.1 p.2 (Keyed.get?_of_mem (hnodup t rfl) hp)

end Logbook.Toml.Value

namespace Logbook

open Toml.Value (IsField setMember)

/-! ### The groups of the service -/

namespace FileSettings

theorem isField_enabled : IsField setters "enabled" enabled Toml.Value.toBool :=
  .of_setters [] rfl (fun _ _ ↦ rfl) (by simp [Toml.Value.keeps_map])

theorem isField_path : IsField setters "path" path Toml.Value.toText :=
  .of_setters [_] rfl (fun _ _ ↦ rfl) (by simp [Toml.Value.keeps_map])

theorem isField_maxSizeMb :
    IsField setters "max_size_mb" maxSizeMb (Toml.Value.toNatural "u64") :=
  .of_setters [_, _] rfl (fun _ _ ↦ rfl) (by simp [Toml.Value.keeps_map])

theorem isField_maxBackups :
    IsField setters "max_backups" maxBackups (Toml.Value.toNatural "usize") :=
  .of_setters [_, _, _] rfl (fun _ _ ↦ rfl) (by simp [Toml.Value.keeps_map])

end FileSettings

namespace LoggingSettings

theorem isField_pretty : IsField setters "pretty" pretty Toml.Value.toBool :=
  .of_setters [] rfl (fun _ _ ↦ rfl) (by simp [Toml.Value.keeps_map])

theorem isField_debug : IsField setters "debug" debug Toml.Value.toBool :=
  .of_setters [_] rfl (fun _ _ ↦ rfl) (by simp [Toml.Value.keeps_map])

theorem isField_level : IsField setters "level" level Toml.Value.toSeverity :=
  .of_setters [_, _] rfl (fun _ _ ↦ rfl) (by simp [Toml.Value.keeps_map])

theorem isField_file : IsField setters "file" file FileSettings.ofToml :=
  .of_setters [_, _, _] rfl (fun _ _ ↦ rfl) (by simp [Toml.Value.keeps_map])

end LoggingSettings

namespace ListenerSettings

theorem isField_bindAddress : IsField setters "bind_address" bindAddress Toml.Value.toText :=
  .of_setters [] rfl (fun _ _ ↦ rfl) (by simp)

end ListenerSettings

namespace ServiceSettings

theorem isField_listener : IsField setters "listener" listener ListenerSettings.ofToml :=
  .of_setters [] rfl (fun _ _ ↦ rfl) (by simp [Toml.Value.keeps_map])

theorem isField_logging : IsField setters "logging" logging LoggingSettings.ofToml :=
  .of_setters [_] rfl (fun _ _ ↦ rfl) (by simp [Toml.Value.keeps_map])

end ServiceSettings

/-! ### The settings of the service -/

namespace Config

open ServiceSettings (ofToml)

/-- The parts of a configuration. -/
inductive Part where
  | listener
  | logging
  | file
  deriving DecidableEq, Repr

/-- The single settings of a service. -/
inductive Setting where
  | bindAddress
  | pretty
  | debug
  | level
  | enabled
  | path
  | maxSizeMb
  | maxBackups
  deriving DecidableEq, Repr

/-- The table under a key. -/
def table? (members : Toml.Table) (key : String) : Option Toml.Table :=
  match members.get? key with
  | some (.table t) => some t
  | _ => none

/-- The table of a part in a document. -/
def Part.table? (document : Toml.Table) : Part → Option Toml.Table
  | listener => Config.table? document "listener"
  | logging => Config.table? document "logging"
  | file => (Config.table? document "logging").bind (Config.table? · "file")

namespace Setting

/-- The part a setting belongs to. -/
def part : Setting → Part
  | bindAddress => .listener
  | pretty | debug | level => .logging
  | enabled | path | maxSizeMb | maxBackups => .file

/-- The key of a setting in its part. -/
def key : Setting → String
  | bindAddress => "bind_address"
  | pretty => "pretty"
  | debug => "debug"
  | level => "level"
  | enabled => "enabled"
  | path => "path"
  | maxSizeMb => "max_size_mb"
  | maxBackups => "max_backups"

/-- A setting as the value of a document. -/
def value (s : ServiceSettings) : Setting → Toml.Value
  | bindAddress => .string s.listener.bindAddress
  | pretty => .boolean s.logging.pretty
  | debug => .boolean s.logging.debug
  | level => .string s.logging.level.name
  | enabled => .boolean s.logging.file.enabled
  | path => .string s.logging.file.path
  | maxSizeMb => .integer s.logging.file.maxSizeMb
  | maxBackups => .integer s.logging.file.maxBackups

/-- What a value of a document sets a setting to, as the value that would be written for it. -/
def read : Setting → Toml.Value → Except ShapeError Toml.Value
  | bindAddress, v | path, v => v.toText.map .string
  | pretty, v | debug, v | enabled, v => v.toBool.map .boolean
  | level, v => v.toSeverity.map fun l ↦ .string l.name
  | maxSizeMb, v => (v.toNatural "u64").map fun n : Nat ↦ .integer n
  | maxBackups, v => (v.toNatural "usize").map fun n : Nat ↦ .integer n

/-- What a document holds for a setting. -/
def find? (document : Toml.Table) (f : Setting) : Option Toml.Value :=
  (f.part.table? document).bind (·.get? f.key)

end Setting

/-- The parts of a document are tables where they are present, and all keys are distinct. -/
structure Sectioned (document : Toml.Table) : Prop where
  distinct : document.keys.Nodup
  listener : document.get? "listener" = (Part.listener.table? document).map .table
  logging : document.get? "logging" = (Part.logging.table? document).map .table
  file : (Part.logging.table? document).bind (·.get? "file") =
    (Part.file.table? document).map .table
  distinctParts : ∀ part : Part, ∀ t ∈ part.table? document, t.keys.Nodup

variable {document : Toml.Table} {r : ServiceSettings}

theorem elim_map {β γ : Type} {read : Toml.Value → Except ShapeError β} {o : Option Toml.Value}
    {d x : β} (g : β → γ) (h : o.elim (.ok d) read = .ok x) :
    o.elim (.ok (g d)) (fun v ↦ (read v).map g) = .ok (g x) := by
  cases o with
  | none =>
    cases h
    rfl
  | some v => exact congrArg (Except.map g) h

/-- A setting that was read from a document is what the document holds for it, or its default. -/
theorem value_of_ofToml (h : Sectioned document) (hr : ofToml document = .ok r) (f : Setting) :
    (f.find? document).elim (.ok (f.value {})) f.read = .ok (f.value r) := by
  have hlistener := ServiceSettings.isField_listener.of_foldlM h.distinct hr
  have hlogging := ServiceSettings.isField_logging.of_foldlM h.distinct hr
  rw [h.listener] at hlistener
  rw [h.logging] at hlogging
  have hfile := LoggingSettings.isField_file.of_toGroup (h.distinctParts .logging) hlogging
  rw [h.file] at hfile
  cases f with
  | bindAddress =>
    exact elim_map _
      (ListenerSettings.isField_bindAddress.of_toGroup (h.distinctParts .listener) hlistener)
  | pretty =>
    exact elim_map _ (LoggingSettings.isField_pretty.of_toGroup (h.distinctParts .logging) hlogging)
  | debug =>
    exact elim_map _ (LoggingSettings.isField_debug.of_toGroup (h.distinctParts .logging) hlogging)
  | level =>
    exact elim_map (fun l : Severity ↦ Toml.Value.string l.name)
      (LoggingSettings.isField_level.of_toGroup (h.distinctParts .logging) hlogging)
  | enabled =>
    exact elim_map _ (FileSettings.isField_enabled.of_toGroup (h.distinctParts .file) hfile)
  | path => exact elim_map _ (FileSettings.isField_path.of_toGroup (h.distinctParts .file) hfile)
  | maxSizeMb =>
    exact elim_map (fun n : Nat ↦ Toml.Value.integer n)
      (FileSettings.isField_maxSizeMb.of_toGroup (h.distinctParts .file) hfile)
  | maxBackups =>
    exact elim_map (fun n : Nat ↦ Toml.Value.integer n)
      (FileSettings.isField_maxBackups.of_toGroup (h.distinctParts .file) hfile)

/-! ### Documents that can be read -/

theorem exists_of_map {α β : Type} {g : α → β} {x : Except ShapeError α}
    (h : ∃ w, x.map g = .ok w) : ∃ a, x = .ok a := by
  cases x with
  | error e =>
    obtain ⟨w, hw⟩ := h
    cases hw
  | ok a => exact ⟨a, rfl⟩

variable {k : String} {v : Toml.Value}

theorem exists_setMember_listener
    (h : ∀ f : Setting, f.part = .listener → f.key = k → ∃ w, f.read v = .ok w)
    (settings : ListenerSettings) :
    ∃ settings', setMember ListenerSettings.setters settings (k, v) = .ok settings' := by
  by_cases hbind : k = "bind_address"
  · subst hbind
    exact ListenerSettings.isField_bindAddress.exists_setMember
      (exists_of_map (h .bindAddress rfl rfl)) settings
  · apply Toml.Value.exists_setMember_of_lookup
    simp [ListenerSettings.setters, List.lookup_eq_none_iff, hbind]

theorem exists_setMember_file
    (h : ∀ f : Setting, f.part = .file → f.key = k → ∃ w, f.read v = .ok w)
    (settings : FileSettings) :
    ∃ settings', setMember FileSettings.setters settings (k, v) = .ok settings' := by
  by_cases henabled : k = "enabled"
  · subst henabled
    exact FileSettings.isField_enabled.exists_setMember
      (exists_of_map (h .enabled rfl rfl)) settings
  by_cases hpath : k = "path"
  · subst hpath
    exact FileSettings.isField_path.exists_setMember (exists_of_map (h .path rfl rfl)) settings
  by_cases hsize : k = "max_size_mb"
  · subst hsize
    exact FileSettings.isField_maxSizeMb.exists_setMember
      (exists_of_map (h .maxSizeMb rfl rfl)) settings
  by_cases hbackups : k = "max_backups"
  · subst hbackups
    exact FileSettings.isField_maxBackups.exists_setMember
      (exists_of_map (h .maxBackups rfl rfl)) settings
  · apply Toml.Value.exists_setMember_of_lookup
    simp [FileSettings.setters, List.lookup_eq_none_iff, henabled, hpath, hsize, hbackups]

theorem exists_setMember_logging
    (h : ∀ f : Setting, f.part = .logging → f.key = k → ∃ w, f.read v = .ok w)
    (hfile : k = "file" → ∃ s, FileSettings.ofToml v = .ok s) (settings : LoggingSettings) :
    ∃ settings', setMember LoggingSettings.setters settings (k, v) = .ok settings' := by
  by_cases hpretty : k = "pretty"
  · subst hpretty
    exact LoggingSettings.isField_pretty.exists_setMember
      (exists_of_map (h .pretty rfl rfl)) settings
  by_cases hdebug : k = "debug"
  · subst hdebug
    exact LoggingSettings.isField_debug.exists_setMember
      (exists_of_map (h .debug rfl rfl)) settings
  by_cases hlevel : k = "level"
  · subst hlevel
    exact LoggingSettings.isField_level.exists_setMember
      (exists_of_map (h .level rfl rfl)) settings
  by_cases hkey : k = "file"
  · subst hkey
    exact LoggingSettings.isField_file.exists_setMember (hfile rfl) settings
  · apply Toml.Value.exists_setMember_of_lookup
    simp [LoggingSettings.setters, List.lookup_eq_none_iff, hpretty, hdebug, hlevel, hkey]

/-- A document in which every setting can be read can be read as a whole. -/
theorem exists_ofToml (h : Sectioned document)
    (hread : ∀ (f : Setting) v, f.find? document = some v → ∃ w, f.read v = .ok w) :
    ∃ r, ofToml document = .ok r := by
  have hsetting : ∀ (part : Part) k v, (part.table? document).bind (·.get? k) = some v →
      ∀ f : Setting, f.part = part → f.key = k → ∃ w, f.read v = .ok w := by
    rintro part k v hv f rfl rfl
    exact hread f v hv
  obtain ⟨file, hfile⟩ : ∃ s, ((Part.file.table? document).map .table).elim (.ok {})
      FileSettings.ofToml = .ok s :=
    Toml.Value.exists_toGroup (h.distinctParts .file) fun k v hv ↦
      exists_setMember_file (hsetting .file k v hv)
  obtain ⟨logging, hlogging⟩ : ∃ s, ((Part.logging.table? document).map .table).elim (.ok {})
      LoggingSettings.ofToml = .ok s := by
    apply Toml.Value.exists_toGroup (h.distinctParts .logging)
    intro k v hv
    apply exists_setMember_logging (hsetting .logging k v hv)
    rintro rfl
    rw [← h.file, hv] at hfile
    exact ⟨file, hfile⟩
  obtain ⟨listener, hlistener⟩ : ∃ s, ((Part.listener.table? document).map .table).elim (.ok {})
      ListenerSettings.ofToml = .ok s :=
    Toml.Value.exists_toGroup (h.distinctParts .listener) fun k v hv ↦
      exists_setMember_listener (hsetting .listener k v hv)
  apply Toml.Value.exists_foldlM
  intro p hp settings
  have hget := Keyed.get?_of_mem h.distinct hp
  obtain ⟨k, v⟩ := p
  by_cases hl : k = "listener"
  · subst hl
    rw [← h.listener, hget] at hlistener
    exact ServiceSettings.isField_listener.exists_setMember ⟨listener, hlistener⟩ settings
  by_cases hg : k = "logging"
  · subst hg
    rw [← h.logging, hget] at hlogging
    exact ServiceSettings.isField_logging.exists_setMember ⟨logging, hlogging⟩ settings
  · apply Toml.Value.exists_setMember_of_lookup
    simp [ServiceSettings.setters, List.lookup_eq_none_iff, hl, hg]

end Config

end Logbook
