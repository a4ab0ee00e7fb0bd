import Logbook.Config.Load
import Logbook.Proofs.Config.ByKey
import Logbook.Proofs.Text.LetterCase

/-!
# What a configuration depends on

Two documents that hold the same under the keys of the settings, in whatever order and whatever
else they hold, are accepted both or rejected both; they then give the same configuration or have
the same problems. What a document is accepted as has for every setting the value of the document,
if there is one, and the default of this setting otherwise (`parse_by_key`).
-/

set_option autoImplicit false
set_option relaxedAutoImplicit false

namespace Logbook.Config

open Toml.Value (toOption_eq_some_iff)

variable {text text' : String} {document document' : Toml.Table} {s : ServiceSettings}

/-- The parts of a document are tables where they are present. -/
structure PartsAreTables (document : Toml.Table) : Prop where
  listener : ∀ v ∈ document.get? "listener", ∃ t, v = .table t
  logging : ∀ v ∈ document.get? "logging", ∃ t, v = .table t
  file : ∀ t : Toml.Table, document.get? "logging" = some (.table t) →
    ∀ v ∈ t.get? "file", ∃ t', v = .table t'

theorem get?_eq_map_table? {members : Toml.Table} {key : String}
    (h : ∀ v ∈ members.get? key, ∃ t, v = .table t) :
    members.get? key = (table? members key).map .table := by
  rw [table?]
  cases hget : members.get? key with
  | none => rfl
  | some v =>
    obtain ⟨t, rfl⟩ := h v hget
    rfl

theorem get?_of_mem_table? {members t : Toml.Table} {key : String} (h : t ∈ table? members key) :
    members.get? key = some (.table t) := by
  rw [table?] at h
  split at h
  · next hget => rw [hget, ← Option.some.inj h]
  · exact absurd h (by simp)

/-- A document without repeated keys whose parts are tables can be looked up part by part. -/
theorem PartsAreTables.sectioned (h : PartsAreTables document)
    (hdistinct : (Toml.Value.table document).Distinct) : Sectioned document where
  distinct := hdistinct.keys
  listener := get?_eq_map_table? h.listener
  logging := get?_eq_map_table? h.logging
  file := by
    rw [Part.table?, Part.table?]
    cases hlogging : table? document "logging" with
    | none => rfl
    | some t => exact get?_eq_map_table? (h.file t (get?_of_mem_table? hlogging))
  distinctParts := by
    intro part t ht
    cases part with
    | listener => exact (hdistinct.of_get? (get?_of_mem_table? ht)).keys
    | logging => exact (hdistinct.of_get? (get?_of_mem_table? ht)).keys
    | file =>
      obtain ⟨logging, hlogging, ht⟩ := Option.bind_eq_some_iff.mp ht
      have hinside := hdistinct.of_get? (get?_of_mem_table? hlogging)
      exact (hinside.of_get? (get?_of_mem_table? ht)).keys

/-! ### Single settings -/

/-- A value of a document says what a setting is: a level by one of its names, every other setting
itself. -/
def Setting.SaidBy (s : ServiceSettings) (f : Setting) (v : Toml.Value) : Prop :=
  if f = .level then
    ∃ name, v = .string name ∧ Severity.ofName name = .ok s.logging.level
  else v = f.value s

theorem eq_of_map_eq_ok {β γ : Type} {g : β → γ} {x : Except ShapeError β} {z : γ}
    (h : x.map g = .ok z) : ∃ y, x = .ok y ∧ g y = z := by
  cases x with
  | error e => cases h
  | ok y => exact ⟨y, rfl, Except.ok.inj h⟩

theorem eq_of_toBool {v : Toml.Value} {b : Bool} (h : v.toBool = .ok b) : v = .boolean b := by
  cases v with
  | boolean b' => rw [Except.ok.inj h]
  | _ => cases h

theorem eq_of_toText {v : Toml.Value} {text : String} (h : v.toText = .ok text) :
    v = .string text := by
  cases v with
  | string text' => rw [Except.ok.inj h]
  | _ => cases h

theorem eq_of_toNatural {expected : String} {v : Toml.Value} {n : Nat}
    (h : v.toNatural expected = .ok n) : v = .integer n := by
  cases v with
  | integer i =>
    rw [Toml.Value.toNatural] at h
    split_ifs at h with hnegative
    rw [← Except.ok.inj h, Int.toNat_of_nonneg (Int.not_lt.mp hnegative)]
  | _ => cases h

theorem exists_of_toSeverity {v : Toml.Value} {level : Severity} (h : v.toSeverity = .ok level) :
    ∃ name, v = .string name ∧ Severity.ofName name = .ok level := by
  cases v with
  | string name =>
    refine ⟨name, rfl, ?_⟩
    simp only [Toml.Value.toSeverity, Toml.Value.toText, bind, Except.bind] at h
    split at h
    · next hname => rw [hname, Except.ok.inj h]
    · cases h
  | _ => cases h

/-- A value that is read as a setting says what it is. -/
theorem Setting.saidBy_of_read {f : Setting} {v : Toml.Value} (h : f.read v = .ok (f.value s)) :
    f.SaidBy s v := by
  cases f with
  | level =>
    obtain ⟨level, hlevel, hname⟩ := eq_of_map_eq_ok h
    obtain ⟨name, rfl, hname'⟩ := exists_of_toSeverity hlevel
    have hsame : level = s.logging.level := Severity.name_injective (Toml.Value.string.inj hname)
    exact (if_pos rfl).mpr ⟨name, rfl, hsame ▸ hname'⟩
  | bindAddress | path =>
    obtain ⟨text, htext, hsame⟩ := eq_of_map_eq_ok h
    exact (eq_of_toText htext).trans hsame
  | pretty | debug | enabled =>
    obtain ⟨b, hb, hsame⟩ := eq_of_map_eq_ok h
    exact (eq_of_toBool hb).trans hsame
  | maxSizeMb | maxBackups =>
    obtain ⟨n, hn, hsame⟩ := eq_of_map_eq_ok h
    exact (eq_of_toNatural hn).trans hsame

/-! ### Configurations -/

/-- A document is accepted as the settings it is read as, if these have no problems. -/
theorem parse_eq_ok_iff (hread : Toml.read? text = some document) :
    parse text = .ok s ↔ ServiceSettings.ofToml document = .ok s ∧ s.problems = [] := by
  simp only [parse, hread]
  cases ServiceSettings.ofToml document with
  | error e => simp
  | ok r =>
    simp only [Except.ok.injEq, List.isEmpty_iff]
    constructor
    · intro h
      split_ifs at h with hproblems
      obtain rfl := Except.ok.inj h
      exact ⟨rfl, hproblems⟩
    · rintro ⟨rfl, hproblems⟩
      rw [if_pos hproblems]

/-- A document is rejected with the problems of the settings it is read as. -/
theorem parse_eq_invalid_iff (hread : Toml.read? text = some document) {problems : List Invalid} :
    parse text = .error (.invalid problems) ↔
      ∃ r, ServiceSettings.ofToml document = .ok r ∧ r.problems = problems ∧ problems ≠ [] := by
  simp only [parse, hread]
  cases ServiceSettings.ofToml document with
  | error e => simp
  | ok r =>
    simp only [Except.ok.injEq, List.isEmpty_iff]
    constructor
    · intro h
      split_ifs at h with hproblems
      obtain rfl := Error.invalid.inj (Except.error.inj h)
      exact ⟨r, rfl, rfl, hproblems⟩
    · rintro ⟨_, rfl, rfl, hproblems⟩
      rw [if_neg hproblems]

/-! ### The same settings written twice -/

/-- A document with members that are no settings, and with a table inside a line. -/
def annotatedText : String :=
  "a = 1\n[logging]\nlevel = \"Error\"\nfile = \x7b enabled = true, x = 2 \x7d\n" ++
    "[listener]\nbind_address = \"[::1]:80\"\n"

/-- The same settings under headers and in another order. -/
def headedText : String :=
  "[listener]\ny = 3\nbind_address = \"[::1]:80\"\n" ++
    "[logging.file]\nenabled = true\n[logging]\nlevel = \"Error\"\n"

/-- What `annotatedText` holds. -/
def annotated : Toml.Table :=
  [("a", .integer 1),
    ("logging", .table [("level", .string "Error"),
      ("file", .table [("enabled", .boolean true), ("x", .integer 2)])]),
    ("listener", .table [("bind_address", .string "[::1]:80")])]

/-- What `headedText` holds. -/
def headed : Toml.Table :=
  [("listener", .table [("y", .integer 3), ("bind_address", .string "[::1]:80")]),
    ("logging", .table [("file", .table [("enabled", .boolean true)]), ("level", .string "Error")])]

theorem read?_annotatedText : Toml.read? annotatedText = some annotated := by cbv

theorem read?_headedText : Toml.read? headedText = some headed := by cbv

theorem same_annotated_headed : ServiceSettings.Same (.table annotated) (.table headed) := by
  have hfile : FileSettings.Same (.table [("enabled", .boolean true), ("x", .integer 2)])
      (.table [("enabled", .boolean true)]) := by
    refine .of_perm ?_ (by decide) (by decide) .rfl
    simp only [List.forall_mem_cons, List.not_mem_nil, false_imp_iff, implies_true, and_true]
    exact ⟨.same, .same, .same, .same⟩
  refine .table ?_
  simp only [List.forall_mem_cons, List.not_mem_nil, false_imp_iff, implies_true, and_true]
  refine ⟨.some (.table ?_), .some (.table ?_)⟩ <;>
    simp only [List.forall_mem_cons, List.not_mem_nil, false_imp_iff, implies_true, and_true]
  · exact .some (.same _)
  · exact ⟨.none, .none, .some (.same _), .some hfile⟩

theorem partsAreTables_annotated : PartsAreTables annotated where
  listener := by simp [annotated, Keyed.get?]
  logging := by simp [annotated, Keyed.get?]
  file := by simp [annotated, Keyed.get?]

/-- What both texts are accepted as. -/
def annotatedSettings : ServiceSettings where
  listener.bindAddress := "[::1]:80"
  logging.level := .error
  logging.file.enabled := true

theorem parse_annotatedText : parse annotatedText = .ok annotatedSettings :=
  (parse_eq_ok_iff read?_annotatedText).mpr ⟨rfl, by decide +kernel⟩

/-! ### The law -/

/-- Two documents that are the same for the service are accepted as the same settings or both
rejected, and the problems of the one are those of the other. In an accepted document whose parts
are tables, each setting is what the value under its key says, or its own default if there is
none. -/
theorem parse_by_key (hread : Toml.read? text = some document)
    (hread' : Toml.read? text' = some document')
    (hsame : ServiceSettings.Same (.table document) (.table document')) :
    (∀ s, parse text = .ok s ↔ parse text' = .ok s) ∧
      (∀ problems, parse text = .error (.invalid problems) ↔
        parse text' = .error (.invalid problems)) ∧
      ∀ s, parse text = .ok s → PartsAreTables document → ∀ f : Setting,
        (f.find? document = none → f.value s = f.value {}) ∧
          ∀ v, f.find? document = some v → f.SaidBy s v := by
  have hdistinct := Toml.distinct_of_read? hread
  have hdistinct' := Toml.distinct_of_read? hread'
  have hsettings : ∀ s,
      ServiceSettings.ofToml document = .ok s ↔ ServiceSettings.ofToml document' = .ok s := by
    intro s
    rw [← toOption_eq_some_iff, ← toOption_eq_some_iff,
      ServiceSettings.toOption_ofToml_congr hdistinct hdistinct' hsame]
  refine ⟨fun s ↦ ?_, fun problems ↦ ?_, fun s hparse htables f ↦ ?_⟩
  · rw [parse_eq_ok_iff hread, parse_eq_ok_iff hread', hsettings]
  · simp only [parse_eq_invalid_iff hread, parse_eq_invalid_iff hread', hsettings]
  · have hr := ((parse_eq_ok_iff hread).mp hparse).1
    have hvalue := value_of_ofToml (htables.sectioned hdistinct) hr f
    refine ⟨fun hnone ↦ ?_, fun v hv ↦ ?_⟩
    · rw [hnone] at hvalue
      exact (Except.ok.inj hvalue).symm
    · rw [hv] at hvalue
      exact Setting.saidBy_of_read hvalue

theorem parse_by_key_headed :
    parse headedText = .ok annotatedSettings ∧
      Setting.maxSizeMb.value annotatedSettings = .integer 100 ∧
      Setting.enabled.value annotatedSettings = .boolean true := by
  obtain ⟨haccepted, -, hvalues⟩ :=
    parse_by_key read?_annotatedText read?_headedText same_annotated_headed
  have hvalue := hvalues annotatedSettings parse_annotatedText partsAreTables_annotated
  have henabled : Setting.enabled.find? annotated = some (.boolean true) := rfl
  exact ⟨(haccepted annotatedSettings).mp parse_annotatedText, (hvalue .maxSizeMb).1 rfl,
    ((hvalue .enabled).2 _ henabled).symm⟩

end Logbook.Config
