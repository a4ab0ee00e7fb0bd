import Logbook.Config.Load
import Logbook.Proofs.Config.Outlines
import Logbook.Proofs.Text.Utf8

/-!
# Configurations that are written down

Any valid configuration can be written as TOML: its parts as tables and its settings as pairs in any
order, texts as basic strings with any escapes, the level by its name in any letter case, and
settings at their defaults left out at will (`Outline.text`, `Setting.Spelled`). What is written for
a setting is read as that setting (`Setting.read_of_given`), and a document that gives some settings
and leaves the others at their defaults is the configuration (`ofToml_of_given`).
-/

set_option autoImplicit false
set_option relaxedAutoImplicit false

namespace Logbook.Config

open Toml (Line SpelledChar SpelledText SpelledValue)

/-! ### How settings are written -/

/-- The values that a setting may be written as: itself, and the level also by its name in any
letter case. -/
def Setting.Given (s : ServiceSettings) (f : Setting) (v : Toml.Value) : Prop :=
  v = f.value s ∨ f = level ∧ ∃ name : String,
    v = .string name ∧ name.toList.map Char.toLower = s.logging.level.name.toList

/-- The spellings of a setting. -/
def Setting.Spelled (s : ServiceSettings) (f : Setting) (cs : List Char) : Prop :=
  ∃ v, f.Given s v ∧ SpelledValue v cs

/-- The text of a table: its header, and a pair for each of its settings. -/
def partText (spelling : Setting → List Char) (p : Part × List Setting) : List Char :=
  '[' :: (Toml.dotted p.1.path ++ [']', '\n']) ++
    p.2.flatMap fun f ↦ f.key.toList ++ ' ' :: '=' :: ' ' :: (spelling f ++ ['\n'])

/-- The text of a configuration with these tables and spellings. -/
def Outline.text (outline : Outline) (spelling : Setting → List Char) : String :=
  String.ofList (outline.flatMap (partText spelling))

/-! ### Every setting can be written -/

theorem toLower_digitChar : ∀ n < 16, (Nat.digitChar n).toLower = Nat.digitChar n := by
  decide

theorem map_toLower_toDigits (n : Nat) :
    (Nat.toDigits 16 n).map Char.toLower = Nat.toDigits 16 n := by
  induction n using Nat.strongRecOn with
  | _ n ih =>
    rw [Nat.toDigits_eq_if (by decide)]
    split_ifs with hsmall
    · rw [List.map_singleton, toLower_digitChar n hsmall]
    · rw [List.map_append, ih (n / 16) (by omega), List.map_singleton,
        toLower_digitChar (n % 16) (Nat.mod_lt n (by decide))]

/-- Every character can be written by its code point. -/
theorem exists_spelledChar (c : Char) : ∃ cs, SpelledChar c cs := by
  have hshort : (Nat.toDigits 16 c.toNat).length ≤ 8 := by
    rw [Nat.length_toDigits_le_iff (by decide) (by decide)]
    have hvalid : c.toNat < 0xd800 ∨ 0xdfff < c.toNat ∧ c.toNat < 0x110000 := c.valid
    omega
  have hlength : ((Nat.toDigits 16 c.toNat).leftpad 8 '0').length = 8 := by
    rw [List.length_leftpad, Nat.max_eq_left hshort]
  have hdigits : ((Nat.toDigits 16 c.toNat).leftpad 8 '0').map Char.toLower =
      (Nat.toDigits 16 c.toNat).leftpad 8 '0' := by
    rw [List.leftpad, List.map_append, List.map_replicate, map_toLower_toDigits]
    rfl
  have hletter : ('U', 8) ∈ Toml.codePointEscapes := by simp [Toml.codePointEscapes]
  exact ⟨_, .codePoint hletter hlength hdigits⟩

theorem exists_spelledText (s : List Char) : ∃ cs, SpelledText s cs := by
  induction s with
  | nil => exact ⟨[], .nil⟩
  | cons c s ih =>
    obtain ⟨cs, hc⟩ := exists_spelledChar c
    obtain ⟨ds, hs⟩ := ih
    exact ⟨cs ++ ds, .cons hc hs⟩

/-- A text without characters that need an escape may be written as it is. -/
theorem spelledText_of_plain {s : List Char}
    (h : ∀ c ∈ s, Toml.isText c = true ∧ c ≠ '"' ∧ c ≠ '\\') : SpelledText s s := by
  induction s with
  | nil => exact .nil
  | cons c s ih =>
    rw [List.forall_mem_cons] at h
    exact .cons (.plain h.1.1 h.1.2.1 h.1.2.2) (ih h.2)

theorem exists_spelledString (s : String) : ∃ cs, SpelledValue (.string s) cs := by
  obtain ⟨cs, hs⟩ := exists_spelledText s.toList
  exact ⟨_, .string hs⟩

theorem exists_spelledBool (b : Bool) : ∃ cs, SpelledValue (.boolean b) cs := by
  cases b with
  | false => exact ⟨_, .no⟩
  | true => exact ⟨_, .yes⟩

theorem Setting.exists_spelled (s : ServiceSettings) (f : Setting) : ∃ cs, f.Spelled s cs := by
  obtain ⟨cs, hcs⟩ : ∃ cs, SpelledValue (f.value s) cs := by
    cases f with
    | bindAddress | level | path => exact exists_spelledString _
    | pretty | debug | enabled => exact exists_spelledBool _
    | maxSizeMb | maxBackups => exact ⟨_, .natural _⟩
  exact ⟨cs, f.value s, Or.inl rfl, hcs⟩

/-! ### What was written is read -/

variable {s : ServiceSettings} {f : Setting} {v : Toml.Value}

theorem toNatural_natCast (expected : String) (n : Nat) :
    Toml.Value.toNatural expected (.integer n) = .ok n := by
  rw [Toml.Value.toNatural, if_neg (by omega), Int.toNat_natCast]

theorem toSeverity_of_ofName {name : String} {level : Severity}
    (h : Severity.ofName name = .ok level) : Toml.Value.toSeverity (.string name) = .ok level := by
  simp only [Toml.Value.toSeverity, Toml.Value.toText, bind, Except.bind, h]

/-- A setting is read as what it was written for. -/
theorem Setting.read_of_given (h : f.Given s v) : f.read v = .ok (f.value s) := by
  rcases h with rfl | ⟨rfl, name, rfl, hname⟩
  · cases f with
    | bindAddress | path | pretty | debug | enabled => rfl
    | level =>
      rw [read, value, toSeverity_of_ofName (Severity.ofName_name _)]
      rfl
    | maxSizeMb | maxBackups => simp only [read, value, toNatural_natCast, Except.map]
  · rw [read, toSeverity_of_ofName (Severity.ofName_of_toLower hname)]
    rfl

theorem Setting.fits_of_given (hsize : s.logging.file.maxSizeMb < 2 ^ 63)
    (hbackups : s.logging.file.maxBackups < 2 ^ 63) (h : f.Given s v) : v.Fits := by
  rcases h with rfl | ⟨rfl, name, rfl, -⟩
  · cases f with
    | bindAddress | path | pretty | debug | enabled | level => trivial
    | maxSizeMb => exact Int.ofNat_lt.mpr hsize
    | maxBackups => exact Int.ofNat_lt.mpr hbackups
  · trivial

/-- A configuration is known by the values of its settings. -/
theorem Setting.eq_of_value {r : ServiceSettings} (h : ∀ f : Setting, f.value r = f.value s) :
    r = s := by
  have hbind := Toml.Value.string.inj (h .bindAddress)
  have hpretty := Toml.Value.boolean.inj (h .pretty)
  have hdebug := Toml.Value.boolean.inj (h .debug)
  have hlevel := Severity.name_injective (Toml.Value.string.inj (h .level))
  have henabled := Toml.Value.boolean.inj (h .enabled)
  have hpath := Toml.Value.string.inj (h .path)
  have hsize := Int.ofNat_inj.mp (Toml.Value.integer.inj (h .maxSizeMb))
  have hbackups := Int.ofNat_inj.mp (Toml.Value.integer.inj (h .maxBackups))
  obtain ⟨⟨address⟩, ⟨pretty, debug, level, ⟨enabled, path, size, backups⟩⟩⟩ := r
  obtain ⟨⟨address'⟩, ⟨pretty', debug', level', ⟨enabled', path', size', backups'⟩⟩⟩ := s
  subst hbind hpretty hdebug hlevel henabled hpath hsize hbackups
  rfl

variable {outline : Outline} {spelling : Setting → List Char} {value : Setting → Toml.Value}

theorem Outline.text_eq (value : Setting → Toml.Value) :
    outline.text spelling = Toml.documentText (outline.flatMap (partLines value spelling)) := by
  rw [text, Toml.documentText, List.flatMap_assoc]
  congr 2
  funext p
  simp [partText, partLines, Line.text, List.flatMap_map]

theorem Part.isBareKey_path (part : Part) : ∀ k ∈ part.path, Toml.IsBareKey k := by
  cases part <;> simp [path, Toml.IsBareKey, Toml.isBareKeyChar]

theorem Setting.isBareKey_key (f : Setting) : Toml.IsBareKey f.key := by
  cases f <;> simp [key, Toml.IsBareKey, Toml.isBareKeyChar]

theorem wellSpelled_partLines {p : Part × List Setting}
    (h : ∀ f ∈ p.2, SpelledValue (value f) (spelling f) ∧ (value f).Fits) :
    ∀ line ∈ partLines value spelling p, line.WellSpelled := by
  intro line hline
  rcases List.mem_cons.mp hline with rfl | hline
  · refine ⟨?_, ?_, p.1.isBareKey_path⟩
    · cases p.1 <;> simp [Part.path]
    · cases p.1 <;> simp [Part.path, Toml.depthLimit]
  · obtain ⟨f, hf, rfl⟩ := List.mem_map.mp hline
    exact ⟨f.isBareKey_key, h f hf⟩

/-- A document in which some settings are given and the others have their defaults is the
configuration. -/
theorem ofToml_of_given {document : Toml.Table} (hsectioned : Sectioned document)
    (hfind : ∀ f : Setting,
      f.find? document = if f ∈ outline.settings then some (value f) else none)
    (hgiven : ∀ f ∈ outline.settings, f.Given s (value f))
    (hdefault : ∀ f ∉ outline.settings, f.value s = f.value {}) :
    ServiceSettings.ofToml document = .ok s := by
  obtain ⟨r, hr⟩ := exists_ofToml hsectioned (by
    intro f v hv
    rw [hfind] at hv
    split_ifs at hv with hf
    · cases hv
      exact ⟨_, Setting.read_of_given (hgiven f hf)⟩)
  have hvalue : ∀ f : Setting, f.value r = f.value s := by
    intro f
    have hread := value_of_ofToml hsectioned hr f
    rw [hfind] at hread
    split_ifs at hread with hf
    · rw [Option.elim_some, Setting.read_of_given (hgiven f hf)] at hread
      exact (Except.ok.inj hread).symm
    · rw [Option.elim_none] at hread
      rw [hdefault f hf, Except.ok.inj hread]
  rw [hr, Setting.eq_of_value hvalue]

/-- Every valid configuration whose numbers fit in a signed 64-bit word can be written as TOML, and
is read back from any way to write it: with its tables in any order, its settings in any order
within them and in any spelling, and any settings at their defaults left out. -/
theorem written_is_read_back (s : ServiceSettings) (hvalid : s.problems = [])
    (hsize : s.logging.file.maxSizeMb < 2 ^ 63) (hbackups : s.logging.file.maxBackups < 2 ^ 63) :
    (∀ f : Setting, ∃ cs, f.Spelled s cs) ∧
    ∀ (outline : Outline) (spelling : Setting → List Char), outline.Proper →
      (∀ f ∈ outline.settings, f.Spelled s (spelling f)) →
      (∀ f ∉ outline.settings, f.value s = f.value {}) →
      parse (outline.text spelling) = .ok s ∧
      ∀ (t : FileTree) (path : FilePath), t.readFile path = .ok (outline.text spelling).toUTF8 →
        load t path = .ok s := by
  refine ⟨Setting.exists_spelled s, fun outline spelling houtline hspelled hdefault ↦ ?_⟩
  have hchoice : ∀ f : Setting, ∃ v, f ∈ outline.settings →
      f.Given s v ∧ SpelledValue v (spelling f) := by
    intro f
    by_cases hf : f ∈ outline.settings
    · obtain ⟨v, hv⟩ := hspelled f hf
      exact ⟨v, fun _ ↦ hv⟩
    · exact ⟨.dateTime, fun h ↦ absurd h hf⟩
  choose value hvalue using hchoice
  have hlines : ∀ line ∈ outline.flatMap (partLines value spelling), line.WellSpelled := by
    intro line hline
    obtain ⟨p, hp, hline⟩ := List.mem_flatMap.mp hline
    apply wellSpelled_partLines _ line hline
    intro f hf
    obtain ⟨hgiven, hspelling⟩ := hvalue f (List.mem_flatMap.mpr ⟨p, hp, hf⟩)
    exact ⟨hspelling, Setting.fits_of_given hsize hbackups hgiven⟩
  obtain ⟨document, hdocument, hsectioned, hfind⟩ :=
    exists_document value spelling houtline
  have hsettings := ofToml_of_given hsectioned hfind (fun f hf ↦ (hvalue f hf).1) hdefault
  have hparse : parse (outline.text spelling) = .ok s := by
    rw [parse, Outline.text_eq value, Toml.read?_documentText hlines, hdocument]
    simp only [hsettings, hvalid, List.isEmpty_nil, if_true]
  refine ⟨hparse, fun t path hread ↦ ?_⟩
  rw [load, hread]
  simp only [Text.Utf8.decode?_toUTF8, hparse]

/-- The log file before logging, a quote by its code point, a level in mixed case and several
settings left out. -/
theorem written_is_read_back_mixed :
    let s : ServiceSettings :=
      { logging :=
        { level := .warning, file := { enabled := true, path := "a\"b", maxBackups := 7 } } }
    s.problems = [] ∧ s.logging.file.maxSizeMb < 2 ^ 63 ∧ s.logging.file.maxBackups < 2 ^ 63 ∧
      parse ("[logging.file]\nmax_backups = 7\npath = \"a\\u0022b\"\nenabled = true\n" ++
        "[logging]\nlevel = \"WarNing\"\n") = .ok s := by
  intro s
  let spelling : Setting → List Char
    | .maxBackups => ['7']
    | .path => ['"', 'a', '\\', 'u', '0', '0', '2', '2', 'b', '"']
    | .enabled => ['t', 'r', 'u', 'e']
    | _ => ['"', 'W', 'a', 'r', 'N', 'i', 'n', 'g', '"']
  let outline : Outline := [(.file, [.maxBackups, .path, .enabled]), (.logging, [.level])]
  have hvalid : s.problems = [] := by
    decide +kernel
  have hproper : outline.Proper := by
    constructor <;> decide
  have hquote : SpelledChar '"' ['\\', 'u', '0', '0', '2', '2'] :=
    .codePoint (l := 'u') (by decide) rfl (by decide)
  have hpath : SpelledText "a\"b".toList ['a', '\\', 'u', '0', '0', '2', '2', 'b'] :=
    .cons (s := ['"', 'b']) (.plain rfl (by decide) (by decide)) <|
      .cons hquote (spelledText_of_plain (by simp [Toml.isText]))
  have hlevel : SpelledText "WarNing".toList ['W', 'a', 'r', 'N', 'i', 'n', 'g'] :=
    spelledText_of_plain (s := ['W', 'a', 'r', 'N', 'i', 'n', 'g'])
      (by simp [Toml.isText])
  have hspelled : ∀ f ∈ outline.settings, f.Spelled s (spelling f) := by
    intro f hf
    cases f with
    | maxBackups => exact ⟨_, Or.inl rfl, .natural 7⟩
    | path => exact ⟨_, Or.inl rfl, .string hpath⟩
    | enabled => exact ⟨_, Or.inl rfl, .yes⟩
    | level => exact ⟨_, Or.inr ⟨rfl, "WarNing", rfl, by simp [s, Severity.name]⟩, .string hlevel⟩
    | _ => exact absurd hf (by decide)
  have hdefault : ∀ f ∉ outline.settings, f.value s = f.value {} := by
    intro f hf
    cases f <;> first | rfl | exact absurd (by decide) hf
  have htext : outline.text spelling =
      "[logging.file]\nmax_backups = 7\npath = \"a\\u0022b\"\nenabled = true\n" ++
        "[logging]\nlevel = \"WarNing\"\n" := by
    rfl
  refine ⟨hvalid, by decide, by decide, ?_⟩
  rw [← htext]
  exact ((written_is_read_back s hvalid (by decide) (by decide)).2 outline spelling hproper hspelled
    hdefault).1

end Logbook.Config
