import Logbook.Proofs.Config.Written
import Logbook.Proofs.Json.Faults
import Logbook.Proofs.Json.Spelling
import Logbook.Proofs.Startup
import Logbook.Severity.Json

/-!
# Where level names are read

A level name is read by itself, as a string of a JSON text, and as the level in a configuration. In
any spelling of the string, all three come to the same severity or refuse the name with the same
words (`entry_points_agree`); only the JSON reader, which is handed these words as a message, takes
a place off their end (`place_taken_off`).
-/

set_option autoImplicit false
set_option relaxedAutoImplicit false

namespace Logbook.Severity

variable {name : String} {json toml : List Char} {s : Severity}

/-! ### The three texts -/

/-- A spelling in JSON, with its quotes. -/
def jsonLiteral (spelling : List Char) : String :=
  String.ofList ('"' :: (spelling ++ ['"']))

/-- A configuration that gives a level and nothing else. -/
def levelDocument (spelling : List Char) : String :=
  "[logging]\nlevel = \"" ++ String.ofList spelling ++ "\"\n"

/-! ### Each way to read -/

/-- The JSON reader finds the name, and makes a fault from what is said of one it does not know. -/
theorem ofJson_jsonLiteral (hjson : Json.SpelledText name.toList json) :
    ofJson (jsonLiteral json) =
      (ofName name).mapError fun e ↦ .unknown (.ofMessage e.message) := by
  have hspace : Json.skipSpace (jsonLiteral json).toList = '"' :: (json ++ ['"']) := by
    rw [jsonLiteral, String.toList_ofList]
    rfl
  have hname : Json.stringTail? [] (json ++ ['"']) = some (name.toList, []) :=
    Json.stringTail?_spelled hjson [] []
  rw [ofJson, hspace]
  simp only [hname, String.ofList_toList]
  cases ofName name <;> rfl

theorem levelDocument_eq : levelDocument toml = Toml.documentText
    [.header ["logging"], .pair "level" (.string name) ('"' :: toml ++ ['"'])] := by
  apply String.toList_inj.mp
  unfold levelDocument Toml.documentText
  rw [String.toList_append, String.toList_append]
  simp [Toml.Line.text, Toml.dotted]

theorem read?_levelDocument (htoml : Toml.SpelledText name.toList toml) :
    Toml.read? (levelDocument toml) = some [("logging", .table [("level", .string name)])] := by
  have hheader : (Toml.Line.header ["logging"]).WellSpelled := by
    simp [Toml.Line.WellSpelled, Toml.depthLimit, Toml.IsBareKey, Toml.isBareKeyChar]
  have hpair : (Toml.Line.pair "level" (.string name) ('"' :: toml ++ ['"'])).WellSpelled :=
    ⟨by simp [Toml.IsBareKey, Toml.isBareKeyChar], .string htoml, trivial⟩
  have hopen : Toml.Assembly.start.header ["logging"] =
      some ⟨Keyed.erase [] "logging", [], ["logging"], false⟩ :=
    Toml.Assembly.header_top rfl rfl
  rw [levelDocument_eq, Toml.read?_documentText
    (List.forall_mem_cons.mpr ⟨hheader, List.forall_mem_singleton.mpr hpair⟩)]
  simp only [List.foldlM_cons, Toml.Line.add, hopen, Option.bind_eq_bind, Option.bind_some]
  rw [Toml.pair_of_notMem (by simp)]
  rfl

/-- A document that gives nothing but a level leaves all else at its defaults. -/
theorem ofToml_level (v : Toml.Value) :
    ServiceSettings.ofToml [("logging", .table [("level", v)])] =
      v.toSeverity.map fun s ↦ { logging := { level := s } } := by
  have hlogging : LoggingSettings.ofToml (.table [("level", v)]) =
      v.toSeverity.map fun s ↦ { level := s } := by
    have hset : LoggingSettings.setters.lookup "level" = some fun s v ↦
        v.toSeverity.map fun level ↦ { s with level } := by
      simp [LoggingSettings.setters, List.lookup_cons]
      rfl
    simp only [LoggingSettings.ofToml, Toml.Value.toGroup, List.foldlM_cons, Toml.Value.setMember,
      hset, List.foldlM_nil, bind_pure]
  have hset : ServiceSettings.setters.lookup "logging" = some fun s v ↦
      (LoggingSettings.ofToml v).map fun logging ↦ { s with logging } := by
    simp [ServiceSettings.setters, List.lookup_cons]
    rfl
  simp only [ServiceSettings.ofToml, Toml.Value.toGroup, List.foldlM_cons, Toml.Value.setMember,
    hset, List.foldlM_nil, bind_pure, hlogging]
  cases v.toSeverity <;> rfl

/-- A configuration that gives a level is valid if the level is known. -/
theorem parse_levelDocument (htoml : Toml.SpelledText name.toList toml) :
    Config.parse (levelDocument toml) =
      ((ofName name).mapError fun e ↦ .shape (.level e)).map
        fun s ↦ { logging := { level := s } } := by
  have hvalid (s : Severity) : ServiceSettings.problems { logging := { level := s } } = [] :=
    ServiceSettings.problems_default
  have hlevel : Toml.Value.toSeverity (.string name) = (ofName name).mapError .level := by
    simp only [Toml.Value.toSeverity, Toml.Value.toText, bind, Except.bind]
    cases ofName name <;> rfl
  rw [Config.parse, read?_levelDocument htoml]
  simp only [ofToml_level, hlevel]
  cases ofName name with
  | error e => rfl
  | ok s => simp only [Except.mapError, Except.map, hvalid, List.isEmpty_nil, if_true]

/-! ### All ways to read -/

/-- Every text can be spelled in JSON and in TOML, and however it is, all ways to read it come to
the same severity, or all refuse it with the same words. Of these the JSON reader takes off a place
at their end; without one it keeps them, too. -/
theorem entry_points_agree (name : String) :
    (∃ json, Json.SpelledText name.toList json) ∧ (∃ toml, Toml.SpelledText name.toList toml) ∧
    ∀ json toml, Json.SpelledText name.toList json → Toml.SpelledText name.toList toml →
      (∃ s, ofName name = .ok s ∧ ofJson (jsonLiteral json) = .ok s ∧
        Config.parse (levelDocument toml) = .ok { logging := { level := s } }) ∨
      ∃ (e : Unknown) (shape : ShapeError) (fault : Json.Fault) (words : String),
        words = "unknown log level: " ++ name ∧
        (ofName name = .error e ∧ e.message = words) ∧
        (Config.parse (levelDocument toml) = .error (.shape shape) ∧ shape.message = words) ∧
        ofJson (jsonLiteral json) = .error (.unknown fault) ∧
        (∀ text line column, Json.EndsInPlace words.toList text line column →
          fault = ⟨String.ofList text, line, column⟩) ∧
        ((∀ text line column, ¬Json.EndsInPlace words.toList text line column) →
          fault = ⟨words, 0, 0⟩ ∧ fault.text = words) := by
  refine ⟨⟨_, Json.spelledText_escaped name.toList⟩, Config.exists_spelledText name.toList, ?_⟩
  intro json toml hjson htoml
  have hofJson := ofJson_jsonLiteral hjson
  have hparse := parse_levelDocument htoml
  cases hname : ofName name with
  | ok s =>
    rw [hname] at hofJson hparse
    exact Or.inl ⟨s, rfl, hofJson, hparse⟩
  | error e =>
    obtain rfl := ofName_eq_error hname
    rw [hname] at hofJson hparse
    have hwords : (⟨name⟩ : Unknown).message = "unknown log level: " ++ name := rfl
    refine Or.inr ⟨⟨name⟩, .level ⟨name⟩, .ofMessage (⟨name⟩ : Unknown).message, _, hwords.symm,
      ⟨rfl, hwords⟩, ⟨hparse, hwords⟩, hofJson, ?_, ?_⟩
    · rw [hwords]
      exact fun text line column hplace ↦ Json.Fault.ofMessage_of_place hplace
    · intro hnone
      rw [hwords, Json.Fault.ofMessage_of_noPlace hnone]
      exact ⟨rfl, if_pos rfl⟩

/-- A quote, a control character and a character outside the basic plane, by their escapes. -/
theorem entry_points_agree_escaped :
    let words := "unknown log level: \"\x01😀"
    (∃ e, ofName "\"\x01😀" = .error e ∧ e.message = words) ∧
      ofJson "\"\\\"\\u0001\\ud83d\\uDE00\"" = .error (.unknown ⟨words, 0, 0⟩) ∧
      ∃ shape, Config.parse "[logging]\nlevel = \"\\u0022\\u0001\\U0001F600\"\n" =
        .error (.shape shape) ∧ shape.message = words := by
  intro words
  let name := "\"\x01😀"
  have hchars : name.toList = ['"', '\x01', '😀'] := by
    decide +kernel
  have hjson : Json.SpelledText name.toList
      (['\\', '"'] ++ ('\\' :: 'u' :: ['0', '0', '0', '1'] ++
        ('\\' :: 'u' :: (['d', '8', '3', 'd'] ++ '\\' :: 'u' :: ['D', 'E', '0', '0']) ++ []))) := by
    have hcontrol : Json.SpelledUnit '\x01'.toNat ['0', '0', '0', '1'] := ⟨rfl, by decide⟩
    have hhigh : Json.SpelledUnit 0xD83D ['d', '8', '3', 'd'] := ⟨rfl, by decide⟩
    have hlow : Json.SpelledUnit 0xDE00 ['D', 'E', '0', '0'] := ⟨rfl, by decide⟩
    rw [hchars]
    exact .cons (.letter (by simp [Json.letterEscapes])) <| .cons (.codeUnit hcontrol) <|
      .cons (.surrogates (by decide) (by decide) (by decide) hhigh hlow) .nil
  have htoml : Toml.SpelledText name.toList
      ('\\' :: 'u' :: ['0', '0', '2', '2'] ++ ('\\' :: 'u' :: ['0', '0', '0', '1'] ++
        ('\\' :: 'U' :: ['0', '0', '0', '1', 'F', '6', '0', '0'] ++ []))) := by
    have hshort : ('u', 4) ∈ Toml.codePointEscapes := by decide
    have hlong : ('U', 8) ∈ Toml.codePointEscapes := by decide
    rw [hchars]
    exact .cons (.codePoint hshort rfl (by decide)) <| .cons (.codePoint hshort rfl (by decide)) <|
      .cons (.codePoint hlong rfl (by decide)) .nil
  have hunknown : ofName name = .error ⟨name⟩ := by
    decide +kernel
  have hnoPlace : Json.placeAtEnd? words.toList.reverse = none := by
    decide +kernel
  have hsame : "unknown log level: " ++ name = words := by
    decide +kernel
  obtain ⟨s, hs, -⟩ | ⟨e, shape, fault, _, rfl, hname, ⟨hparse, hshape⟩, hofJson, -, hkept⟩ :=
    (entry_points_agree name).2.2 _ _ hjson htoml
  · rw [hunknown] at hs
    exact absurd hs (by simp)
  · rw [hsame] at hname hshape hkept
    obtain ⟨rfl, -⟩ := hkept fun text line column h ↦ by
      rw [← text.reverse_reverse, ← Json.placeAtEnd?_eq_some_iff, hnoPlace] at h
      exact absurd h (by simp)
    exact ⟨⟨e, hname⟩, hofJson, shape, hparse, hshape⟩

/-- What ends in a place is not kept as it is in JSON. -/
theorem place_taken_off :
    let name := "x at line 0 column 1"
    Json.SpelledText name.toList name.toList ∧ ofName name = .error ⟨name⟩ ∧
      ∃ fault, ofJson (jsonLiteral name.toList) = .error (.unknown fault) ∧
        fault.message ≠ "unknown log level: " ++ name ∧
        fault.text ≠ "unknown log level: " ++ name := by
  intro name
  let fault : Json.Fault := ⟨"unknown log level: x", 0, 1⟩
  have hname : ofName name = .error ⟨name⟩ := by
    decide +kernel
  have hplain : name.toList.flatMap Json.escapeChar = name.toList := by
    decide +kernel
  have hspelled : Json.SpelledText name.toList name.toList := by
    have hescaped := Json.spelledText_escaped name.toList
    rwa [hplain] at hescaped
  have hfault : Json.Fault.ofMessage (⟨name⟩ : Unknown).message = fault := by
    decide +kernel
  have hofJson : ofJson (jsonLiteral name.toList) = .error (.unknown fault) := by
    have hread := ofJson_jsonLiteral hspelled
    rwa [hname, Except.mapError, hfault] at hread
  have hmessage : fault.message ≠ "unknown log level: " ++ name := by
    decide +kernel
  have htext : fault.text ≠ "unknown log level: " ++ name := by
    decide +kernel
  exact ⟨hspelled, hname, fault, hofJson, hmessage, htext⟩

end Logbook.Severity
