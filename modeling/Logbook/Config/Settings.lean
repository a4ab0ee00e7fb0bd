import Logbook.Decimal.Layout
import Logbook.Json.Fault
import Logbook.Severity
import Logbook.Toml.Assembly

/-!
# Settings

What a service is configured with: the address it listens on and how it logs. Every setting has a
default, so that the empty configuration is a complete one.

A group of settings is read from a table of a document, whose members are taken in their order;
members that are no settings are passed over, and settings without a member keep their defaults. A
group may also be given as an array of its settings in their order. The first member that does not
fit is the error.
-/

set_option autoImplicit false
set_option relaxedAutoImplicit false

namespace Logbook

/-! ### The groups of settings -/

/-- Where the service listens. -/
structure ListenerSettings where
  bindAddress : String := "0.0.0.0:8080"
  deriving DecidableEq, Repr, Inhabited

/-- The log file: its path, the size in megabytes at which it is rotated (zero for the default) and
the number of backups to keep (zero for all). -/
structure FileSettings where
  enabled : Bool := false
  path : String := "logs/service.log"
  maxSizeMb : Nat := 100
  maxBackups : Nat := 0
  deriving DecidableEq, Repr, Inhabited

/-- How the service logs: lines for people or structured records on the console, whether call sites
are recorded, the minimum severity, and the log file. -/
structure LoggingSettings where
  pretty : Bool := false
  debug : Bool := false
  level : Severity := .info
  file : FileSettings := {}
  deriving DecidableEq, Repr, Inhabited

/-- All settings of a service. -/
structure ServiceSettings where
  listener : ListenerSettings := {}
  logging : LoggingSettings := {}
  deriving DecidableEq, Repr, Inhabited

/-! ### Settings from documents -/

/-- Why a document holds no settings. -/
inductive ShapeError where
  | mismatch (m : Mismatch)
  | level (e : Severity.Unknown)
  deriving DecidableEq, Repr

/-- The text of the error. -/
def ShapeError.message : ShapeError → String
  | mismatch m => m.message
  | level e => e.message

namespace Toml.Value

/-- The text of a float in an error: as on the console, but recognisable as no integer. -/
def floatText (x : Binary64) : String :=
  let text := Decimal.plainText x
  if x.isFinite && !text.toList.contains '.' then text ++ ".0" else text

/-- What a value is found to be. A date is a map with one member. -/
def found : Value → Found
  | string s => .string s
  | integer n => .integer n
  | float x => .float (floatText x)
  | boolean b => .boolean b
  | dateTime => .map
  | array _ => .sequence
  | table _ => .map

/-- The error for a value of the wrong kind. -/
def wrongKind {α : Type} (v : Value) (expected : String) : Except ShapeError α :=
  .error (.mismatch (.kind v.found expected))

/-- A value as a truth value. -/
def toBool : Value → Except ShapeError Bool
  | boolean b => .ok b
  | v => v.wrongKind "a boolean"

/-- A value as a text. -/
def toText : Value → Except ShapeError String
  | string s => .ok s
  | v => v.wrongKind "a string"

/-- A value as a natural of the kind `expected`. -/
def toNatural (expected : String) : Value → Except ShapeError Nat
  | integer n =>
    if n < 0 then .error (.mismatch (.range (.integer n) expected)) else .ok n.toNat
  | v => v.wrongKind expected

/-- A value as a severity. -/
def toSeverity (v : Value) : Except ShapeError Severity := do
  match Severity.ofName (← v.toText) with
  | .ok s => .ok s
  | .error e => .error (.level e)

/-- How the settings of a group are set, in their order. -/
abbrev Setters (α : Type) := List (String × (α → Value → Except ShapeError α))

/-- Sets one member of a table, if it is a setting. -/
def setMember {α : Type} (setters : Setters α) (settings : α) (member : String × Value) :
    Except ShapeError α :=
  match setters.lookup member.1 with
  | some set => set settings member.2
  | none => .ok settings

/-- A group of settings that starts from its defaults. -/
def toGroup {α : Type} (name : String) (setters : Setters α) (defaults : α) :
    Value → Except ShapeError α
  | table members => members.foldlM (setMember setters) defaults
  | array items =>
    (setters.zip items).foldlM (fun settings (setter, item) ↦ setter.2 settings item) defaults
  | dateTime => .ok defaults
  | v => v.wrongKind ("struct " ++ name)

end Toml.Value

namespace ListenerSettings

/-- The settings of the listener. -/
def setters : Toml.Value.Setters ListenerSettings :=
  [("bind_address", fun s v ↦ do return { s with bindAddress := ← v.toText })]

/-- Reads the settings of the listener. -/
def ofToml (v : Toml.Value) : Except ShapeError ListenerSettings :=
  v.toGroup "ListenerConfig" setters {}

end ListenerSettings

namespace FileSettings

/-- The settings of the log file. -/
def setters : Toml.Value.Setters FileSettings :=
  [("enabled", fun s v ↦ do return { s with enabled := ← v.toBool }),
   ("path", fun s v ↦ do return { s with path := ← v.toText }),
   ("max_size_mb", fun s v ↦ do return { s with maxSizeMb := ← v.toNatural "u64" }),
   ("max_backups", fun s v ↦ do return { s with maxBackups := ← v.toNatural "usize" })]

/-- Reads the settings of the log file. -/
def ofToml (v : Toml.Value) : Except ShapeError FileSettings :=
  v.toGroup "FileLogConfig" setters {}

end FileSettings

namespace LoggingSettings

/-- The settings of logging. -/
def setters : Toml.Value.Setters LoggingSettings :=
  [("pretty", fun s v ↦ do return { s with pretty := ← v.toBool }),
   ("debug", fun s v ↦ do return { s with debug := ← v.toBool }),
   ("level", fun s v ↦ do return { s with level := ← v.toSeverity }),
   ("file", fun s v ↦ do return { s with file := ← FileSettings.ofToml v })]

/-- Reads the settings of logging. -/
def ofToml (v : Toml.Value) : Except ShapeError LoggingSettings :=
  v.toGroup "LoggingConfig" setters {}

end LoggingSettings

namespace ServiceSettings

/-- The settings of the service. -/
def setters : Toml.Value.Setters ServiceSettings :=
  [("listener", fun s v ↦ do return { s with listener := ← ListenerSettings.ofToml v }),
   ("logging", fun s v ↦ do return { s with logging := ← LoggingSettings.ofToml v })]

/-- Reads the settings of the service from a document. -/
def ofToml (document : Toml.Table) : Except ShapeError ServiceSettings :=
  (Toml.Value.table document).toGroup "ServiceConfig" setters {}

end ServiceSettings

end Logbook
