import Logbook.Text.UpperCase

/-!
# Severity

The ordered scale of a record's severity, from debug up to panic, with the names it goes by: the
word written into structured records (`text`), the label of a console line (`label`), and the name
a configuration uses (`name`). Names are read without regard to letter case (`ofName`); any other
name is an error that carries the name unchanged (`UnknownSeverity`), never a default.
-/

set_option autoImplicit false
set_option relaxedAutoImplicit false

namespace Logbook

/-- How severe a record is. A sink admits records at or above its minimum. -/
inductive Severity where
  | debug
  | info
  | warning
  | error
  | fatal
  | panic
  deriving DecidableEq, Repr, Inhabited

namespace Severity

/-- All severities, lowest first. -/
def all : List Severity :=
  [debug, info, warning, error, fatal, panic]

/-- The place on the scale, counted from zero. -/
def rank : Severity → Nat
  | debug => 0
  | info => 1
  | warning => 2
  | error => 3
  | fatal => 4
  | panic => 5

instance : LE Severity := ⟨fun a b => a.rank ≤ b.rank⟩

instance : LT Severity := ⟨fun a b => a.rank < b.rank⟩

instance (a b : Severity) : Decidable (a ≤ b) := inferInstanceAs (Decidable (a.rank ≤ b.rank))

instance (a b : Severity) : Decidable (a < b) := inferInstanceAs (Decidable (a.rank < b.rank))

instance : Ord Severity := ⟨fun a b => compare a.rank b.rank⟩

theorem le_def (a b : Severity) : a ≤ b ↔ a.rank ≤ b.rank := Iff.rfl

theorem le_trans {a b c : Severity} (hab : a ≤ b) (hbc : b ≤ c) : a ≤ c :=
  Nat.le_trans hab hbc

/-- The word written into structured records. -/
def text : Severity → String
  | debug => "debug"
  | info => "info"
  | warning => "warn"
  | error => "error"
  | fatal => "fatal"
  | panic => "panic"

/-- The label of a console line. -/
def label : Severity → String
  | debug => "DEBUG"
  | info => "INFO"
  | warning => "WARN"
  | error => "ERROR"
  | fatal => "FATAL"
  | panic => "PANIC"

/-- The full name in upper case, which level names are compared with. -/
def fullName : Severity → String
  | debug => "DEBUG"
  | info => "INFO"
  | warning => "WARNING"
  | error => "ERROR"
  | fatal => "FATAL"
  | panic => "PANIC"

/-- The name a configuration uses: it is read back as the same severity. -/
def name : Severity → String
  | warning => "warning"
  | s => s.text

/-- A level name that stands for no severity. -/
structure Unknown where
  name : String
  deriving DecidableEq, Repr

/-- The text of the error. -/
def Unknown.message (e : Unknown) : String :=
  "unknown log level: " ++ e.name

/-- The severity a level name stands for: the one whose full name is the name's upper-case image. -/
def ofName (name : String) : Except Unknown Severity :=
  match all.find? fun s => s.fullName.toList == Text.upperCase name.toList with
  | some s => .ok s
  | none => .error ⟨name⟩

/-- A level name fails exactly with itself. -/
theorem ofName_eq_error {name : String} {e : Unknown} (h : ofName name = .error e) :
    e = ⟨name⟩ := by
  unfold ofName at h
  split at h
  · simp at h
  · exact (Except.error.inj h).symm

/-- The name of a severity is read back as that severity. -/
theorem ofName_name (s : Severity) : ofName s.name = .ok s := by
  cases s <;> rfl

end Severity

end Logbook
