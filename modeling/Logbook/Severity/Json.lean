import Logbook.Json.Fault
import Logbook.Json.Writer
import Logbook.Severity

/-!
# Severities in JSON

A severity is written as the JSON string of its name, and any JSON string that is a level name is
read as its severity. A text of another kind is told by its first token alone; what follows a
well-formed string is looked at only after the name has been understood. What is said of a name that
is none is handed to the reader as the message of a fault.
-/

set_option autoImplicit false
set_option relaxedAutoImplicit false

namespace Logbook.Severity

/-- Why a JSON text is no severity. -/
inductive JsonError where
  /-- The text is not JSON. -/
  | malformed
  /-- The text begins a value that is no string. -/
  | notString (mismatch : Mismatch)
  /-- The string is no level name. -/
  | unknown (fault : Json.Fault)
  deriving DecidableEq, Repr

/-- The text of the error, where it has one of its own, without a place. -/
def JsonError.message? : JsonError → Option String
  | malformed => none
  | notString m => some m.message
  | unknown fault => some fault.message

/-- The error for a value that is no string. -/
def JsonError.ofFound (found : Found) : JsonError :=
  notString (.kind found "a string")

/-- What a number is found to be. -/
def foundNumber : Json.Number → Found
  | .integer n => .integer n.val
  | .float x => .float (Decimal.structuredText x)

/-- The kind of the value a text begins with, which is no string. -/
def jsonKind? : List Char → Option Found
  | 'n' :: rest => (Json.expect? ['u', 'l', 'l'] rest).map fun _ ↦ .null
  | 't' :: rest => (Json.expect? ['r', 'u', 'e'] rest).map fun _ ↦ .boolean true
  | 'f' :: rest => (Json.expect? ['a', 'l', 's', 'e'] rest).map fun _ ↦ .boolean false
  | '[' :: _ => some .sequence
  | '\x7b' :: _ => some .map
  | cs => (Json.Number.read? cs).map fun (n, _) ↦ foundNumber n

/-- The severity a JSON text stands for. -/
def ofJson (text : String) : Except JsonError Severity :=
  match Json.skipSpace text.toList with
  | '"' :: rest =>
    match Json.stringTail? [] rest with
    | none => .error .malformed
    | some (name, tail) =>
      match ofName (String.ofList name) with
      | .error e => .error (.unknown (.ofMessage e.message))
      | .ok s => if (Json.skipSpace tail).isEmpty then .ok s else .error .malformed
  | cs =>
    match jsonKind? cs with
    | some found => .error (.ofFound found)
    | none => .error .malformed

/-- A severity as JSON. -/
def toJson (s : Severity) : Json.Value :=
  .string s.name

end Logbook.Severity
