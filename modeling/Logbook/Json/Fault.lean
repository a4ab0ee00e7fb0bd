import Logbook.Json.Reader
import Logbook.Text.CharClass

/-!
# Faults

Where a document holds a value of another kind, or out of the range, than the reader expects, it is
said what was found and what was expected (`Mismatch`).

What is wrong with a JSON text is told in a message, with the line and the column where it was
found. A fault can also be made from a message that comes from elsewhere and has no such place; but
if that message itself ends in a place, written the way faults are shown, it is taken off the
message and becomes the place of the fault.
-/

set_option autoImplicit false
set_option relaxedAutoImplicit false

namespace Logbook

/-! ### Values of the wrong kind -/

/-- What a value turned out to be. A float comes with the text it is shown by. -/
inductive Found where
  | boolean (b : Bool)
  | integer (n : Int)
  | float (shown : String)
  | string (s : String)
  | null
  | sequence
  | map
  deriving DecidableEq, Repr

/-- The words for what was found. -/
def Found.text : Found → String
  | boolean b => "boolean `" ++ toString b ++ "`"
  | integer n => "integer `" ++ toString n ++ "`"
  | float shown => "floating point `" ++ shown ++ "`"
  | string s => "string " ++ Text.quoted s
  | null => "null"
  | sequence => "sequence"
  | map => "map"

/-- A value that is not what was expected: of the wrong kind, or of the right kind but out of
range. -/
inductive Mismatch where
  | kind (found : Found) (expected : String)
  | range (found : Found) (expected : String)
  deriving DecidableEq, Repr

/-- The text of the error. -/
def Mismatch.message : Mismatch → String
  | kind found expected => "invalid type: " ++ found.text ++ ", expected " ++ expected
  | range found expected => "invalid value: " ++ found.text ++ ", expected " ++ expected

/-! ### Places -/

namespace Json

open Decimal (digitRun natOfDigits)

/-- What is wrong with a JSON text, and where. Line zero is no place. -/
structure Fault where
  message : String
  line : Nat
  column : Nat
  deriving DecidableEq, Repr

/-- The words before the line of a place. -/
def lineWords : List Char := " at line ".toList

/-- The words before the column of a place. -/
def columnWords : List Char := " column ".toList

/-- Takes a number off the end of a text, if it fits in 64 bits. The text is given from its end. -/
def numberAtEnd? (fromEnd : List Char) : Option (Nat × List Char) :=
  let (digits, before) := digitRun fromEnd
  let n := natOfDigits digits.reverse
  if digits.isEmpty ∨ UInt64.size ≤ n then none else some (n, before)

/-- Takes a place off the end of a message, which is given from its end: the line, the column and
what stands before them. -/
def placeAtEnd? (fromEnd : List Char) : Option (Nat × Nat × List Char) := do
  let (column, before) ← numberAtEnd? fromEnd
  let before ← expect? columnWords.reverse before
  let (line, before) ← numberAtEnd? before
  let before ← expect? lineWords.reverse before
  return (line, column, before)

namespace Fault

/-- The fault made from a message. -/
def ofMessage (message : String) : Fault :=
  match placeAtEnd? message.toList.reverse with
  | some (line, column, before) => ⟨String.ofList before.reverse, line, column⟩
  | none => ⟨message, 0, 0⟩

/-- The text a fault is shown by. -/
def text (f : Fault) : String :=
  if f.line = 0 then f.message
  else f.message ++ String.ofList lineWords ++ toString f.line ++ String.ofList columnWords ++
    toString f.column

end Fault

end Json

end Logbook
