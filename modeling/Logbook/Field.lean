import Logbook.Decimal.Layout
import Logbook.Json.Writer
import Logbook.Text.CharClass

/-!
# Fields

The named values of events and spans. A value is shown in three ways: as text on the console
(`FieldValue.text`), as JSON in the record of the event it belongs to (`FieldValue.inEvent`), and as
JSON in the records of events inside the span it belongs to (`FieldValue.inSpan`). The last two
differ for bytes and for floats that are not finite. Whatever has no kind of its own is kept as the
text it shows itself by (`shown`).
-/

set_option autoImplicit false
set_option relaxedAutoImplicit false

namespace Logbook

/-- The value of a field. -/
inductive FieldValue where
  | str (s : String)
  | bool (b : Bool)
  | integer (n : Json.Integer)
  | float (x : Binary64)
  | bytes (b : List UInt8)
  /-- A value known only by the text it shows. -/
  | shown (s : String)
  deriving Repr, Inhabited

/-- A field: a name, and a value unless it was only declared. -/
structure Field where
  name : String
  value : Option FieldValue
  deriving Repr, Inhabited

namespace FieldValue

/-- An integer of more than 64 bits shows itself by its digits. -/
def wide (n : Int) : FieldValue :=
  .shown (String.ofList (Json.intChars n))

/-- A text that shows itself between quotes. -/
def quoted (s : String) : FieldValue :=
  .shown (Text.quoted s)

/-- Several texts that show themselves between quotes. -/
def quotedList (items : List String) : FieldValue :=
  .shown (Text.quotedList items)

/-- Two hexadecimal digits. -/
def byteChars (b : UInt8) : List Char :=
  [Json.hexChar (b.toNat / 16), Json.hexChar b.toNat]

/-- Bytes in hexadecimal, in brackets. -/
def bytesText (b : List UInt8) : String :=
  String.ofList ('[' :: ([' '].intercalate (b.map byteChars) ++ [']']))

/-- A value on the console. -/
def text : FieldValue → String
  | str s => s
  | bool true => "true"
  | bool false => "false"
  | integer n => String.ofList (Json.intChars n.val)
  | float x => Decimal.plainText x
  | bytes b => bytesText b
  | shown s => s

/-- A value in the structured record of its event. A float that is not finite is named, and bytes
are shown as on the console. -/
def inEvent : FieldValue → Json.Value
  | str s => .string s
  | bool b => .bool b
  | integer n => .number (.integer n)
  | float x => (Json.Value.ofFinite? x).getD (.string (Decimal.plainText x))
  | bytes b => .string (bytesText b)
  | shown s => .string s

/-- A value in the structured records inside its span. A float that is not finite is `null`, and
bytes are numbers. -/
def inSpan : FieldValue → Json.Value
  | str s => .string s
  | bool b => .bool b
  | integer n => .number (.integer n)
  | float x => .ofFloat x
  | bytes b => .ofBytes b
  | shown s => .string s

/-- Whether the value is known only by the text it shows. -/
def isShown : FieldValue → Bool
  | shown _ => true
  | _ => false

/-- A message as text: a string stands for itself, every other value for its JSON. -/
def messageText (v : FieldValue) : String :=
  match v.inEvent with
  | .string s => s
  | other => other.text

end FieldValue

namespace Field

/-- The name of the field that holds a message. -/
def messageName : String := "message"

/-- Whether the field holds a message. -/
def isMessage (f : Field) : Bool :=
  f.name == messageName

end Field

end Logbook
