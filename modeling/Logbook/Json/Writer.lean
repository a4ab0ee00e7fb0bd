import Logbook.Json.Value
import Logbook.Decimal.Layout

/-!
# JSON text

A value is written on one line without blanks. In strings the quote, the backslash and the control
characters below the space are escaped, five of them with a letter; all other characters stand for
themselves.
-/

set_option autoImplicit false
set_option relaxedAutoImplicit false

namespace Logbook.Json

/-- A hexadecimal digit in lower case. -/
def hexChar (n : Nat) : Char :=
  Nat.digitChar (n % 16)

/-- One character inside a string. -/
def escapeChar (c : Char) : List Char :=
  if c = '"' then ['\\', '"']
  else if c = '\\' then ['\\', '\\']
  else if c = '\n' then ['\\', 'n']
  else if c = '\r' then ['\\', 'r']
  else if c = '\t' then ['\\', 't']
  else if c = '\x08' then ['\\', 'b']
  else if c = '\x0c' then ['\\', 'f']
  else if c.toNat < 0x20 then ['\\', 'u', '0', '0', hexChar (c.toNat / 16), hexChar c.toNat]
  else [c]

/-- Whether a character stands for itself inside a string. -/
def isPlainChar (c : Char) : Bool :=
  c ≠ '"' && c ≠ '\\' && 0x20 ≤ c.toNat

/-- A string literal. -/
def stringChars (s : List Char) : List Char :=
  '"' :: (s.flatMap escapeChar ++ ['"'])

/-- An integer. -/
def intChars (n : Int) : List Char :=
  if n < 0 then '-' :: Decimal.digitChars n.natAbs else Decimal.digitChars n.natAbs

namespace Number

/-- A number. A float that is not finite has no number to be written as. -/
def chars : Number → List Char
  | integer n => intChars n.val
  | float x => if x.isFinite then Decimal.finiteChars .structured x else ['n', 'u', 'l', 'l']

end Number

mutual

/-- A value on one line. -/
def Value.chars : Value → List Char
  | .null => ['n', 'u', 'l', 'l']
  | .bool true => ['t', 'r', 'u', 'e']
  | .bool false => ['f', 'a', 'l', 's', 'e']
  | .number n => n.chars
  | .string s => stringChars s.toList
  | .array items => '[' :: (itemsChars items ++ [']'])
  | .object members => '\x7b' :: (membersChars members ++ ['\x7d'])

/-- The items of an array, with commas between them. -/
def itemsChars : List Value → List Char
  | [] => []
  | [v] => v.chars
  | v :: w :: rest => v.chars ++ ',' :: itemsChars (w :: rest)

/-- The members of an object, with commas between them. -/
def membersChars : List (String × Value) → List Char
  | [] => []
  | [(k, v)] => stringChars k.toList ++ ':' :: v.chars
  | (k, v) :: m :: rest => stringChars k.toList ++ ':' :: (v.chars ++ ',' :: membersChars (m :: rest))

end

/-- A value as text. -/
def Value.text (v : Value) : String :=
  String.ofList v.chars

end Logbook.Json
