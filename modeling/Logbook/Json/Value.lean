import Logbook.Decimal.Binary64
import Logbook.Keyed

/-!
# JSON values

The values of structured records and of captured lines. An integer fits in 64 bits, with or without
a sign (`Json.Integer`); every other number is a binary64 number, which need not be finite here: a
number that is not is written as `null`. An object keeps its members in order.
-/

set_option autoImplicit false
set_option relaxedAutoImplicit false

namespace Logbook.Json

/-- An integer that fits in 64 bits, with or without a sign. -/
structure Integer where
  val : Int
  lower : -0x8000000000000000 ≤ val := by decide
  upper : val < 0x10000000000000000 := by decide
  deriving DecidableEq, Repr

namespace Integer

/-- The integer, if it fits. -/
def ofInt? (n : Int) : Option Integer :=
  if h : -0x8000000000000000 ≤ n ∧ n < 0x10000000000000000 then some ⟨n, h.1, h.2⟩ else none

/-- A 64-bit word read without a sign. -/
def ofUInt64 (n : UInt64) : Integer :=
  ⟨n.toNat, by omega, by have := n.toNat_lt; omega⟩

instance : Inhabited Integer := ⟨⟨0, by decide, by decide⟩⟩

end Integer

/-- A JSON number. -/
inductive Number where
  | integer (n : Integer)
  | float (x : Binary64)
  deriving DecidableEq, Repr

/-- A JSON value. -/
inductive Value where
  | null
  | bool (b : Bool)
  | number (n : Number)
  | string (s : String)
  | array (items : List Value)
  | object (members : List (String × Value))
  deriving Repr, Inhabited

/-- The members of an object. -/
abbrev Object := Keyed Value

namespace Value

/-- A small integer as a value. -/
def ofUInt64 (n : UInt64) : Value := .number (.integer (.ofUInt64 n))

/-- A list of bytes as numbers. -/
def ofBytes (bytes : List UInt8) : Value :=
  .array (bytes.map fun b ↦ ofUInt64 b.toUInt64)

/-- A finite number, if it is one. -/
def ofFinite? (x : Binary64) : Option Value :=
  if x.isFinite then some (.number (.float x)) else none

/-- A number, or nothing known where it is not finite. -/
def ofFloat (x : Binary64) : Value :=
  (ofFinite? x).getD .null

end Value

end Logbook.Json
