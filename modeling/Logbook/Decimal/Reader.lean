import Logbook.Decimal.Binary64

/-!
# Reading decimal text

Decimal text with an optional sign, a point and an exponent, read to the nearest binary64 number.
The words for infinity and not-a-number are read in any letter case.
-/

set_option autoImplicit false
set_option relaxedAutoImplicit false

namespace Logbook.Decimal

/-- Whether a character is one of the ten digits. -/
def isDigit (c : Char) : Bool :=
  '0' ≤ c && c ≤ '9'

/-- The value of a digit. -/
def digitValue (c : Char) : Nat :=
  c.toNat - '0'.toNat

/-- The natural written by a run of digits. -/
def natOfDigits (ds : List Char) : Nat :=
  ds.foldl (fun n d ↦ 10 * n + digitValue d) 0

/-- A run of digits at the start of a text, and what follows it. -/
def digitRun (cs : List Char) : List Char × List Char :=
  (cs.takeWhile isDigit, cs.dropWhile isDigit)

/-- A sign at the start of a text: whether it is a minus, and what follows it. -/
def signed : List Char → Bool × List Char
  | '-' :: rest => (true, rest)
  | '+' :: rest => (false, rest)
  | cs => (false, cs)

/-- An exponent at the end of a text: nothing, or `e` or `E`, an optional sign and digits. -/
def exponent? : List Char → Option Int
  | [] => some 0
  | c :: rest =>
    if c = 'e' ∨ c = 'E' then
      let (negative, cs) := signed rest
      let (ds, tail) := digitRun cs
      if ds.isEmpty || !tail.isEmpty then none
      else some (if negative then -(natOfDigits ds : Int) else natOfDigits ds)
    else none

/-- An unsigned decimal, from its digits before the point on. -/
def unsigned? (negative : Bool) (cs : List Char) : Option Binary64 :=
  let (whole, rest) := digitRun cs
  let (fraction, tail) := match rest with
    | '.' :: more => digitRun more
    | _ => ([], rest)
  if whole.isEmpty && fraction.isEmpty then none
  else (exponent? tail).map fun e ↦
    Binary64.ofDecimal negative (natOfDigits (whole ++ fraction)) (e - fraction.length)

/-- The binary64 number nearest to a decimal text, if the text is one. -/
def read? (text : String) : Option Binary64 :=
  let (negative, cs) := signed text.toList
  let word := cs.map Char.toLower
  if word = "inf".toList ∨ word = "infinity".toList then some (Binary64.infinity negative)
  else if word = "nan".toList then
    some (if negative then Binary64.nan.neg else Binary64.nan)
  else unsigned? negative cs

end Logbook.Decimal
