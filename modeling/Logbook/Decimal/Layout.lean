import Logbook.Decimal.Shortest

/-!
# How a decimal is laid out

A decimal is written either positionally, with a point among or before its digits, or with an
exponent after them. A layout (`Layout`) says for which exponents the positional form is used,
whether a whole number keeps a `.0`, and where ties between equally short texts go. Two layouts are
used: the one of structured records (`Layout.structured`) and the one of console lines, which never
has an exponent (`Layout.plain`).
-/

set_option autoImplicit false
set_option relaxedAutoImplicit false

namespace Logbook.Decimal

/-- The decisions of a format for decimal numbers. -/
structure Layout where
  /-- Exponents of the leading digit that are written positionally. -/
  positional : Int → Bool
  /-- Whether a whole number in positional form ends in `.0`. -/
  wholeWithPoint : Bool
  /-- Where a tie between two texts of one length goes. -/
  tie : Tie

namespace Layout

/-- Numbers of structured records: positional from `0.00001` up to sixteen digits before the point,
with an exponent of explicit sign beyond, and always recognisable as no integer. -/
def structured : Layout where
  positional := fun e ↦ decide (-5 ≤ e ∧ e < 16)
  wholeWithPoint := true
  tie := .toEven

/-- Numbers of console lines: never an exponent, whole numbers as integers. -/
def plain : Layout where
  positional := fun _ ↦ true
  wholeWithPoint := false
  tie := .up

end Layout

/-- The decimal digits of a natural, most significant first. -/
def digitChars (n : Nat) : List Char :=
  Nat.toDigits 10 n

/-- The digits of a number `digits · 10 ^ exponent` in positional form. -/
def positionalChars (wholeWithPoint : Bool) (ds : List Char) (exponent : Int) : List Char :=
  if 0 ≤ exponent then
    ds ++ List.replicate exponent.toNat '0' ++ if wholeWithPoint then ['.', '0'] else []
  else
    let places := (-exponent).toNat
    if places < ds.length then
      ds.take (ds.length - places) ++ '.' :: ds.drop (ds.length - places)
    else
      '0' :: '.' :: (List.replicate (places - ds.length) '0' ++ ds)

/-- The digits of a number whose leading digit stands at `10 ^ lead`, in exponent form. -/
def exponentChars (ds : List Char) (lead : Int) : List Char :=
  let mantissa := match ds with
    | [] => []
    | [d] => [d]
    | d :: rest => d :: '.' :: rest
  mantissa ++ 'e' :: (if 0 ≤ lead then '+' else '-') :: digitChars lead.natAbs

/-- A positive decimal in a layout. -/
def Scaled.chars (layout : Layout) (d : Scaled) : List Char :=
  let ds := digitChars d.digits
  let lead := d.exponent + (ds.length : Int) - 1
  if layout.positional lead then positionalChars layout.wholeWithPoint ds d.exponent
  else exponentChars ds lead

/-- A finite binary64 number in a layout; a zero keeps its sign. -/
def finiteChars (layout : Layout) (x : Binary64) : List Char :=
  let unsigned :=
    if x.isZero then positionalChars layout.wholeWithPoint ['0'] 0
    else (shortest layout.tie x).chars layout
  if x.isNegative then '-' :: unsigned else unsigned

/-- Any binary64 number on the console: `NaN`, `inf` and `-inf` where there is no decimal. -/
def plainText (x : Binary64) : String :=
  if x.isNaN then "NaN"
  else if x.isInfinite then (if x.isNegative then "-inf" else "inf")
  else String.ofList (finiteChars .plain x)

/-- A finite binary64 number in a structured record. -/
def structuredText (x : Binary64) : String :=
  String.ofList (finiteChars .structured x)

end Logbook.Decimal
