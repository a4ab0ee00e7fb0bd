import Logbook.Decimal.Reader
import Logbook.Json.Value

/-!
# Reading JSON

A reader takes its part off the front of a text and returns what is left, or nothing where the text
is not JSON. Values may nest 127 deep. A repeated key keeps its first place and takes its last
value. Integers beyond 64 bits and a negative zero are floats.

Floats are read by a fast rule that is not always the nearest number: as many digits as fit in 64
bits are taken as an integer, the rest of the digits only count or are dropped, and the integer is
scaled by one product or quotient with a power of ten (`Number.scaled?`). A number too large for the
format is refused.
-/

set_option autoImplicit false
set_option relaxedAutoImplicit false

namespace Logbook.Json

open Decimal (isDigit digitValue digitRun natOfDigits)

/-! ### Numbers -/

namespace Number

/-- Takes digits as long as the integer they form fits in 64 bits: that integer and how many digits
were taken. -/
def fitting (n : Nat) : List Char → Nat × Nat
  | [] => (n, 0)
  | d :: ds =>
    let m := 10 * n + digitValue d
    if UInt64.size ≤ m then (n, 0)
    else
      let (r, count) := fitting m ds
      (r, count + 1)

/-- The binary64 number nearest to a power of ten. -/
def powerOfTen (k : Nat) : Binary64 :=
  Binary64.ofDecimal false 1 k

/-- A quotient by a power of ten, in steps of at most `10 ^ 308`, over at most `fuel` steps. -/
def shrink : Nat → Binary64 → Nat → Binary64
  | 0, x, _ => x
  | fuel + 1, x, k =>
    if k ≤ 308 then x.div (powerOfTen k)
    else if x.isZero then x
    else shrink fuel (x.div (powerOfTen 308)) (k - 308)

/-- The float an integer is scaled to by `10 ^ exponent`: one product, or quotients. A product that
is not finite is refused. -/
def scaled? (negative : Bool) (n : Nat) (exponent : Int) : Option Binary64 :=
  let x := Binary64.ofNat n
  let y? :=
    if exponent < 0 then some (shrink (exponent.natAbs / 308 + 1) x exponent.natAbs)
    else if 308 < exponent then (if x.isZero then some x else none)
    else
      let y := x.mul (powerOfTen exponent.toNat)
      if y.isFinite then some y else none
  y?.map fun y ↦ if negative then y.neg else y

/-- The exponent of a number, added to the one its digits gave, and the float they make together.
An exponent beyond 31 bits is refused if it enlarges, and makes a zero if it shrinks. -/
def withExponent? (negative : Bool) (n : Nat) (start : Int) (cs : List Char) :
    Option (Binary64 × List Char) :=
  match cs with
  | [] => (scaled? negative n start).map fun x ↦ (x, cs)
  | c :: rest =>
    if c = 'e' ∨ c = 'E' then
      let (shrinking, more) := Decimal.signed rest
      let (ds, tail) := digitRun more
      if ds.isEmpty then none
      else
        let e := natOfDigits ds
        if 0x80000000 ≤ e then
          if n ≠ 0 ∧ !shrinking then none
          else some (Binary64.ofMagnitudeBits negative 0, tail)
        else
          (scaled? negative n (if shrinking then start - e else start + e)).map fun x ↦ (x, tail)
    else (scaled? negative n start).map fun x ↦ (x, cs)

/-- An unsigned number: an integer where there is neither point nor exponent and it fits. -/
def unsigned? (negative : Bool) (cs : List Char) : Option (Number × List Char) :=
  let (whole, rest) := digitRun cs
  if whole.isEmpty || (whole.head? == some '0' && 1 < whole.length) then none
  else
    let (n, taken) := fitting 0 whole
    let left : Int := whole.length - taken
    match rest with
    | '.' :: more =>
      let (fraction, tail) := digitRun more
      if fraction.isEmpty then none
      else
        let (m, places) := fitting n fraction
        (withExponent? negative m (left - places) tail).map fun (x, t) ↦ (float x, t)
    | _ =>
      let exponentNext := rest.head? == some 'e' || rest.head? == some 'E'
      let whole? :=
        if left ≠ 0 || exponentNext || (negative && n == 0) then none
        else Integer.ofInt? (if negative then -(n : Int) else n)
      match whole? with
      | some i => some (integer i, rest)
      | none => (withExponent? negative n left rest).map fun (x, t) ↦ (float x, t)

/-- A number. -/
def read? : List Char → Option (Number × List Char)
  | '-' :: rest => unsigned? true rest
  | cs => unsigned? false cs

end Number

/-! ### Strings -/

/-- The value of a hexadecimal digit. -/
def hexValue? (c : Char) : Option Nat :=
  if isDigit c then some (digitValue c)
  else if 'a' ≤ c ∧ c ≤ 'f' then some (c.toNat - 'a'.toNat + 10)
  else if 'A' ≤ c ∧ c ≤ 'F' then some (c.toNat - 'A'.toNat + 10)
  else none

/-- The number written by four hexadecimal digits. -/
def hex4? (a b c d : Char) : Option Nat := do
  return (← hexValue? a) * 4096 + (← hexValue? b) * 256 + (← hexValue? c) * 16 + (← hexValue? d)

/-- The character an escape letter stands for. -/
def unescape? : Char → Option Char
  | '"' => some '"'
  | '\\' => some '\\'
  | '/' => some '/'
  | 'b' => some '\x08'
  | 'f' => some '\x0c'
  | 'n' => some '\n'
  | 'r' => some '\r'
  | 't' => some '\t'
  | _ => none

/-- A string up to its closing quote, the opening one taken. Characters outside the basic plane may
be written as two escapes; half of such a pair alone is refused. -/
def stringTail? (done : List Char) : List Char → Option (List Char × List Char)
  | [] => none
  | '"' :: rest => some (done.reverse, rest)
  | '\\' :: 'u' :: a :: b :: c :: d :: rest =>
    match hex4? a b c d with
    | none => none
    | some n =>
      if 0xDC00 ≤ n ∧ n < 0xE000 then none
      else if 0xD800 ≤ n ∧ n < 0xDC00 then
        match rest with
        | '\\' :: 'u' :: e :: f :: g :: h :: more =>
          match hex4? e f g h with
          | none => none
          | some m =>
            if 0xDC00 ≤ m ∧ m < 0xE000 then
              stringTail? (Char.ofNat (0x10000 + (n - 0xD800) * 1024 + (m - 0xDC00)) :: done) more
            else none
        | _ => none
      else stringTail? (Char.ofNat n :: done) rest
  | '\\' :: c :: rest =>
    match unescape? c with
    | some x => stringTail? (x :: done) rest
    | none => none
  | c :: rest => if c.toNat < 0x20 || c = '\\' then none else stringTail? (c :: done) rest

/-! ### Values -/

/-- Whether a character may stand between the parts of a text. -/
def isSpace (c : Char) : Bool :=
  c = ' ' || c = '\n' || c = '\t' || c = '\r'

/-- A text without the blanks at its start. -/
def skipSpace (cs : List Char) : List Char :=
  cs.dropWhile isSpace

/-- What follows a word at the start of a text. -/
def expect? : List Char → List Char → Option (List Char)
  | [], cs => some cs
  | _ :: _, [] => none
  | w :: ws, c :: cs => if w = c then expect? ws cs else none

/-- How deep values may nest. -/
def maxDepth : Nat := 127

mutual

/-- A value, over at most `fuel` steps and at most `depth` further levels. -/
def value? : Nat → Nat → List Char → Option (Value × List Char)
  | 0, _, _ => none
  | fuel + 1, depth, cs =>
    match skipSpace cs with
    | [] => none
    | '"' :: rest => (stringTail? [] rest).map fun (s, t) ↦ (.string (String.ofList s), t)
    | 'n' :: rest => (expect? ['u', 'l', 'l'] rest).map fun t ↦ (.null, t)
    | 't' :: rest => (expect? ['r', 'u', 'e'] rest).map fun t ↦ (.bool true, t)
    | 'f' :: rest => (expect? ['a', 'l', 's', 'e'] rest).map fun t ↦ (.bool false, t)
    | '[' :: rest =>
      match depth with
      | 0 => none
      | depth + 1 =>
        match skipSpace rest with
        | ']' :: t => some (.array [], t)
        | _ => items? fuel depth [] rest
    | '\x7b' :: rest =>
      match depth with
      | 0 => none
      | depth + 1 =>
        match skipSpace rest with
        | '\x7d' :: t => some (.object [], t)
        | _ => members? fuel depth [] rest
    | c :: rest => (Number.read? (c :: rest)).map fun (n, t) ↦ (.number n, t)

/-- The items of an array from the next one on, the earlier ones in reverse. -/
def items? : Nat → Nat → List Value → List Char → Option (Value × List Char)
  | 0, _, _, _ => none
  | fuel + 1, depth, done, cs =>
    match value? fuel depth cs with
    | none => none
    | some (v, rest) =>
      match skipSpace rest with
      | ',' :: t => items? fuel depth (v :: done) t
      | ']' :: t => some (.array (v :: done).reverse, t)
      | _ => none

/-- The members of an object from the next one on, after the earlier ones. -/
def members? : Nat → Nat → Object → List Char → Option (Value × List Char)
  | 0, _, _, _ => none
  | fuel + 1, depth, done, cs =>
    match skipSpace cs with
    | '"' :: rest =>
      match stringTail? [] rest with
      | none => none
      | some (key, afterKey) =>
        match skipSpace afterKey with
        | ':' :: afterColon =>
          match value? fuel depth afterColon with
          | none => none
          | some (v, afterValue) =>
            let members := done.put (String.ofList key) v
            match skipSpace afterValue with
            | ',' :: t => members? fuel depth members t
            | '\x7d' :: t => some (.object members, t)
            | _ => none
        | _ => none
    | _ => none

end

/-- The value a whole text stands for, blanks around it allowed. -/
def read? (text : String) : Option Value :=
  let cs := text.toList
  match value? (cs.length + 1) maxDepth cs with
  | some (v, rest) => if (skipSpace rest).isEmpty then some v else none
  | none => none

end Logbook.Json
