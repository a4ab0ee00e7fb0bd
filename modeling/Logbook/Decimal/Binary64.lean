/-!
# Binary floating point in 64 bits

A number of the format binary64 is its bit pattern (`Binary64`). Its finite values are integers
times powers of two (`magnitude`), and every operation goes through exact integers: a ratio of two
naturals is rounded to the nearest value, a tie to the even one (`ofRatio`), and product and
quotient round the exact result once (`mul`, `div`). Nothing here depends on a machine's own
arithmetic, so every statement about it can be computed.
-/

set_option autoImplicit false
set_option relaxedAutoImplicit false

namespace Logbook

/-- A binary64 number, given by its bits: sign, eleven bits of exponent, 52 bits of fraction. -/
structure Binary64 where
  bits : UInt64
  deriving DecidableEq, Repr, Inhabited

namespace Binary64

/-- The bit pattern of positive infinity, which is also the number of finite magnitudes. -/
def infinityBits : Nat := 0x7FF0000000000000

/-- The bits without the sign. Larger magnitudes have larger patterns. -/
def magnitudeBits (x : Binary64) : Nat := x.bits.toNat % 0x8000000000000000

/-- Whether the sign bit is set. -/
def isNegative (x : Binary64) : Bool := decide (0x8000000000000000 ≤ x.bits.toNat)

/-- Neither infinite nor not-a-number. -/
def isFinite (x : Binary64) : Bool := decide (x.magnitudeBits < infinityBits)

/-- Positive or negative infinity. -/
def isInfinite (x : Binary64) : Bool := x.magnitudeBits == infinityBits

/-- Not a number. -/
def isNaN (x : Binary64) : Bool := decide (infinityBits < x.magnitudeBits)

/-- Positive or negative zero. -/
def isZero (x : Binary64) : Bool := x.magnitudeBits == 0

/-- The number with a given sign and the pattern of a magnitude. -/
def ofMagnitudeBits (negative : Bool) (magnitude : Nat) : Binary64 :=
  ⟨UInt64.ofNat (magnitude + if negative then 0x8000000000000000 else 0)⟩

/-- Positive zero. -/
def zero : Binary64 := ofMagnitudeBits false 0

/-- Infinity of a given sign. -/
def infinity (negative : Bool) : Binary64 := ofMagnitudeBits negative infinityBits

/-- The quiet not-a-number of positive sign. -/
def nan : Binary64 := ofMagnitudeBits false (infinityBits + 0x8000000000000)

/-- The number with the opposite sign. -/
def neg (x : Binary64) : Binary64 := ofMagnitudeBits (!x.isNegative) x.magnitudeBits

/-- A finite magnitude as `m · 2 ^ (e - 1074)` with natural `m` and `e`. -/
def magnitude (x : Binary64) : Nat × Nat :=
  let fraction := x.magnitudeBits % 0x10000000000000
  let exponent := x.magnitudeBits / 0x10000000000000
  if exponent = 0 then (fraction, 0) else (fraction + 0x10000000000000, exponent - 1)

/-- A quotient rounded to the nearest natural, a tie to the even one. -/
def roundDiv (num den : Nat) : Nat :=
  let q := num / den
  let twice := 2 * (num % den)
  if twice < den then q
  else if twice = den then q + q % 2
  else q + 1

/-- The binary64 number nearest to `num / den`, a tie going to the even pattern. Magnitudes beyond
the largest finite one become infinite. The scale `e` is chosen so that the rounded integer has at
most 53 bits; the pattern of `m · 2 ^ (e - 1074)` is then `e · 2 ^ 52 + m`, also when rounding
carries into the next power of two. -/
def ofRatio (negative : Bool) (num den : Nat) : Binary64 :=
  if num = 0 then ofMagnitudeBits negative 0
  else
    let top : Int := (Nat.log2 num : Int) - (Nat.log2 den : Int)
    -- `2 ^ (top - 1) ≤ num / den < 2 ^ (top + 1)`
    let below :=
      if 0 ≤ top then num < den * Nat.pow 2 top.toNat else num * Nat.pow 2 (-top).toNat < den
    let lead := if below then top - 1 else top
    let e : Nat := (lead + 1022).toNat
    let m :=
      if e ≤ 1074 then roundDiv (num * Nat.pow 2 (1074 - e)) den
      else roundDiv num (den * Nat.pow 2 (e - 1074))
    ofMagnitudeBits negative (min (e * 0x10000000000000 + m) infinityBits)

/-- The number nearest to a natural. -/
def ofNat (n : Nat) : Binary64 := ofRatio false n 1

/-- The product of two finite numbers, rounded once. -/
def mul (x y : Binary64) : Binary64 :=
  let (m, e) := x.magnitude
  let (k, f) := y.magnitude
  let scale := e + f
  let negative := x.isNegative != y.isNegative
  if scale ≤ 2148 then ofRatio negative (m * k) (Nat.pow 2 (2148 - scale))
  else ofRatio negative (m * k * Nat.pow 2 (scale - 2148)) 1

/-- The quotient of two finite numbers, the second not zero, rounded once. -/
def div (x y : Binary64) : Binary64 :=
  let (m, e) := x.magnitude
  let (k, f) := y.magnitude
  let negative := x.isNegative != y.isNegative
  if f ≤ e then ofRatio negative (m * Nat.pow 2 (e - f)) k
  else ofRatio negative m (k * Nat.pow 2 (f - e))

/-- The number nearest to `n · 10 ^ k`. Where the exponent alone decides, no power is formed: a
magnitude of `10 ^ 310` is infinite, and one below `10 ^ -330` rounds to zero. -/
def ofDecimal (negative : Bool) (n : Nat) (k : Int) : Binary64 :=
  if n = 0 then ofMagnitudeBits negative 0
  else if 310 < k then infinity negative
  else if k + (Nat.log2 n : Int) / 3 < -330 then ofMagnitudeBits negative 0
  else if 0 ≤ k then ofRatio negative (n * Nat.pow 10 k.toNat) 1
  else ofRatio negative n (Nat.pow 10 (-k).toNat)

end Binary64

end Logbook
