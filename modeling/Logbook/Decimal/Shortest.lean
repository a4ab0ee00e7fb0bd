import Logbook.Decimal.Binary64

/-!
# The fewest digits that read back

A finite binary64 number is written with the fewest significant digits that still round to it, and
among texts of that length with the digits nearest to it. The reals that round to `m · 2 ^ q` form
an interval around it (`Gap`), whose ends belong to it exactly if `m` is even. On each decimal grid
only the two neighbours of the number can be the nearest point inside the interval (`onGrid?`), and
grids are tried from the coarsest on (`digits`). Everything is counted in exact integers, after
scaling by a common denominator.
-/

set_option autoImplicit false
set_option relaxedAutoImplicit false

namespace Logbook.Decimal

/-- Where an exact tie between two digit strings of one length goes. -/
inductive Tie where
  | toEven
  | up
  deriving DecidableEq, Repr

/-- The number `value / unit` and the interval of reals that round to it, from `low / unit` to
`high / unit`, its ends included if `closed`. -/
structure Gap where
  unit : Nat
  value : Nat
  low : Nat
  high : Nat
  closed : Bool

namespace Gap

/-- The interval around the magnitude `m · 2 ^ (e - 1074)`. In units of a quarter of the spacing
the half-way points are two away, except that the lower one is only one away below a power of
two, where the spacing halves. -/
def ofMagnitude (m e : Nat) : Gap :=
  let lower := if m = 0x10000000000000 ∧ 0 < e then 1 else 2
  -- one quarter of the spacing is `2 ^ (e - 1076)`
  let grow := if 1076 ≤ e then Nat.pow 2 (e - 1076) else 1
  { unit := if 1076 ≤ e then 1 else Nat.pow 2 (1076 - e)
    value := 4 * m * grow
    low := (4 * m - lower) * grow
    high := (4 * m + 2) * grow
    closed := m % 2 == 0 }

/-- Whether `num / unit` lies in the interval. -/
def contains (g : Gap) (num : Nat) : Bool :=
  if g.closed then g.low ≤ num && num ≤ g.high else g.low < num && num < g.high

/-- The interval with all its numbers scaled by a natural. -/
def scale (g : Gap) (k : Nat) : Gap :=
  { g with value := g.value * k, low := g.low * k, high := g.high * k }

/-- The nearest point of the grid of multiples of `step / unit` inside the interval, counted in
steps. Only the two neighbours of the value can be it. -/
def onGrid? (g : Gap) (tie : Tie) (step : Nat) : Option Nat :=
  let below := g.value / step
  let above := below + 1
  let toBelow := g.value - below * step
  let toAbove := above * step - g.value
  let preferAbove :=
    if toBelow < toAbove then false
    else if toAbove < toBelow then true
    else match tie with
      | .toEven => below % 2 == 1
      | .up => true
  match g.contains (below * step), g.contains (above * step) with
  | true, true => some (if preferAbove then above else below)
  | true, false => some below
  | false, true => some above
  | false, false => none

end Gap

/-- A positive decimal `digits · 10 ^ exponent`. -/
structure Scaled where
  digits : Nat
  exponent : Int
  deriving DecidableEq, Repr

/-- The exponent of ten of the leading digit of `num / den`, for positive `num` and `den`: the
estimate from the lengths in bits is at most one too small. -/
def leadExponent (num den : Nat) : Int :=
  let estimate : Int :=
    Int.fdiv (((Nat.log2 num : Int) - (Nat.log2 den : Int) - 1) * 30103) 100000
  let reaches (k : Int) : Bool :=
    if 0 ≤ k then decide (den * Nat.pow 10 k.toNat ≤ num)
    else decide (den ≤ num * Nat.pow 10 (-k).toNat)
  if reaches (estimate + 1) then estimate + 1 else estimate

/-- The first grid with a point inside the interval, going from `10 ^ exponent` downwards over at
most `fuel` further grids; the last one is taken as it is. -/
def firstGrid (g : Gap) (tie : Tie) : Nat → Int → Scaled
  | 0, exponent => ⟨g.value / g.unit, exponent⟩
  | fuel + 1, exponent =>
    let (h, step) :=
      if 0 ≤ exponent then (g, g.unit * Nat.pow 10 exponent.toNat)
      else (g.scale (Nat.pow 10 (-exponent).toNat), g.unit)
    match h.onGrid? tie step with
    | some n => ⟨n, exponent⟩
    | none => firstGrid g tie fuel (exponent - 1)

/-- A decimal without zeros at the end of its digits, over at most `fuel` of them. -/
def Scaled.trim : Nat → Scaled → Scaled
  | 0, d => d
  | fuel + 1, d =>
    if d.digits ≠ 0 ∧ d.digits % 10 = 0 then Scaled.trim fuel ⟨d.digits / 10, d.exponent + 1⟩
    else d

/-- The shortest decimal that rounds to a finite, non-zero binary64 magnitude. Seventeen digits
always suffice, so at most eighteen grids are looked at. -/
def shortest (tie : Tie) (x : Binary64) : Scaled :=
  let (m, e) := x.magnitude
  let g := Gap.ofMagnitude m e
  Scaled.trim 20 (firstGrid g tie 20 (leadExponent g.value g.unit + 1))

end Logbook.Decimal
