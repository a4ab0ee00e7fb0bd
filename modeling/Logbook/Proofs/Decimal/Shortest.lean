import Logbook.Decimal.Shortest
import Logbook.Proofs.Decimal.Rounding

/-!
# The shortest decimal is close and short

The grids that are tried for a number are fine enough for one of the first nineteen to have a point
inside the number's interval, and the grid that is taken is not much finer than needed. So the
decimal of a finite number that is not zero lies in the interval, which ends half a unit above the
number, and its digits fit in a machine word (`shortest_bounds`).
-/

set_option autoImplicit false
set_option relaxedAutoImplicit false

namespace Logbook.Decimal

/-- The rational a decimal stands for. -/
def Scaled.value (d : Scaled) : ℚ :=
  d.digits * 10 ^ d.exponent

/-! ### One grid -/

namespace Gap

variable {g : Gap} {tie : Tie} {n step : Nat}

theorem scale_one (g : Gap) : g.scale 1 = g := by
  simp [scale]

theorem contains_iff {num : Nat} : g.contains num = true ↔
    if g.closed then g.low ≤ num ∧ num ≤ g.high else g.low < num ∧ num < g.high := by
  unfold contains
  split_ifs <;> simp

/-- The point that is found on a grid is in the interval. -/
theorem contains_of_onGrid? (h : g.onGrid? tie step = some n) : g.contains (n * step) = true := by
  unfold onGrid? at h
  dsimp only at h
  split at h
  · next hbelow habove =>
    rw [← Option.some.inj h]
    split_ifs <;> assumption
  · next hbelow _ =>
    obtain rfl := Option.some.inj h
    exact hbelow
  · next _ habove =>
    obtain rfl := Option.some.inj h
    exact habove
  · exact absurd h (by simp)

/-- A grid with steps below the distance to the upper end has a point in the interval. -/
theorem isSome_onGrid? (tie : Tie) (hstep : 0 < step) (hlow : g.low < g.value)
    (hhigh : g.value + step < g.high) : (g.onGrid? tie step).isSome = true := by
  have hsplit : step * (g.value / step) + g.value % step = g.value := Nat.div_add_mod g.value step
  have hmod : g.value % step < step := Nat.mod_lt g.value hstep
  have hnext : (g.value / step + 1) * step = step * (g.value / step) + step := by ring
  have habove : g.contains ((g.value / step + 1) * step) = true := by
    unfold contains
    split_ifs <;> simp only [Bool.and_eq_true, decide_eq_true_eq] <;> omega
  unfold onGrid?
  dsimp only
  split <;> simp_all

end Gap

/-! ### The first grid with a point -/

/-- The rational lies in the interval. -/
def Gap.Holds (g : Gap) (q : ℚ) : Prop :=
  if g.closed then g.low ≤ q * g.unit ∧ q * g.unit ≤ g.high
  else g.low < q * g.unit ∧ q * g.unit < g.high

variable {g : Gap} {tie : Tie}

theorem Gap.Holds.bounds {q : ℚ} (h : g.Holds q) : g.low ≤ q * g.unit ∧ q * g.unit ≤ g.high := by
  unfold Holds at h
  split_ifs at h
  · exact h
  · exact ⟨h.1.le, h.2.le⟩

/-- What the scaled interval contains lies in the interval. -/
theorem Gap.holds_of_contains {q : ℚ} {k num : Nat} (hk : 0 < k) (hnum : q * g.unit * k = num)
    (h : (g.scale k).contains num = true) : g.Holds q := by
  have hk' : (0 : ℚ) < k := by exact_mod_cast hk
  rw [contains_iff] at h
  unfold Holds
  have hlow : (g.low : ℚ) * k = ((g.low * k : ℕ) : ℚ) := (Nat.cast_mul _ _).symm
  have hhigh : (g.high : ℚ) * k = ((g.high * k : ℕ) : ℚ) := (Nat.cast_mul _ _).symm
  by_cases hclosed : g.closed = true
  · rw [scale, if_pos hclosed] at h
    rw [if_pos hclosed]
    constructor <;> refine (mul_le_mul_iff_of_pos_right hk').mp ?_
    · rw [hnum, hlow]
      exact_mod_cast h.1
    · rw [hnum, hhigh]
      exact_mod_cast h.2
  · rw [scale, if_neg hclosed] at h
    rw [if_neg hclosed]
    constructor <;> refine (mul_lt_mul_iff_of_pos_right hk').mp ?_
    · rw [hnum, hlow]
      exact_mod_cast h.1
    · rw [hnum, hhigh]
      exact_mod_cast h.2

/-- The grid of an exponent, as `firstGrid` scales it. -/
theorem onGrid?_exponent (tie : Tie) (hunit : 0 < g.unit) (hlow : g.low < g.value) (exponent : Int) :
    ∃ (h : Gap) (step : Nat), (if 0 ≤ exponent then (g, g.unit * Nat.pow 10 exponent.toNat)
        else (g.scale (Nat.pow 10 (-exponent).toNat), g.unit)) = (h, step) ∧
      (∀ n, h.onGrid? tie step = some n → g.Holds (Scaled.value ⟨n, exponent⟩)) ∧
      (h.onGrid? tie step = none → (g.high - g.value : ℚ) ≤ 10 ^ exponent * g.unit) := by
  split_ifs with hexponent
  · obtain ⟨k, rfl⟩ := Int.eq_ofNat_of_zero_le hexponent
    refine ⟨_, _, rfl, fun n hn ↦ ?_, fun hnone ↦ ?_⟩
    · have hcontains := Gap.contains_of_onGrid? hn
      rw [← g.scale_one, Int.toNat_natCast] at hcontains
      refine Gap.holds_of_contains one_pos ?_ hcontains
      have hcast : ((n * (g.unit * 10 ^ k) : ℕ) : ℚ) = n * 10 ^ k * g.unit * (1 : ℕ) := by
        push_cast
        ring
      rw [Scaled.value, zpow_natCast]
      exact hcast.symm
    · by_contra hless
      rw [not_le, zpow_natCast, lt_sub_iff_add_lt'] at hless
      have hroom : g.value + g.unit * 10 ^ k < g.high := by
        rw [mul_comm]
        exact_mod_cast hless
      have hsome := Gap.isSome_onGrid? tie (Nat.mul_pos hunit (by positivity)) hlow hroom
      rw [Int.toNat_natCast] at hnone
      rw [show g.unit * 10 ^ k = g.unit * Nat.pow 10 k from rfl, hnone] at hsome
      exact absurd hsome (by simp)
  · obtain ⟨k, hk⟩ := Int.eq_ofNat_of_zero_le (show 0 ≤ -exponent by omega)
    obtain rfl : exponent = -(k : ℤ) := by omega
    have hpow : (0 : ℚ) < 10 ^ k := by positivity
    rw [neg_neg, Int.toNat_natCast]
    refine ⟨_, _, rfl, fun n hn ↦ ?_, fun hnone ↦ ?_⟩
    · refine Gap.holds_of_contains (Nat.pow_pos (by norm_num)) ?_ (Gap.contains_of_onGrid? hn)
      have hcast : ((Nat.pow 10 k : ℕ) : ℚ) = 10 ^ k := Nat.cast_pow 10 k
      have hcancel : (n * (10 ^ k)⁻¹ * g.unit * 10 ^ k : ℚ) = n * g.unit := by
        field_simp
      rw [Scaled.value, zpow_neg, zpow_natCast, Nat.cast_mul, ← hcancel, ← hcast]
      rfl
    · by_contra hless
      rw [not_le, zpow_neg, zpow_natCast, inv_mul_eq_div, div_lt_iff₀ hpow, sub_mul,
        lt_sub_iff_add_lt'] at hless
      have hroom : g.value * 10 ^ k + g.unit < g.high * 10 ^ k := by exact_mod_cast hless
      have hlow' : g.low * 10 ^ k < g.value * 10 ^ k :=
        Nat.mul_lt_mul_of_pos_right hlow (by positivity)
      have hsome := Gap.isSome_onGrid? (g := g.scale (10 ^ k)) tie hunit hlow' hroom
      rw [show g.scale (10 ^ k) = g.scale (Nat.pow 10 k) from rfl, hnone] at hsome
      exact absurd hsome (by simp)

/-- Where one of the grids has steps below the distance to the upper end, the decimal that is found
lies in the interval, and its grid is the first one or has the next coarser grid miss. -/
theorem firstGrid_holds (tie : Tie) (hunit : 0 < g.unit) (hlow : g.low < g.value) (fuel : Nat) :
    ∀ exponent : Int,
      (∃ j < fuel, (10 : ℚ) ^ (exponent - (j : ℤ)) * g.unit < g.high - g.value) →
        g.Holds (firstGrid g tie fuel exponent).value ∧
          ((firstGrid g tie fuel exponent).exponent = exponent ∨
            (g.high - g.value : ℚ) ≤
              10 ^ ((firstGrid g tie fuel exponent).exponent + 1) * g.unit) := by
  induction fuel with
  | zero =>
    rintro exponent ⟨j, hj, -⟩
    exact absurd hj (Nat.not_lt_zero j)
  | succ fuel ih =>
    rintro exponent ⟨j, hj, hfine⟩
    obtain ⟨h, step, hgrid, hsome, hnone⟩ := onGrid?_exponent tie hunit hlow exponent
    rw [firstGrid, hgrid]
    dsimp only
    cases hfound : h.onGrid? tie step with
    | some n => exact ⟨hsome n hfound, Or.inl rfl⟩
    | none =>
      have hcoarse := hnone hfound
      obtain ⟨i, rfl⟩ : ∃ i, j = i + 1 := by
        refine Nat.exists_eq_succ_of_ne_zero ?_
        rintro rfl
        rw [Nat.cast_zero, sub_zero] at hfine
        exact absurd hfine (not_lt.mpr hcoarse)
      obtain ⟨hholds, hcase⟩ := ih (exponent - 1) ⟨i, by omega, by
        rwa [show exponent - 1 - (i : ℤ) = exponent - ((i + 1 : ℕ) : ℤ) by push_cast; ring]⟩
      refine ⟨hholds, Or.inr ?_⟩
      rcases hcase with hfirst | hmiss
      · rwa [hfirst, sub_add_cancel]
      · exact hmiss

/-! ### Trimming zeros -/

theorem trim_value (fuel : Nat) : ∀ d : Scaled, (Scaled.trim fuel d).value = d.value ∧
    (Scaled.trim fuel d).digits ≤ d.digits := by
  induction fuel with
  | zero => exact fun d ↦ ⟨rfl, le_rfl⟩
  | succ fuel ih =>
    intro d
    rw [Scaled.trim]
    split_ifs with hzero
    · obtain ⟨hvalue, hle⟩ := ih ⟨d.digits / 10, d.exponent + 1⟩
      refine ⟨hvalue.trans ?_, hle.trans (Nat.div_le_self _ _)⟩
      have hdigits : (d.digits : ℚ) = (d.digits / 10 : ℕ) * 10 := by
        have hsplit : d.digits = d.digits / 10 * 10 := by omega
        exact_mod_cast hsplit
      rw [Scaled.value, Scaled.value, hdigits, zpow_add_one₀ (by norm_num)]
      ring
    · exact ⟨rfl, le_rfl⟩

/-! ### The estimate of the leading digit -/

theorem pow_estimate_pos : ∀ n < 1101,
    10 ^ (n * 30103 / 100000) ≤ 2 * 2 ^ n ∧ 2 ^ n ≤ 10 ^ (n * 30103 / 100000 + 1) := by
  decide +kernel

theorem pow_estimate_neg : ∀ n < 1101,
    2 ^ n ≤ 2 * 10 ^ ((n * 30103 + 99999) / 100000) ∧
      10 ^ ((n * 30103 + 99999) / 100000) ≤ 10 * 2 ^ n := by
  decide +kernel

/-- A power of two lies between two powers of ten, or at least not far outside. -/
theorem pow_estimate {b : ℤ} (hlow : -1100 ≤ b) (hhigh : b ≤ 1100) :
    (10 : ℚ) ^ Int.fdiv (b * 30103) 100000 ≤ 2 * 2 ^ b ∧
      (2 : ℚ) ^ b ≤ 10 ^ (Int.fdiv (b * 30103) 100000 + 1) := by
  rw [Int.fdiv_eq_ediv_of_nonneg _ (by norm_num)]
  rcases le_total 0 b with hb | hb
  · obtain ⟨n, rfl⟩ := Int.eq_ofNat_of_zero_le hb
    obtain ⟨hle, hge⟩ := pow_estimate_pos n (by omega)
    rw [show (n : ℤ) * 30103 / 100000 = ((n * 30103 / 100000 : ℕ) : ℤ) by omega, zpow_natCast,
      zpow_natCast, show (((n * 30103 / 100000 : ℕ) : ℤ) + 1) =
        ((n * 30103 / 100000 + 1 : ℕ) : ℤ) by omega, zpow_natCast]
    exact ⟨by exact_mod_cast hle, by exact_mod_cast hge⟩
  · obtain ⟨n, hn⟩ := Int.eq_ofNat_of_zero_le (show 0 ≤ -b by omega)
    obtain rfl : b = -(n : ℤ) := by omega
    obtain ⟨hle, hge⟩ := pow_estimate_neg n (by omega)
    have hle' : (2 : ℚ) ^ n ≤ 2 * 10 ^ ((n * 30103 + 99999) / 100000) := by exact_mod_cast hle
    have hge' : (10 : ℚ) ^ ((n * 30103 + 99999) / 100000) ≤ 10 * 2 ^ n := by exact_mod_cast hge
    rw [show -(n : ℤ) * 30103 / 100000 = -(((n * 30103 + 99999) / 100000 : ℕ) : ℤ) by omega]
    have htwo : (0 : ℚ) < 2 ^ n := by positivity
    have hten : (0 : ℚ) < 10 ^ ((n * 30103 + 99999) / 100000) := by positivity
    rw [zpow_add_one₀ (by norm_num), zpow_neg, zpow_neg, zpow_natCast, zpow_natCast]
    constructor
    · rw [inv_le_iff_one_le_mul₀ hten, mul_assoc, mul_comm _ ((10 : ℚ) ^ _), ← mul_assoc,
        ← div_eq_mul_inv, one_le_div htwo]
      exact hle'
    · rw [inv_mul_eq_div, inv_eq_one_div, div_le_div_iff₀ htwo hten, one_mul]
      exact hge'

/-- The exponent of the leading digit is at most one too large, and not too small. -/
theorem leadExponent_bounds {num den : Nat} (hnum : 0 < num) (hden : 0 < den)
    (hlow : (2 : ℚ) ^ (-1074 : ℤ) ≤ num / den) (hhigh : (num / den : ℚ) < 2 ^ (1024 : ℤ)) :
    (10 : ℚ) ^ leadExponent num den ≤ 2 * (num / den) ∧
      (num / den : ℚ) < 10 ^ (leadExponent num den + 1) := by
  obtain ⟨hbelow, habove⟩ := Binary64.div_mem_log2 hnum hden
  set b : ℤ := (Nat.log2 num : ℤ) - (Nat.log2 den : ℤ) - 1 with hb
  have hpowLow : (2 : ℚ) ^ (-1074 : ℤ) < 2 ^ (b + 2) := by
    rw [show b + 2 = (Nat.log2 num : ℤ) - (Nat.log2 den : ℤ) + 1 by ring]
    exact hlow.trans_lt habove
  have hpowHigh : (2 : ℚ) ^ b < 2 ^ (1024 : ℤ) := hbelow.trans_lt hhigh
  rw [zpow_lt_zpow_iff_right₀ one_lt_two] at hpowLow hpowHigh
  obtain ⟨hten, htwo⟩ := pow_estimate (b := b) (by omega) (by omega)
  set estimate : ℤ := Int.fdiv (b * 30103) 100000 with hestimate
  have hden' : (0 : ℚ) < den := by exact_mod_cast hden
  have hreaches : ∀ k : ℤ, (if 0 ≤ k then decide (den * Nat.pow 10 k.toNat ≤ num)
      else decide (den ≤ num * Nat.pow 10 (-k).toNat)) = true ↔ (10 : ℚ) ^ k ≤ num / den := by
    intro k
    rw [le_div_iff₀ hden']
    split_ifs with hk
    · obtain ⟨n, rfl⟩ := Int.eq_ofNat_of_zero_le hk
      rw [zpow_natCast, Int.toNat_natCast, decide_eq_true_iff, mul_comm]
      exact_mod_cast Iff.rfl
    · obtain ⟨n, hn⟩ := Int.eq_ofNat_of_zero_le (show 0 ≤ -k by omega)
      obtain rfl : k = -(n : ℤ) := by omega
      have hpow : (0 : ℚ) < 10 ^ n := by positivity
      rw [neg_neg, Int.toNat_natCast, zpow_neg, zpow_natCast, inv_mul_eq_div, div_le_iff₀ hpow,
        decide_eq_true_iff]
      exact_mod_cast Iff.rfl
  have hlead : leadExponent num den =
      if (10 : ℚ) ^ (estimate + 1) ≤ num / den then estimate + 1 else estimate := by
    unfold leadExponent
    dsimp only
    rw [← hb, ← hestimate]
    exact if_congr (hreaches (estimate + 1)) rfl rfl
  rw [hlead]
  split_ifs with hreached
  · refine ⟨by linarith [zpow_pos (show (0 : ℚ) < 10 by norm_num) (estimate + 1)], ?_⟩
    have hfour : (2 : ℚ) ^ (b + 2) = 4 * 2 ^ b := by
      rw [zpow_add₀ two_ne_zero]
      norm_num
      ring
    calc (num / den : ℚ)
        < 2 ^ (b + 2) := by rwa [show b + 2 = (Nat.log2 num : ℤ) - (Nat.log2 den : ℤ) + 1 by ring]
      _ = 4 * 2 ^ b := hfour
      _ ≤ 4 * 10 ^ (estimate + 1) := by linarith
      _ ≤ 10 ^ (estimate + 1) * 10 := by
        linarith [zpow_pos (show (0 : ℚ) < 10 by norm_num) (estimate + 1)]
      _ = 10 ^ (estimate + 1 + 1) := (zpow_add_one₀ (by norm_num) _).symm
  · exact ⟨by linarith, not_le.mp hreached⟩

/-! ### The interval of a number -/

/-- The ends of the interval around a magnitude, in units in the last place. -/
theorem ofMagnitude_eq {m : Nat} (hm : 0 < m) (e : Nat) :
    0 < (Gap.ofMagnitude m e).unit ∧ 0 < (Gap.ofMagnitude m e).value ∧
      (Gap.ofMagnitude m e).low < (Gap.ofMagnitude m e).value ∧ 0 < (Gap.ofMagnitude m e).low ∧
      ((Gap.ofMagnitude m e).value : ℚ) = m * 2 ^ ((e : ℤ) - 1074) * (Gap.ofMagnitude m e).unit ∧
      ((Gap.ofMagnitude m e).low : ℚ) = (4 * m - if m = 2 ^ 52 ∧ 0 < e then 1 else 2) *
        2 ^ ((e : ℤ) - 1076) * (Gap.ofMagnitude m e).unit ∧
      ((Gap.ofMagnitude m e).high : ℚ) =
        (2 * m + 1) * 2 ^ ((e : ℤ) - 1075) * (Gap.ofMagnitude m e).unit := by
  set grow : Nat := if 1076 ≤ e then Nat.pow 2 (e - 1076) else 1 with hgrow
  set unit : Nat := if 1076 ≤ e then 1 else Nat.pow 2 (1076 - e) with hunit
  set lower : Nat := if m = 0x10000000000000 ∧ 0 < e then 1 else 2 with hlower
  have hgap : Gap.ofMagnitude m e =
      ⟨unit, 4 * m * grow, (4 * m - lower) * grow, (4 * m + 2) * grow, m % 2 == 0⟩ := rfl
  have hgrowPos : 0 < grow := by
    rw [hgrow]
    split_ifs
    · exact Nat.pow_pos two_pos
    · exact one_pos
  have hunitPos : 0 < unit := by
    rw [hunit]
    split_ifs
    · exact one_pos
    · exact Nat.pow_pos two_pos
  have hlowerBounds : 1 ≤ lower ∧ lower ≤ 2 := by
    rw [hlower]
    split_ifs <;> omega
  have hratio : (grow : ℚ) = 2 ^ ((e : ℤ) - 1076) * unit := by
    rw [hgrow, hunit]
    split_ifs with hlarge
    · rw [show (e : ℤ) - 1076 = ((e - 1076 : ℕ) : ℤ) by omega, zpow_natCast, Nat.cast_one, mul_one]
      exact Nat.cast_pow 2 _
    · have hcast : ((Nat.pow 2 (1076 - e) : ℕ) : ℚ) = 2 ^ (1076 - e) := Nat.cast_pow 2 _
      rw [hcast, show (e : ℤ) - 1076 = -((1076 - e : ℕ) : ℤ) by omega, zpow_neg, zpow_natCast,
        Nat.cast_one, inv_mul_cancel₀ (by positivity)]
  have hquarter : (2 : ℚ) ^ ((e : ℤ) - 1074) = 4 * 2 ^ ((e : ℤ) - 1076) := by
    rw [show (e : ℤ) - 1074 = (e : ℤ) - 1076 + 1 + 1 by ring, zpow_add_one₀ two_ne_zero,
      zpow_add_one₀ two_ne_zero]
    ring
  have hhalf : (2 : ℚ) ^ ((e : ℤ) - 1075) = 2 * 2 ^ ((e : ℤ) - 1076) := by
    rw [show (e : ℤ) - 1075 = (e : ℤ) - 1076 + 1 by ring, zpow_add_one₀ two_ne_zero]
    ring
  rw [hgap]
  refine ⟨hunitPos, Nat.mul_pos (by omega) hgrowPos, Nat.mul_lt_mul_of_pos_right (by omega) hgrowPos,
    Nat.mul_pos (by omega) hgrowPos, ?_, ?_, ?_⟩
  · push_cast
    rw [hratio, hquarter]
    ring
  · have hlowerEq : (lower : ℚ) = if m = 2 ^ 52 ∧ 0 < e then 1 else 2 := by
      rw [hlower]
      exact apply_ite Nat.cast _ 1 2
    rw [← hlowerEq]
    dsimp only
    rw [Nat.cast_mul, Nat.cast_sub (by omega), hratio]
    push_cast
    ring
  · push_cast
    rw [hratio, hhalf]
    ring

/-- The magnitude of a finite number that is not zero. -/
theorem magnitude_bounds {x : Binary64} (hfinite : x.isFinite = true) (hzero : x.isZero = false) :
    0 < x.magnitude.1 ∧ x.magnitude.1 < 2 ^ 53 ∧ x.magnitude.2 ≤ 2045 := by
  have hbits : x.magnitudeBits < Binary64.infinityBits := of_decide_eq_true hfinite
  have hpos : x.magnitudeBits ≠ 0 := by simpa [Binary64.isZero] using hzero
  unfold Binary64.infinityBits at hbits
  unfold Binary64.magnitude
  dsimp only
  split_ifs with hexponent
  · exact ⟨by omega, by omega, by omega⟩
  · exact ⟨by omega, by omega, by omega⟩

/-! ### The shortest decimal -/

/-- The shortest decimal of a finite number is one in the interval, less its zeros at the end. The
grid it was found on is not much finer than the distance to the upper end. -/
theorem exists_shortest (tie : Tie) {x : Binary64} (hfinite : x.isFinite = true)
    (hzero : x.isZero = false) :
    ∃ d : Scaled, (shortest tie x).value = d.value ∧ (shortest tie x).digits ≤ d.digits ∧
      (Gap.ofMagnitude x.magnitude.1 x.magnitude.2).Holds d.value ∧
      ((2 * x.magnitude.1 + 1) * 2 ^ ((x.magnitude.2 : ℤ) - 1075) : ℚ) <
        2 ^ 64 * 10 ^ d.exponent := by
  obtain ⟨hm, hmHigh, he⟩ := magnitude_bounds hfinite hzero
  have hshortest : shortest tie x = Scaled.trim 20 (firstGrid
      (Gap.ofMagnitude x.magnitude.1 x.magnitude.2) tie 20 (leadExponent
        (Gap.ofMagnitude x.magnitude.1 x.magnitude.2).value
        (Gap.ofMagnitude x.magnitude.1 x.magnitude.2).unit + 1)) := rfl
  rw [hshortest]
  generalize x.magnitude.1 = m at *
  generalize x.magnitude.2 = e at *
  obtain ⟨hunit, hvalue, hlow, -, hvalueEq, -, hhighEq⟩ := ofMagnitude_eq hm e
  set g := Gap.ofMagnitude m e with hg
  set lead := leadExponent g.value g.unit with hlead
  have hunit' : (0 : ℚ) < g.unit := by exact_mod_cast hunit
  have hm1 : (1 : ℚ) ≤ m := by exact_mod_cast hm
  have hm53 : (m : ℚ) < 2 ^ 53 := by exact_mod_cast hmHigh
  set p : ℚ := 2 ^ ((e : ℤ) - 1075) with hp
  have hpPos : 0 < p := by positivity
  have hdouble : (2 : ℚ) ^ ((e : ℤ) - 1074) = 2 * p := by
    rw [hp, show (e : ℤ) - 1074 = (e : ℤ) - 1075 + 1 by ring, zpow_add_one₀ two_ne_zero, mul_comm]
  have hquotient : (g.value / g.unit : ℚ) = m * (2 * p) := by
    rw [hvalueEq, hdouble, mul_div_assoc, div_self hunit'.ne', mul_one]
  have hgap : (g.high - g.value : ℚ) = p * g.unit := by
    rw [hhighEq, hvalueEq, hdouble]
    ring
  have hsmallest : (2 : ℚ) ^ (-1074 : ℤ) ≤ g.value / g.unit := by
    have hle : (2 : ℚ) ^ (-1074 : ℤ) ≤ 2 * p := by
      rw [← hdouble]
      exact zpow_le_zpow_right₀ one_le_two (by omega)
    rw [hquotient]
    exact hle.trans (le_mul_of_one_le_left (by positivity) hm1)
  have hlargest : (g.value / g.unit : ℚ) < 2 ^ (1024 : ℤ) := by
    have hle : 2 * p ≤ (2 : ℚ) ^ (971 : ℤ) := by
      rw [← hdouble]
      exact zpow_le_zpow_right₀ one_le_two (by omega)
    calc (g.value / g.unit : ℚ) = m * (2 * p) := hquotient
      _ < 2 ^ 53 * (2 * p) := mul_lt_mul_of_pos_right hm53 (by positivity)
      _ ≤ 2 ^ 53 * 2 ^ (971 : ℤ) := mul_le_mul_of_nonneg_left hle (by positivity)
      _ = 2 ^ (1024 : ℤ) := by
        rw [show (1024 : ℤ) = (53 : ℕ) + 971 by norm_num, zpow_add₀ two_ne_zero, zpow_natCast]
  obtain ⟨hleadLe, hleadGt⟩ := leadExponent_bounds hvalue hunit hsmallest hlargest
  rw [hquotient, ← hlead] at hleadLe hleadGt
  -- The nineteenth grid is finer than the distance to the upper end.
  have hfine : (10 : ℚ) ^ (lead + 1 - ((19 : ℕ) : ℤ)) * g.unit < g.high - g.value := by
    rw [hgap]
    refine mul_lt_mul_of_pos_right ?_ hunit'
    rw [show lead + 1 - ((19 : ℕ) : ℤ) = lead - ((18 : ℕ) : ℤ) by push_cast; ring,
      zpow_sub₀ (by norm_num), zpow_natCast, div_lt_iff₀ (by positivity)]
    calc (10 : ℚ) ^ lead ≤ 2 * (m * (2 * p)) := hleadLe
      _ < 2 * (2 ^ 53 * (2 * p)) := by linarith [mul_lt_mul_of_pos_right hm53 hpPos]
      _ ≤ p * 10 ^ 18 := by linarith
  obtain ⟨hholds, hcase⟩ :=
    firstGrid_holds tie hunit hlow 20 (lead + 1) ⟨19, by norm_num, hfine⟩
  set d := firstGrid g tie 20 (lead + 1) with hd
  obtain ⟨htrimValue, htrimDigits⟩ := trim_value 20 d
  refine ⟨d, htrimValue, htrimDigits, hholds, ?_⟩
  have hten : (0 : ℚ) < 10 ^ d.exponent := by positivity
  rcases hcase with hfirst | hmiss
  · calc (2 * m + 1) * p ≤ 2 * (m * (2 * p)) := by nlinarith
      _ < 2 * 10 ^ (lead + 1) := by linarith
      _ ≤ 2 ^ 64 * 10 ^ d.exponent := by
        rw [hfirst]
        exact mul_le_mul_of_nonneg_right (by norm_num) (by positivity)
  · rw [hgap, zpow_add_one₀ (by norm_num)] at hmiss
    have hmiss' : p ≤ 10 ^ d.exponent * 10 := le_of_mul_le_mul_right hmiss hunit'
    calc (2 * m + 1) * p ≤ (2 * m + 1) * (10 ^ d.exponent * 10) :=
          mul_le_mul_of_nonneg_left hmiss' (by positivity)
      _ = (10 * (2 * m + 1)) * 10 ^ d.exponent := by ring
      _ < 2 ^ 64 * 10 ^ d.exponent := mul_lt_mul_of_pos_right (by linarith) hten

/-- The shortest decimal of a finite number lies in its interval. -/
theorem shortest_holds (tie : Tie) {x : Binary64} (hfinite : x.isFinite = true)
    (hzero : x.isZero = false) :
    (Gap.ofMagnitude x.magnitude.1 x.magnitude.2).Holds (shortest tie x).value := by
  obtain ⟨d, hvalue, -, hholds, -⟩ := exists_shortest tie hfinite hzero
  rwa [hvalue]

/-- The shortest decimal of a finite number is not far above it, and its digits are few. -/
theorem shortest_bounds (tie : Tie) {x : Binary64} (hfinite : x.isFinite = true)
    (hzero : x.isZero = false) :
    0 < (shortest tie x).value ∧
      (shortest tie x).value ≤ (2 * x.magnitude.1 + 1) * 2 ^ ((x.magnitude.2 : ℤ) - 1075) ∧
      (shortest tie x).digits < UInt64.size := by
  obtain ⟨d, hvalue, hdigits, hholds, hgrid⟩ := exists_shortest tie hfinite hzero
  obtain ⟨hunit, -, -, hlowPos, -, -, hhighEq⟩ :=
    ofMagnitude_eq (magnitude_bounds hfinite hzero).1 x.magnitude.2
  have hunit' : (0 : ℚ) < (Gap.ofMagnitude x.magnitude.1 x.magnitude.2).unit := by
    exact_mod_cast hunit
  obtain ⟨hdecimalLow, hdecimalHigh⟩ := hholds.bounds
  have hhigh : d.value ≤ (2 * x.magnitude.1 + 1) * 2 ^ ((x.magnitude.2 : ℤ) - 1075) := by
    rw [hhighEq] at hdecimalHigh
    exact le_of_mul_le_mul_right hdecimalHigh hunit'
  have hpositive : 0 < d.value := by
    have hlow' : (0 : ℚ) < (Gap.ofMagnitude x.magnitude.1 x.magnitude.2).low := by
      exact_mod_cast hlowPos
    exact (mul_pos_iff_of_pos_right hunit').mp (hlow'.trans_le hdecimalLow)
  have hless : (d.digits : ℚ) < 2 ^ 64 :=
    lt_of_mul_lt_mul_right (hhigh.trans_lt hgrid) (by positivity)
  have hsize : UInt64.size = 2 ^ 64 := rfl
  rw [hvalue, hsize]
  exact ⟨hpositive, hhigh, hdigits.trans_lt (by exact_mod_cast hless)⟩

end Logbook.Decimal
