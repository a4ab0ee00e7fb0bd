import Logbook.Decimal.Binary64
import Mathlib.Tactic

/-!
# How far rounding goes

A finite binary64 number stands for a rational (`Binary64.value`, without the sign). Rounding a
ratio exceeds it by at most half a unit in the last place (`ofRatio_eq`), which is one part in
`2 ^ 53` for a ratio of at least one (`value_ofRatio_le`), and stays finite below the midpoint
between the largest finite number and the next power of two (`value_ofRatio`). A product is the
exact product, rounded once (`mul_eq_ofRatio`), and a quotient the exact quotient
(`div_eq_ofRatio`).
-/

set_option autoImplicit false
set_option relaxedAutoImplicit false

namespace Logbook.Binary64

/-- The magnitude of a finite number. -/
def value (x : Binary64) : ℚ :=
  x.magnitude.1 * 2 ^ ((x.magnitude.2 : ℤ) - 1074)

/-! ### Division to the nearest natural -/

theorem roundDiv_bounds (num : Nat) {den : Nat} (hden : 0 < den) :
    num / den ≤ roundDiv num den ∧ 2 * (roundDiv num den * den) ≤ 2 * num + den := by
  have hsplit : den * (num / den) + num % den = num := Nat.div_add_mod num den
  have hmod : num % den < den := Nat.mod_lt num hden
  rw [Nat.mul_comm] at hsplit
  have hnext : (num / den + 1) * den = num / den * den + den := by ring
  unfold roundDiv
  dsimp only
  split_ifs with hless hhalf
  · exact ⟨le_rfl, by omega⟩
  · rcases Nat.mod_two_eq_zero_or_one (num / den) with hparity | hparity
    · rw [hparity]
      exact ⟨by omega, by rw [Nat.add_zero]; omega⟩
    · rw [hparity]
      exact ⟨by omega, by omega⟩
  · exact ⟨by omega, by omega⟩

/-- The nearest natural to a ratio exceeds it by at most a half. -/
theorem roundDiv_le (num : Nat) {den : Nat} (hden : 0 < den) :
    (roundDiv num den : ℚ) ≤ num / den + 1 / 2 := by
  have hbound : (2 * (roundDiv num den * den) : ℚ) ≤ 2 * num + den := by
    exact_mod_cast (roundDiv_bounds num hden).2
  have hden' : (0 : ℚ) < den := by exact_mod_cast hden
  rw [div_add' _ _ _ hden'.ne', le_div_iff₀ hden']
  linarith

theorem le_roundDiv {num den n : Nat} (hden : 0 < den) (h : n * den ≤ num) :
    n ≤ roundDiv num den :=
  ((Nat.le_div_iff_mul_le hden).mpr h).trans (roundDiv_bounds num hden).1

theorem roundDiv_le_of_lt {num den n : Nat} (hden : 0 < den) (h : num < n * den) :
    roundDiv num den ≤ n := by
  by_contra hmore
  have hbound := (roundDiv_bounds num hden).2
  have hlarge : (n + 1) * den ≤ roundDiv num den * den := Nat.mul_le_mul_right den (by omega)
  have hnext : (n + 1) * den = n * den + den := by ring
  omega

/-- The nearest natural to a ratio is the one that is at most a half away, the even one of two. -/
theorem roundDiv_eq {num den n : Nat} (hden : 0 < den) (hlow : (n : ℚ) - 1 / 2 ≤ num / den)
    (hhigh : (num / den : ℚ) ≤ n + 1 / 2)
    (htie : n % 2 = 1 → (num / den : ℚ) ≠ n - 1 / 2 ∧ (num / den : ℚ) ≠ n + 1 / 2) :
    roundDiv num den = n := by
  have hden' : (0 : ℚ) < den := by exact_mod_cast hden
  have hlow' : 2 * n * den ≤ 2 * num + den := by
    rw [le_div_iff₀ hden'] at hlow
    have hcast : (2 * n * den : ℚ) ≤ 2 * num + den := by linarith
    exact_mod_cast hcast
  have hhigh' : 2 * num ≤ 2 * n * den + den := by
    rw [div_le_iff₀ hden'] at hhigh
    have hcast : (2 * num : ℚ) ≤ 2 * n * den + den := by linarith
    exact_mod_cast hcast
  have htie' : n % 2 = 1 → 2 * n * den ≠ 2 * num + den ∧ 2 * num ≠ 2 * n * den + den := by
    intro hodd
    obtain ⟨hbelow, habove⟩ := htie hodd
    rw [Ne, div_eq_iff hden'.ne'] at hbelow habove
    constructor
    · intro heq
      have hcast : (2 * n * den : ℚ) = 2 * num + den := by exact_mod_cast heq
      exact hbelow (by linarith)
    · intro heq
      have hcast : (2 * num : ℚ) = 2 * n * den + den := by exact_mod_cast heq
      exact habove (by linarith)
  have hsplit : den * (num / den) + num % den = num := Nat.div_add_mod num den
  have hmod : num % den < den := Nat.mod_lt num hden
  have hcase : n = num / den ∨ n = num / den + 1 := by
    have hmost : 2 * n * den < (2 * (num / den) + 3) * den := by
      have hexpand : (2 * (num / den) + 3) * den = 2 * (den * (num / den)) + 3 * den := by ring
      omega
    have hleast : 2 * (num / den) * den < (2 * n + 2) * den := by
      have hexpand : (2 * n + 2) * den = 2 * n * den + 2 * den := by ring
      have hexpand' : 2 * (num / den) * den = 2 * (den * (num / den)) := by ring
      omega
    have hmost' := lt_of_mul_lt_mul_right hmost (Nat.zero_le den)
    have hleast' := lt_of_mul_lt_mul_right hleast (Nat.zero_le den)
    omega
  unfold roundDiv
  dsimp only
  rcases hcase with hn | hn
  · have hexpand : 2 * n * den = 2 * (den * (num / den)) := by
      rw [hn]
      ring
    split_ifs <;> omega
  · have hexpand : 2 * n * den = 2 * (den * (num / den)) + 2 * den := by
      rw [hn]
      ring
    split_ifs <;> omega

/-! ### The scale of a ratio -/

/-- A comparison with a power of two, in naturals. -/
theorem lt_two_zpow_iff (num : Nat) {den : Nat} (hden : 0 < den) (k : ℤ) :
    (if 0 ≤ k then num < den * Nat.pow 2 k.toNat else num * Nat.pow 2 (-k).toNat < den) ↔
      (num / den : ℚ) < 2 ^ k := by
  have hden' : (0 : ℚ) < den := by exact_mod_cast hden
  rw [div_lt_iff₀ hden']
  split_ifs with hk
  · obtain ⟨n, rfl⟩ := Int.eq_ofNat_of_zero_le hk
    rw [zpow_natCast, Int.toNat_natCast, mul_comm]
    exact_mod_cast Iff.rfl
  · obtain ⟨n, hn⟩ := Int.eq_ofNat_of_zero_le (show 0 ≤ -k by omega)
    have hpow : (0 : ℚ) < 2 ^ n := by positivity
    rw [show k = -(n : ℤ) by omega, neg_neg, Int.toNat_natCast, zpow_neg, zpow_natCast,
      inv_mul_eq_div, lt_div_iff₀ hpow]
    exact_mod_cast Iff.rfl

/-- The logarithms of a ratio's parts place it between two powers of two. -/
theorem div_mem_log2 {num den : Nat} (hnum : 0 < num) (hden : 0 < den) :
    (2 : ℚ) ^ ((Nat.log2 num : ℤ) - (Nat.log2 den : ℤ) - 1) ≤ num / den ∧
      (num / den : ℚ) < 2 ^ ((Nat.log2 num : ℤ) - (Nat.log2 den : ℤ) + 1) := by
  have hlow : ∀ {n : Nat}, 0 < n → (2 : ℚ) ^ (Nat.log2 n : ℤ) ≤ n := by
    intro n hn
    rw [zpow_natCast]
    exact_mod_cast Nat.log2_self_le hn.ne'
  have hhigh : ∀ n : Nat, (n : ℚ) < 2 ^ ((Nat.log2 n : ℤ) + 1) := by
    intro n
    have hlt : n < 2 ^ (Nat.log2 n + 1) := Nat.lt_log2_self
    rw [show ((Nat.log2 n : ℤ) + 1) = ((Nat.log2 n + 1 : ℕ) : ℤ) by push_cast; rfl, zpow_natCast]
    exact_mod_cast hlt
  have hden' : (0 : ℚ) < den := by exact_mod_cast hden
  constructor
  · rw [le_div_iff₀ hden', sub_sub, zpow_sub₀ two_ne_zero, div_mul_eq_mul_div,
      div_le_iff₀ (by positivity)]
    calc (2 : ℚ) ^ (Nat.log2 num : ℤ) * den
        ≤ num * den := mul_le_mul_of_nonneg_right (hlow hnum) hden'.le
      _ ≤ num * 2 ^ ((Nat.log2 den : ℤ) + 1) :=
        mul_le_mul_of_nonneg_left (hhigh den).le (by positivity)
  · rw [div_lt_iff₀ hden', show (Nat.log2 num : ℤ) - Nat.log2 den + 1 =
      (Nat.log2 num : ℤ) + 1 - Nat.log2 den by ring, zpow_sub₀ two_ne_zero, div_mul_eq_mul_div,
      lt_div_iff₀ (by positivity)]
    calc (num : ℚ) * 2 ^ (Nat.log2 den : ℤ)
        ≤ num * den := mul_le_mul_of_nonneg_left (hlow hden) (by positivity)
      _ < 2 ^ ((Nat.log2 num : ℤ) + 1) * den := mul_lt_mul_of_pos_right (hhigh num) hden'

/-! ### Rounding a ratio -/

/-- A ratio is counted in units in the last place: the unit is the one of which it has between
`2 ^ 52` and `2 ^ 53`, unless this is smaller than the smallest one. -/
theorem exists_unit {num den : Nat} (hnum : 0 < num) (hden : 0 < den) :
    ∃ e a c : Nat, 0 < c ∧ (∀ negative, ofRatio negative num den =
        ofMagnitudeBits negative (min (e * 0x10000000000000 + roundDiv a c) infinityBits)) ∧
      (a / c : ℚ) = num / den * 2 ^ (1074 - (e : ℤ)) ∧
      (a / c : ℚ) < 2 ^ 53 ∧ (num / den : ℚ) < 2 ^ ((e : ℤ) - 1021) ∧
      (0 < e → (2 : ℚ) ^ 52 ≤ a / c ∧ (2 : ℚ) ^ ((e : ℤ) - 1022) ≤ num / den) := by
  have hden' : (0 : ℚ) < den := by exact_mod_cast hden
  obtain ⟨hlow, hhigh⟩ := div_mem_log2 hnum hden
  set top : ℤ := (Nat.log2 num : ℤ) - (Nat.log2 den : ℤ) with htop
  have hbelow := lt_two_zpow_iff num hden top
  obtain ⟨lead, hlead, hlow', hhigh'⟩ : ∃ lead : ℤ,
      (if (if 0 ≤ top then num < den * Nat.pow 2 top.toNat else num * Nat.pow 2 (-top).toNat < den)
        then top - 1 else top) = lead ∧
      (2 : ℚ) ^ lead ≤ num / den ∧ (num / den : ℚ) < 2 ^ (lead + 1) := by
    by_cases h : (num / den : ℚ) < 2 ^ top
    · refine ⟨top - 1, if_pos (hbelow.mpr h), hlow, ?_⟩
      rwa [sub_add_cancel]
    · exact ⟨top, if_neg (mt hbelow.mp h), not_lt.mp h, hhigh⟩
  set e : Nat := (lead + 1022).toNat with he
  set m : Nat := if e ≤ 1074 then roundDiv (num * Nat.pow 2 (1074 - e)) den
    else roundDiv num (den * Nat.pow 2 (e - 1074)) with hm
  have hratio : ∀ negative, ofRatio negative num den =
      ofMagnitudeBits negative (min (e * 0x10000000000000 + m) infinityBits) := by
    intro negative
    rw [ofRatio, if_neg hnum.ne']
    dsimp only
    rw [← htop, hlead]
  obtain ⟨a, c, hc, hround, hac⟩ : ∃ a c : Nat, 0 < c ∧ m = roundDiv a c ∧
      (a / c : ℚ) = num / den * 2 ^ (1074 - (e : ℤ)) := by
    by_cases hsmall : e ≤ 1074
    · refine ⟨num * 2 ^ (1074 - e), den, hden, by rw [hm, if_pos hsmall]; rfl, ?_⟩
      rw [show (1074 - (e : ℤ)) = ((1074 - e : ℕ) : ℤ) by omega, zpow_natCast]
      push_cast
      ring
    · refine ⟨num, den * 2 ^ (e - 1074), by positivity, by rw [hm, if_neg hsmall]; rfl, ?_⟩
      rw [show (1074 - (e : ℤ)) = -((e - 1074 : ℕ) : ℤ) by omega, zpow_neg, zpow_natCast]
      push_cast
      rw [div_mul_eq_div_div, div_eq_mul_inv (num / den : ℚ)]
  have hbelow53 : (num / den : ℚ) < 2 ^ ((e : ℤ) - 1021) :=
    hhigh'.trans_le (zpow_le_zpow_right₀ one_le_two (by omega))
  refine ⟨e, a, c, hc, hround ▸ hratio, hac, ?_, hbelow53, fun hpos ↦ ?_⟩
  · rw [hac, ← zpow_natCast 2 53, show ((53 : ℕ) : ℤ) = (e : ℤ) - 1021 + (1074 - (e : ℤ)) by
      push_cast; ring, zpow_add₀ two_ne_zero]
    exact mul_lt_mul_of_pos_right hbelow53 (by positivity)
  · have hlast : lead = (e : ℤ) - 1022 := by omega
    rw [hlast] at hlow'
    refine ⟨?_, hlow'⟩
    rw [hac, ← zpow_natCast 2 52, show ((52 : ℕ) : ℤ) = (e : ℤ) - 1022 + (1074 - (e : ℤ)) by
      push_cast; ring, zpow_add₀ two_ne_zero]
    exact mul_le_mul_of_nonneg_right hlow' (by positivity)

/-- A ratio is rounded to a whole number of units in the last place, of which there are at most
`2 ^ 53`, and at least half as many unless the unit is the smallest one. -/
theorem ofRatio_eq (negative : Bool) {num den : Nat} (hnum : 0 < num) (hden : 0 < den) :
    ∃ m e : Nat, ofRatio negative num den =
        ofMagnitudeBits negative (min (e * 0x10000000000000 + m) infinityBits) ∧
      m ≤ 2 ^ 53 ∧ (0 < e → 2 ^ 52 ≤ m ∧ (2 : ℚ) ^ ((e : ℤ) - 1022) ≤ num / den) ∧
      (num / den : ℚ) < 2 ^ ((e : ℤ) - 1021) ∧
      (m * 2 ^ ((e : ℤ) - 1074) : ℚ) ≤ num / den + 2 ^ ((e : ℤ) - 1075) := by
  obtain ⟨e, a, c, hc, hratio, hac, hless, hhigh, hnormal⟩ := exists_unit hnum hden
  have hc' : (0 : ℚ) < c := by exact_mod_cast hc
  have hunit : (2 : ℚ) ^ (1074 - (e : ℤ)) * 2 ^ ((e : ℤ) - 1074) = 1 := by
    rw [← zpow_add₀ two_ne_zero, show 1074 - (e : ℤ) + ((e : ℤ) - 1074) = 0 by ring, zpow_zero]
  refine ⟨roundDiv a c, e, hratio negative, ?_, fun hpos ↦ ?_, hhigh, ?_⟩
  · rw [div_lt_iff₀ hc'] at hless
    exact roundDiv_le_of_lt hc (by exact_mod_cast hless)
  · obtain ⟨hle, hlow⟩ := hnormal hpos
    rw [le_div_iff₀ hc'] at hle
    exact ⟨le_roundDiv hc (by exact_mod_cast hle), hlow⟩
  · have hle := roundDiv_le a hc
    rw [hac] at hle
    calc (roundDiv a c * 2 ^ ((e : ℤ) - 1074) : ℚ)
        ≤ (num / den * 2 ^ (1074 - (e : ℤ)) + 1 / 2) * 2 ^ ((e : ℤ) - 1074) :=
          mul_le_mul_of_nonneg_right hle (by positivity)
      _ = num / den * (2 ^ (1074 - (e : ℤ)) * 2 ^ ((e : ℤ) - 1074)) +
            2 ^ ((e : ℤ) - 1074) / 2 := by ring
      _ = num / den + 2 ^ ((e : ℤ) - 1075) := by
          rw [hunit, mul_one, show (e : ℤ) - 1075 = (e : ℤ) - 1074 - 1 by ring,
            zpow_sub_one₀ two_ne_zero]
          rfl

/-! ### The value of a pattern -/

theorem magnitudeBits_ofMagnitudeBits (negative : Bool) {bits : Nat} (h : bits < 2 ^ 63) :
    (ofMagnitudeBits negative bits).magnitudeBits = bits := by
  unfold ofMagnitudeBits magnitudeBits
  rw [UInt64.toNat_ofNat']
  cases negative <;> simp <;> omega

/-- A pattern that was put together from a whole number of units has their value. -/
theorem value_eq {x : Binary64} {m e : Nat} (hbits : x.magnitudeBits = e * 0x10000000000000 + m)
    (hm : m ≤ 2 ^ 53) (he : 0 < e → 2 ^ 52 ≤ m) : x.value = m * 2 ^ ((e : ℤ) - 1074) := by
  rcases Nat.lt_or_ge m (2 ^ 52) with hsmall | hnormal
  · obtain rfl : e = 0 := by
      by_contra hne
      exact absurd (he (Nat.pos_of_ne_zero hne)) (not_le.mpr hsmall)
    have hexponent : x.magnitudeBits / 0x10000000000000 = 0 := by omega
    have hfraction : x.magnitudeBits % 0x10000000000000 = m := by omega
    rw [value, magnitude, hexponent, hfraction, if_pos rfl]
  rcases Nat.lt_or_ge m (2 ^ 53) with hless | hfull
  · have hexponent : x.magnitudeBits / 0x10000000000000 = e + 1 := by omega
    have hfraction : x.magnitudeBits % 0x10000000000000 + 0x10000000000000 = m := by omega
    rw [value, magnitude, hexponent, hfraction, if_neg (Nat.succ_ne_zero e), Nat.add_sub_cancel]
  · have hexponent : x.magnitudeBits / 0x10000000000000 = e + 2 := by omega
    have hfraction : x.magnitudeBits % 0x10000000000000 + 0x10000000000000 = 2 ^ 52 := by omega
    have hvalue : (m : ℚ) = 2 ^ 53 := by exact_mod_cast Nat.le_antisymm hm hfull
    rw [value, magnitude, hexponent, hfraction, if_neg (by omega), hvalue]
    dsimp only
    rw [show ((e + 2 - 1 : ℕ) : ℤ) - 1074 = (e : ℤ) - 1074 + 1 by omega, zpow_add_one₀ two_ne_zero]
    push_cast
    ring

theorem isFinite_ofMagnitudeBits (negative : Bool) {bits : Nat} (h : bits < infinityBits) :
    (ofMagnitudeBits negative bits).isFinite = true := by
  rw [isFinite, magnitudeBits_ofMagnitudeBits negative (h.trans (by decide))]
  exact decide_eq_true h

/-! ### Errors of rounding -/

/-- Rounding stays finite below the midpoint between the largest finite number and the next power
of two, and goes up by at most half a unit. -/
theorem value_ofRatio (negative : Bool) {num den : Nat} (hnum : 0 < num) (hden : 0 < den)
    (h : (num / den : ℚ) < (2 ^ 53 - 1 / 2) * 2 ^ (971 : ℤ)) :
    (ofRatio negative num den).isFinite = true ∧
      ∃ e : Nat, (0 < e → (2 : ℚ) ^ ((e : ℤ) - 1022) ≤ num / den) ∧
        (num / den : ℚ) < 2 ^ ((e : ℤ) - 1021) ∧
        (ofRatio negative num den).value ≤ num / den + 2 ^ ((e : ℤ) - 1075) := by
  obtain ⟨m, e, hratio, hm, hnormal, hhigh, herror⟩ := ofRatio_eq negative hnum hden
  have he : e ≤ 2045 := by
    by_contra hlarge
    have hlow := (hnormal (by omega)).2
    have hpow : (2 : ℚ) ^ (53 : ℤ) * 2 ^ (971 : ℤ) ≤ 2 ^ ((e : ℤ) - 1022) := by
      rw [← zpow_add₀ two_ne_zero]
      exact zpow_le_zpow_right₀ one_le_two (by omega)
    have hless : (2 ^ 53 - 1 / 2 : ℚ) * 2 ^ (971 : ℤ) ≤ 2 ^ (53 : ℤ) * 2 ^ (971 : ℤ) :=
      mul_le_mul_of_nonneg_right (by norm_num) (by positivity)
    exact absurd (hless.trans (hpow.trans hlow)) (not_le.mpr h)
  have hbits : e * 0x10000000000000 + m < infinityBits := by
    rcases Nat.lt_or_ge e 2045 with hsmaller | htop
    · unfold infinityBits
      omega
    obtain rfl : e = 2045 := Nat.le_antisymm he htop
    have hless : (m : ℚ) * 2 ^ (971 : ℤ) < 2 ^ 53 * 2 ^ (971 : ℤ) := by
      have hhalf : (2 : ℚ) ^ (970 : ℤ) = 1 / 2 * 2 ^ (971 : ℤ) := by
        rw [show (971 : ℤ) = 970 + 1 by norm_num, zpow_add_one₀ two_ne_zero]
        ring
      have herror' : (m : ℚ) * 2 ^ (971 : ℤ) ≤ num / den + 2 ^ (970 : ℤ) := herror
      rw [hhalf] at herror'
      generalize (2 : ℚ) ^ (971 : ℤ) = p at h herror' ⊢
      linarith
    have hm' : m < 2 ^ 53 := by
      exact_mod_cast lt_of_mul_lt_mul_right hless (by positivity)
    unfold infinityBits
    omega
  rw [Nat.min_eq_left hbits.le] at hratio
  refine ⟨hratio ▸ isFinite_ofMagnitudeBits negative hbits, e, fun hpos ↦ (hnormal hpos).2, hhigh, ?_⟩
  have hvalue : (ofRatio negative num den).value = m * 2 ^ ((e : ℤ) - 1074) :=
    value_eq (hratio ▸ magnitudeBits_ofMagnitudeBits negative (hbits.trans (by decide))) hm
      fun hpos ↦ (hnormal hpos).1
  rw [hvalue]
  exact herror

/-- Rounding a ratio of at least one adds at most one part in `2 ^ 53`. -/
theorem value_ofRatio_le (negative : Bool) {num den : Nat} (hden : 0 < den)
    (hone : 1 ≤ (num / den : ℚ)) (h : (num / den : ℚ) < (2 ^ 53 - 1 / 2) * 2 ^ (971 : ℤ)) :
    (ofRatio negative num den).isFinite = true ∧
      (ofRatio negative num den).value ≤ num / den * (1 + 1 / 2 ^ 53) := by
  have hnum : 0 < num := by
    rcases Nat.eq_zero_or_pos num with rfl | hpos
    · norm_num at hone
    · exact hpos
  obtain ⟨hfinite, e, hnormal, hhigh, herror⟩ := value_ofRatio negative hnum hden h
  refine ⟨hfinite, herror.trans ?_⟩
  have hpos : 0 < e := by
    by_contra hzero
    obtain rfl : e = 0 := by omega
    have hless : (2 : ℚ) ^ (((0 : ℕ) : ℤ) - 1021) ≤ 1 :=
      zpow_le_one_of_nonpos₀ one_le_two (by norm_num)
    exact absurd (hone.trans_lt hhigh) (not_lt.mpr hless)
  have hunit : (2 : ℚ) ^ ((e : ℤ) - 1075) = 2 ^ ((e : ℤ) - 1022) * (1 / 2 ^ 53) := by
    rw [show (e : ℤ) - 1075 = (e : ℤ) - 1022 - (53 : ℕ) by push_cast; ring, zpow_sub₀ two_ne_zero,
      zpow_natCast, div_eq_mul_one_div]
  have hlow := mul_le_mul_of_nonneg_right (hnormal hpos) (show (0 : ℚ) ≤ 1 / 2 ^ 53 by positivity)
  rw [hunit, mul_add, mul_one]
  linarith

/-! ### Products -/

/-- A product is the exact product, rounded once. -/
theorem mul_eq_ofRatio (x y : Binary64) : ∃ num den : Nat,
    x.mul y = ofRatio (x.isNegative != y.isNegative) num den ∧ 0 < den ∧
      (num / den : ℚ) = x.value * y.value := by
  unfold mul value
  obtain ⟨m, e⟩ := x.magnitude
  obtain ⟨k, f⟩ := y.magnitude
  dsimp only
  have hexact : (m * 2 ^ ((e : ℤ) - 1074) * (k * 2 ^ ((f : ℤ) - 1074)) : ℚ) =
      m * k * 2 ^ ((e : ℤ) + f - 2148) := by
    rw [show (e : ℤ) + f - 2148 = ((e : ℤ) - 1074) + ((f : ℤ) - 1074) by ring,
      zpow_add₀ two_ne_zero]
    ring
  rw [hexact]
  split_ifs with hscale
  · refine ⟨_, _, rfl, Nat.pow_pos two_pos, ?_⟩
    rw [show (e : ℤ) + f - 2148 = -((2148 - (e + f) : ℕ) : ℤ) by omega, zpow_neg, zpow_natCast]
    have hcast : ((Nat.pow 2 (2148 - (e + f)) : ℕ) : ℚ) = 2 ^ (2148 - (e + f)) := Nat.cast_pow 2 _
    rw [hcast, Nat.cast_mul, div_eq_mul_inv]
  · refine ⟨_, _, rfl, Nat.one_pos, ?_⟩
    rw [show (e : ℤ) + f - 2148 = ((e + f - 2148 : ℕ) : ℤ) by omega, zpow_natCast]
    have hcast : ((Nat.pow 2 (e + f - 2148) : ℕ) : ℚ) = 2 ^ (e + f - 2148) := Nat.cast_pow 2 _
    rw [Nat.cast_mul, Nat.cast_mul, hcast, Nat.cast_one, div_one]

/-! ### Quotients -/

/-- A quotient is the exact quotient, rounded once. -/
theorem div_eq_ofRatio (x : Binary64) {y : Binary64} (hy : 0 < y.value) :
    ∃ num den : Nat, x.div y = ofRatio (x.isNegative != y.isNegative) num den ∧ 0 < den ∧
      (num / den : ℚ) = x.value / y.value := by
  have hk : 0 < y.magnitude.1 := by
    have hpos := (mul_pos_iff_of_pos_right (by positivity)).mp hy
    exact_mod_cast hpos
  unfold div value
  generalize x.magnitude = p
  generalize y.magnitude = q at hk ⊢
  obtain ⟨m, e⟩ := p
  obtain ⟨k, f⟩ := q
  dsimp only at hk ⊢
  have hexact : (m * 2 ^ ((e : ℤ) - 1074) / (k * 2 ^ ((f : ℤ) - 1074)) : ℚ) =
      m / k * 2 ^ ((e : ℤ) - f) := by
    have hscale : (2 : ℚ) ^ ((e : ℤ) - f) = 2 ^ ((e : ℤ) - 1074) / 2 ^ ((f : ℤ) - 1074) := by
      rw [← zpow_sub₀ two_ne_zero]
      congr 1
      ring
    rw [hscale, mul_div_mul_comm]
  rw [hexact]
  split_ifs with hscale
  · refine ⟨_, _, rfl, hk, ?_⟩
    rw [show (e : ℤ) - f = ((e - f : ℕ) : ℤ) by omega, zpow_natCast]
    have hcast : ((Nat.pow 2 (e - f) : ℕ) : ℚ) = 2 ^ (e - f) := Nat.cast_pow 2 _
    rw [Nat.cast_mul, hcast, mul_div_right_comm]
  · refine ⟨_, _, rfl, Nat.mul_pos hk (Nat.pow_pos two_pos), ?_⟩
    rw [show (e : ℤ) - f = -((f - e : ℕ) : ℤ) by omega, zpow_neg, zpow_natCast]
    have hcast : ((Nat.pow 2 (f - e) : ℕ) : ℚ) = 2 ^ (f - e) := Nat.cast_pow 2 _
    rw [Nat.cast_mul, hcast, div_mul_eq_div_div, div_eq_mul_inv (m / k : ℚ)]

end Logbook.Binary64
