import Logbook.Proofs.Json.RoundTrip

/-!
# Floats that are read are finite

Every float that is read from JSON text is finite (`Number.isFinite_of_read?`): a product that is
not is refused, and a quotient by a power of ten is no larger than the digits it is formed of. So
the text of a finite float reads back as a finite float (`Value.readBack_float`), which need not be
the same one.
-/

set_option autoImplicit false
set_option relaxedAutoImplicit false

namespace Logbook

namespace Binary64

/-- A finite number lies below the midpoint between the largest one and the next power of two. -/
theorem value_lt_of_isFinite {x : Binary64} (h : x.isFinite = true) :
    x.value < (2 ^ 53 - 1 / 2) * 2 ^ (971 : ℤ) := by
  have hpos : (0 : ℚ) < 2 ^ (971 : ℤ) := by positivity
  by_cases hzero : x.isZero = true
  · have hbits : x.magnitudeBits = 0 := by simpa [isZero] using hzero
    have hmagnitude : x.magnitude.1 = 0 := by
      rw [magnitude, hbits]
      rfl
    rw [value, hmagnitude, Nat.cast_zero, zero_mul]
    exact mul_pos (by norm_num) hpos
  · obtain ⟨-, hm, he⟩ := Decimal.magnitude_bounds h (Bool.eq_false_of_not_eq_true hzero)
    have hm' : (x.magnitude.1 : ℚ) ≤ 2 ^ 53 - 1 := by
      have hcast : x.magnitude.1 + 1 ≤ 2 ^ 53 := by omega
      have hcast' : (x.magnitude.1 : ℚ) + 1 ≤ 2 ^ 53 := by exact_mod_cast hcast
      linarith
    calc x.value ≤ (2 ^ 53 - 1) * 2 ^ (971 : ℤ) :=
          mul_le_mul hm' (zpow_le_zpow_right₀ one_le_two (by omega)) (by positivity) (by norm_num)
      _ < (2 ^ 53 - 1 / 2) * 2 ^ (971 : ℤ) := mul_lt_mul_of_pos_right (by norm_num) hpos

theorem value_nonneg (x : Binary64) : 0 ≤ x.value := by
  unfold value
  positivity

theorem isFinite_neg {x : Binary64} (h : x.isFinite = true) : x.neg.isFinite = true :=
  isFinite_ofMagnitudeBits _ (of_decide_eq_true h)

/-- What is rounded to a finite number, or to zero. -/
theorem isFinite_ofRatio (negative : Bool) {num den : Nat} (hden : 0 < den)
    (h : (num / den : ℚ) < (2 ^ 53 - 1 / 2) * 2 ^ (971 : ℤ)) :
    (ofRatio negative num den).isFinite = true := by
  rcases Nat.eq_zero_or_pos num with rfl | hnum
  · rw [ofRatio, if_pos rfl]
    exact isFinite_ofMagnitudeBits negative (by decide)
  · exact (value_ofRatio negative hnum hden h).1

/-- A quotient by a number of at least one is finite. -/
theorem isFinite_div {x y : Binary64} (hx : x.isFinite = true) (hy : 1 ≤ y.value) :
    (x.div y).isFinite = true := by
  obtain ⟨num, den, hdiv, hden, hvalue⟩ := div_eq_ofRatio x (lt_of_lt_of_le one_pos hy)
  rw [hdiv]
  refine isFinite_ofRatio _ hden ?_
  rw [hvalue]
  exact (div_le_self x.value_nonneg hy).trans_lt (value_lt_of_isFinite hx)

end Binary64

namespace Json

open Decimal

namespace Number

theorem fitting_lt {n : Nat} (hn : n < UInt64.size) (ds : List Char) :
    (fitting n ds).1 < UInt64.size := by
  induction ds generalizing n with
  | nil => exact hn
  | cons d ds ih =>
    rw [fitting]
    dsimp only
    split_ifs with hlarge
    · exact hn
    · exact ih (Nat.lt_of_not_le hlarge)

/-- The powers of ten that fit are rounded to no less than one. -/
theorem powerOfTen_magnitude :
    ∀ k < 309, 2 ^ 52 ≤ (powerOfTen k).magnitude.1 ∧ 1022 ≤ (powerOfTen k).magnitude.2 := by
  decide +kernel

theorem one_le_powerOfTen {k : Nat} (hk : k ≤ 308) : 1 ≤ (powerOfTen k).value := by
  obtain ⟨hm, he⟩ := powerOfTen_magnitude k (Nat.lt_succ_of_le hk)
  have hm' : (2 : ℚ) ^ 52 ≤ (powerOfTen k).magnitude.1 := by exact_mod_cast hm
  have hscale : (2 : ℚ) ^ (-52 : ℤ) ≤ 2 ^ (((powerOfTen k).magnitude.2 : ℤ) - 1074) :=
    zpow_le_zpow_right₀ one_le_two (by omega)
  calc (1 : ℚ) = 2 ^ 52 * 2 ^ (-52 : ℤ) := by norm_num
    _ ≤ (powerOfTen k).value := mul_le_mul hm' hscale (by positivity) (by positivity)

theorem isFinite_shrink (fuel : Nat) : ∀ {x : Binary64}, x.isFinite = true → ∀ k,
    (shrink fuel x k).isFinite = true := by
  induction fuel with
  | zero => exact fun hx _ ↦ hx
  | succ fuel ih =>
    intro x hx k
    rw [shrink]
    split_ifs with hk hzero
    · exact Binary64.isFinite_div hx (one_le_powerOfTen hk)
    · exact hx
    · exact ih (Binary64.isFinite_div hx (one_le_powerOfTen le_rfl)) _

theorem isFinite_of_scaled? {negative : Bool} {n : Nat} (hn : n < UInt64.size) {exponent : Int}
    {y : Binary64} (h : scaled? negative n exponent = some y) : y.isFinite = true := by
  have hnat : (Binary64.ofNat n).isFinite = true :=
    Binary64.isFinite_ofRatio false Nat.one_pos (lt_midpoint_of_lt_size hn)
  obtain ⟨x, hx, rfl⟩ := Option.map_eq_some_iff.mp h
  have hfinite : x.isFinite = true := by
    dsimp only at hx
    split_ifs at hx with _ _ _ hproduct
    · rw [← Option.some.inj hx]
      exact isFinite_shrink _ hnat _
    · rw [← Option.some.inj hx]
      exact hnat
    · rw [← Option.some.inj hx]
      exact hproduct
  split_ifs
  · exact Binary64.isFinite_neg hfinite
  · exact hfinite

theorem isFinite_of_withExponent? {negative : Bool} {n : Nat} (hn : n < UInt64.size) {start : Int}
    {cs rest : List Char} {y : Binary64} (h : withExponent? negative n start cs = some (y, rest)) :
    y.isFinite = true := by
  have hscaled : ∀ {exponent : Int} {tail : List Char},
      (scaled? negative n exponent).map (fun x ↦ (x, tail)) = some (y, rest) →
        y.isFinite = true := by
    intro exponent tail hmap
    obtain ⟨x, hx, hpair⟩ := Option.map_eq_some_iff.mp hmap
    rw [← (Prod.mk.inj hpair).1]
    exact isFinite_of_scaled? hn hx
  unfold withExponent? at h
  split at h
  · exact hscaled h
  · dsimp only at h
    split_ifs at h
    · rw [← (Prod.mk.inj (Option.some.inj h)).1]
      exact Binary64.isFinite_ofMagnitudeBits negative (by decide)
    · exact hscaled h
    · exact hscaled h
    · exact hscaled h

/-- A float that is read is finite. -/
theorem isFinite_of_read? {cs rest : List Char} {y : Binary64}
    (h : read? cs = some (float y, rest)) : y.isFinite = true := by
  have hunsigned : ∀ {negative : Bool} {cs : List Char},
      unsigned? negative cs = some (float y, rest) → y.isFinite = true := by
    intro negative cs h
    have hexponent : ∀ {n : Nat} {start : Int} {tail : List Char}, n < UInt64.size →
        (withExponent? negative n start tail).map (fun p ↦ (float p.1, p.2)) =
          some (float y, rest) → y.isFinite = true := by
      intro n start tail hn hmap
      obtain ⟨⟨x, t⟩, hx, hpair⟩ := Option.map_eq_some_iff.mp hmap
      obtain ⟨hfloat, rfl⟩ := Prod.mk.inj hpair
      obtain rfl : x = y := by simpa using hfloat
      exact isFinite_of_withExponent? hn hx
    have hword : (0 : Nat) < UInt64.size := by decide
    unfold unsigned? at h
    dsimp only at h
    split at h
    · exact absurd h (by simp)
    split at h
    · split at h
      · exact absurd h (by simp)
      · exact hexponent (fitting_lt (fitting_lt hword _) _) h
    · split at h
      · exact absurd (Prod.mk.inj (Option.some.inj h)).1 (by simp)
      · exact hexponent (fitting_lt hword _) h
  unfold read? at h
  split at h
  · exact hunsigned h
  · exact hunsigned h

end Number

/-- The text of a finite float reads back as a finite float. -/
theorem Value.readBack_float {x : Binary64} (h : x.isFinite = true) :
    ∃ y, y.isFinite = true ∧
      (Value.number (.float x)).readBack = .number (.float y) := by
  obtain ⟨y, hy⟩ := Number.read?_float h
  have hread := hy [] (by simp [Ends])
  rw [List.append_nil] at hread
  refine ⟨y, Number.isFinite_of_read? hread, ?_⟩
  rw [Value.readBack, Number.readBack, if_pos h, hread]

end Json

end Logbook
