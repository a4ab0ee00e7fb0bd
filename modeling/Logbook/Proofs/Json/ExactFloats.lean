import Logbook.Proofs.Decimal.Nearest
import Logbook.Proofs.Json.FiniteNumbers

/-!
# Floats that read back as themselves

A float is read by a fast rule, which scales the digits of its text by one product or quotient. If
the digits and the power of ten are floats themselves, this is their exact product or quotient,
rounded once (`Number.scaled?_eq_ofRatio`), and the shortest decimal of a float rounds to the float.
So a float whose digits, as they are written out, make an integer of at most 53 bits, with an
exponent of ten of at most 22 either way, reads back as itself (`Value.readBack_of_isBrief`).
-/

set_option autoImplicit false
set_option relaxedAutoImplicit false

namespace Logbook.Json

open Decimal

namespace Number

/-! ### Exact factors -/

theorem value_ofNat {n : Nat} (hn : n < 2 ^ 53) : (Binary64.ofNat n).value = n := by
  have hvalue := Binary64.value_ofRatio_of_fits false (k := 0) hn (by decide)
  rwa [pow_zero, pow_zero, mul_one, mul_one] at hvalue

theorem value_powerOfTen {k : Nat} (hk : k ≤ 22) : (powerOfTen k).value = 10 ^ k := by
  have hfive : 5 ^ k < 2 ^ 53 :=
    (Nat.pow_le_pow_right (by norm_num) hk).trans_lt (by norm_num : 5 ^ 22 < 2 ^ 53)
  have hten : (10 : ℕ) ^ k = 5 ^ k * 2 ^ k := by
    rw [← Nat.mul_pow]
  rw [powerOfTen_eq (by omega), hten, Binary64.value_ofRatio_of_fits false hfive (by omega),
    Nat.cast_pow, ← mul_pow]
  norm_num

theorem isNegative_ofNat (n : Nat) : (Binary64.ofNat n).isNegative = false :=
  Binary64.isNegative_ofRatio false n 1

theorem isNegative_powerOfTen {k : Nat} (hk : k ≤ 308) : (powerOfTen k).isNegative = false := by
  rw [powerOfTen_eq hk, Binary64.isNegative_ofRatio]

/-- Digits and a power of ten that are floats are scaled to the exact number, rounded once. -/
theorem scaled?_eq_ofRatio (negative : Bool) {n : Nat} (hn : n < 2 ^ 53) {k : Int}
    (hlow : -22 ≤ k) (hhigh : k ≤ 22) :
    ∃ num den : Nat, 0 < den ∧ (num / den : ℚ) = n * 10 ^ k ∧
      scaled? negative n k = some (.ofRatio negative num den) := by
  have hsign : ∀ num den, (if negative then (Binary64.ofRatio false num den).neg
      else .ofRatio false num den) = Binary64.ofRatio negative num den := by
    intro num den
    cases negative
    · exact if_neg Bool.false_ne_true
    · exact (if_pos rfl).trans (Binary64.neg_ofRatio num den)
  rcases lt_or_ge k 0 with hneg | hpos
  · obtain ⟨j, hj⟩ := Int.eq_ofNat_of_zero_le (show 0 ≤ -k by omega)
    obtain rfl : k = -(j : ℤ) := by omega
    have hten := value_powerOfTen (k := j) (by omega)
    obtain ⟨num, den, hdiv, hden, hvalue⟩ :=
      (Binary64.ofNat n).div_eq_ofRatio (y := powerOfTen j) (by rw [hten]; positivity)
    rw [isNegative_ofNat, isNegative_powerOfTen (by omega), bne_self_eq_false] at hdiv
    refine ⟨num, den, hden, ?_, ?_⟩
    · rw [hvalue, value_ofNat hn, hten, zpow_neg, zpow_natCast]
      rfl
    · unfold scaled?
      dsimp only
      rw [if_pos hneg, Int.natAbs_neg, Int.natAbs_natCast, shrink, if_pos (by omega), hdiv,
        Option.map_some, hsign]
  · obtain ⟨j, rfl⟩ := Int.eq_ofNat_of_zero_le hpos
    have hten := value_powerOfTen (k := j) (by omega)
    obtain ⟨num, den, hmul, hden, hvalue⟩ :=
      (Binary64.ofNat n).mul_eq_ofRatio (powerOfTen j)
    rw [isNegative_ofNat, isNegative_powerOfTen (by omega), bne_self_eq_false] at hmul
    rw [value_ofNat hn, hten] at hvalue
    have hfinite : (Binary64.ofRatio false num den).isFinite = true := by
      refine Binary64.isFinite_ofRatio false hden ?_
      have hn' : (n : ℚ) ≤ 2 ^ 53 - 1 := by
        have hcast : (n : ℚ) + 1 ≤ 2 ^ 53 := by exact_mod_cast hn
        linarith
      have hpow : (10 : ℚ) ^ j ≤ 2 ^ (971 : ℤ) := by
        calc (10 : ℚ) ^ j ≤ 10 ^ 22 := pow_le_pow_right₀ (by norm_num) (by omega)
          _ ≤ 2 ^ (74 : ℤ) := by norm_num
          _ ≤ 2 ^ (971 : ℤ) := zpow_le_zpow_right₀ one_le_two (by norm_num)
      rw [hvalue]
      calc (n * 10 ^ j : ℚ) ≤ (2 ^ 53 - 1) * 2 ^ (971 : ℤ) :=
            mul_le_mul hn' hpow (by positivity) (by norm_num)
        _ < (2 ^ 53 - 1 / 2) * 2 ^ (971 : ℤ) :=
            mul_lt_mul_of_pos_right (by norm_num) (by positivity)
    refine ⟨num, den, hden, ?_, ?_⟩
    · rw [hvalue, zpow_natCast]
    · unfold scaled?
      dsimp only
      rw [if_neg (by omega), if_neg (by omega), Int.toNat_natCast, hmul, if_pos hfinite,
        Option.map_some, hsign]

/-! ### The digits that are read -/

section

variable {whole fraction rest : List Char}

/-- A number with a point is scaled down by the places behind the point if its digits all fit. -/
theorem unsigned?_fraction (negative : Bool) (hdigits : ∀ d ∈ whole, isDigit d = true)
    (hne : whole ≠ []) (hzero : NoLeadingZero whole)
    (hfraction : ∀ d ∈ fraction, isDigit d = true) (hsome : fraction ≠ [])
    (hfits : natOfDigits (whole ++ fraction) < UInt64.size) (hrest : Ends rest) :
    unsigned? negative (whole ++ '.' :: fraction ++ rest) =
      (scaled? negative (natOfDigits (whole ++ fraction)) (-(fraction.length : Int))).map
        fun y ↦ (float y, rest) := by
  rw [natOfDigits_append] at hfits ⊢
  have hwhole : fitting 0 whole = (natOfDigits whole, whole.length) := by
    have hall := fitting_of_lt 0 whole
    rw [Nat.mul_zero, Nat.zero_add] at hall
    refine hall (lt_of_le_of_lt ?_ hfits)
    exact (Nat.le_mul_of_pos_left _ (by positivity)).trans (Nat.le_add_right _ _)
  have hplaces := fitting_of_lt (natOfDigits whole) fraction hfits
  rw [List.append_assoc, List.cons_append,
    unsigned?_point negative hdigits hne hzero hfraction hsome fun c hc ↦ (hrest c hc).1, hwhole]
  dsimp only
  rw [hplaces, withExponent?_ends negative _ _ hrest, Option.map_map, sub_self, zero_sub]
  rfl

/-- The number that is read from the text of a decimal before it is scaled. Of a whole number in
positional form, the zeros behind its digits and the one behind the point are read with them. -/
def spelledOut (d : Scaled) : Scaled :=
  if 0 ≤ d.exponent ∧ d.exponent + ((digitChars d.digits).length : Int) - 1 < 16 then
    ⟨d.digits * 10 ^ (d.exponent.toNat + 1), -1⟩
  else d

theorem value_spelledOut (d : Scaled) : (spelledOut d).value = d.value := by
  unfold spelledOut
  split_ifs with hwhole
  · obtain ⟨k, hk⟩ := Int.eq_ofNat_of_zero_le hwhole.1
    rw [Scaled.value, Scaled.value, hk, Int.toNat_natCast, zpow_natCast, zpow_neg_one]
    push_cast
    rw [pow_succ, mul_assoc, mul_assoc, mul_inv_cancel₀ (by norm_num), mul_one]
  · rfl

/-- A decimal in positional form is read as its digits, scaled. -/
theorem unsigned?_positionalChars (negative : Bool) {d : Scaled} (hdigits : 0 < d.digits)
    (hsize : d.digits < UInt64.size)
    (hlead : d.exponent + ((digitChars d.digits).length : Int) - 1 < 16) (hrest : Ends rest) :
    unsigned? negative (positionalChars true (digitChars d.digits) d.exponent ++ rest) =
      (scaled? negative (spelledOut d).digits (spelledOut d).exponent).map
        fun y ↦ (float y, rest) := by
  have hall : ∀ c ∈ digitChars d.digits, isDigit c = true := fun _ hc ↦ isDigit_of_mem_toDigits hc
  have hne : digitChars d.digits ≠ [] := Nat.toDigits_ne_nil
  have hhead : (digitChars d.digits).head? ≠ some '0' := head?_toDigits hdigits
  have hvalue : natOfDigits (digitChars d.digits) = d.digits := natOfDigits_toDigits d.digits
  have hbound : natOfDigits (digitChars d.digits) < 10 ^ (digitChars d.digits).length :=
    natOfDigits_lt hall
  rw [hvalue] at hbound
  unfold spelledOut positionalChars
  simp only [↓reduceIte]
  generalize digitChars d.digits = ds at *
  have hlength : 0 < ds.length := List.length_pos_of_ne_nil hne
  have hzeros : ∀ n, ∀ c ∈ List.replicate n '0', isDigit c = true := by
    intro n c hc
    rw [List.eq_of_mem_replicate hc]
    decide
  by_cases hwhole : 0 ≤ d.exponent
  · rw [if_pos hwhole, if_pos ⟨hwhole, hlead⟩]
    obtain ⟨k, hk⟩ := Int.eq_ofNat_of_zero_le hwhole
    rw [hk, Int.toNat_natCast]
    have hread : natOfDigits (ds ++ List.replicate k '0' ++ ['0']) = d.digits * 10 ^ (k + 1) := by
      have hlast : natOfDigits ['0'] = 0 := rfl
      rw [natOfDigits_append, natOfDigits_append, natOfDigits_replicate_zero, hvalue, hlast,
        List.length_replicate, List.length_singleton, pow_succ]
      ring
    have hfits : d.digits * 10 ^ (k + 1) < UInt64.size := by
      calc d.digits * 10 ^ (k + 1) < 10 ^ ds.length * 10 ^ (k + 1) :=
            Nat.mul_lt_mul_of_pos_right hbound (by positivity)
        _ = 10 ^ (ds.length + (k + 1)) := (pow_add _ _ _).symm
        _ ≤ 10 ^ 17 := Nat.pow_le_pow_right (by norm_num) (by omega)
        _ < UInt64.size := by decide
    have hfraction := unsigned?_fraction negative
      (List.forall_mem_append.mpr ⟨hall, hzeros k⟩) (by simp [hne])
      (Or.inl (by rwa [List.head?_append_of_ne_nil _ hne])) isDigit_of_mem_zero (by simp)
      (hread ▸ hfits) hrest
    rw [hread] at hfraction
    exact hfraction
  have hspelled : ¬(0 ≤ d.exponent ∧ d.exponent + (ds.length : Int) - 1 < 16) := fun h ↦ hwhole h.1
  rw [if_neg hwhole, if_neg hspelled]
  by_cases hplaces : (-d.exponent).toNat < ds.length
  · rw [if_pos hplaces]
    have hparts := List.take_append_drop (ds.length - (-d.exponent).toNat) ds
    have hread : natOfDigits (ds.take (ds.length - (-d.exponent).toNat) ++
        ds.drop (ds.length - (-d.exponent).toNat)) = d.digits := by rw [hparts, hvalue]
    have hfraction := unsigned?_fraction negative (fun c hc ↦ hall c (List.mem_of_mem_take hc))
      (List.ne_nil_of_length_pos (by rw [List.length_take]; omega))
      (Or.inl (by rwa [List.head?_take, if_neg (by omega)]))
      (fun c hc ↦ hall c (List.mem_of_mem_drop hc))
      (List.ne_nil_of_length_pos (by rw [List.length_drop]; omega)) (hread.symm ▸ hsize) hrest
    rw [hread, List.length_drop,
      show -((ds.length - (ds.length - (-d.exponent).toNat) : ℕ) : ℤ) = d.exponent by omega]
      at hfraction
    exact hfraction
  · rw [if_neg hplaces]
    have hread : natOfDigits (['0'] ++ (List.replicate ((-d.exponent).toNat - ds.length) '0' ++ ds)) =
        d.digits := by
      have hfirst : natOfDigits ['0'] = 0 := rfl
      rw [natOfDigits_append, natOfDigits_append, natOfDigits_replicate_zero, hvalue, hfirst,
        Nat.mul_zero, Nat.mul_zero, Nat.zero_add, Nat.zero_add]
    have hfraction := unsigned?_fraction negative isDigit_of_mem_zero (by simp)
      (Or.inr le_rfl) (List.forall_mem_append.mpr ⟨hzeros _, hall⟩) (by simp [hne])
      (hread.symm ▸ hsize) hrest
    rw [hread, List.length_append, List.length_replicate,
      show -(((-d.exponent).toNat - ds.length + ds.length : ℕ) : ℤ) = d.exponent by omega]
      at hfraction
    exact hfraction

/-- The text of a decimal is read as its digits, scaled. -/
theorem unsigned?_chars (negative : Bool) {d : Scaled} (hdigits : 0 < d.digits)
    (hsize : d.digits < UInt64.size) (hsmall : d.exponent.natAbs ≤ 308) (hrest : Ends rest) :
    unsigned? negative (d.chars .structured ++ rest) =
      (scaled? negative (spelledOut d).digits (spelledOut d).exponent).map
        fun y ↦ (float y, rest) := by
  have hlong : (digitChars d.digits).length ≤ 20 :=
    (Nat.length_toDigits_le_iff (by decide) (by decide)).mpr (hsize.trans (by decide))
  simp only [Scaled.chars]
  split_ifs with hpositional
  · have hrange := of_decide_eq_true hpositional
    exact unsigned?_positionalChars negative hdigits hsize hrange.2 hrest
  · have hnot : ¬(0 ≤ d.exponent ∧ d.exponent + ((digitChars d.digits).length : Int) - 1 < 16) := by
      rintro ⟨hup, hlow⟩
      have hlength : 0 < (digitChars d.digits).length :=
        List.length_pos_of_ne_nil Nat.toDigits_ne_nil
      exact hpositional (decide_eq_true ⟨by omega, hlow⟩)
    rw [unsigned?_exponentChars negative hsize, withExponent?_lead negative (by omega) hrest,
      Option.map_map, spelledOut, if_neg hnot]
    rfl

/-! ### Brief floats -/

/-- A float is brief if its text is read as digits of at most 53 bits, with an exponent of ten of at
most 22 either way. -/
def IsBrief (x : Binary64) : Prop :=
  x.isZero = true ∨ (spelledOut (shortest .toEven x)).digits < 2 ^ 53 ∧
    -22 ≤ (spelledOut (shortest .toEven x)).exponent ∧
    (spelledOut (shortest .toEven x)).exponent ≤ 22

instance (x : Binary64) : Decidable (IsBrief x) :=
  inferInstanceAs (Decidable (_ ∨ _))

theorem natAbs_exponent_le {d : Scaled} (hlow : -22 ≤ (spelledOut d).exponent)
    (hhigh : (spelledOut d).exponent ≤ 22) : d.exponent.natAbs ≤ 308 := by
  unfold spelledOut at hlow hhigh
  split_ifs at hlow hhigh with hwhole
  · have hlength : 0 < (digitChars d.digits).length :=
      List.length_pos_of_ne_nil Nat.toDigits_ne_nil
    omega
  · omega

/-- The text of a brief float reads back as the float. -/
theorem read?_of_isBrief {x : Binary64} (hfinite : x.isFinite = true) (h : IsBrief x)
    (hrest : Ends rest) : read? ((float x).chars ++ rest) = some (float x, rest) := by
  have hscaled : ∀ {n : Nat} {k : Int}, n < 2 ^ 53 → -22 ≤ k → k ≤ 22 →
      (∀ num den : Nat, 0 < den → (num / den : ℚ) = n * 10 ^ k →
        Binary64.ofRatio x.isNegative num den = .ofMagnitudeBits x.isNegative x.magnitudeBits) →
      scaled? x.isNegative n k = some x := by
    intro n k hn hlow hhigh hrounds
    obtain ⟨num, den, hden, hvalue, hread⟩ := scaled?_eq_ofRatio x.isNegative hn hlow hhigh
    rw [hread, hrounds num den hden hvalue, Binary64.ofMagnitudeBits_self]
  refine read?_of_magnitudeChars hfinite ?_
  unfold magnitudeChars
  by_cases hzero : x.isZero = true
  · have hbits : x.magnitudeBits = 0 := by simpa [Binary64.isZero] using hzero
    have hself : scaled? x.isNegative (natOfDigits (['0'] ++ ['0'])) (-(['0'].length : Int)) =
        some x := by
      refine hscaled (by decide) (by decide) (by decide) fun num den hden hvalue ↦ ?_
      have hnone : (natOfDigits (['0'] ++ ['0']) : ℚ) = 0 := Nat.cast_zero
      have hden' : (den : ℚ) ≠ 0 := by exact_mod_cast hden.ne'
      rw [hnone, zero_mul, div_eq_zero_iff, or_iff_left hden', Nat.cast_eq_zero] at hvalue
      rw [hvalue, hbits, Binary64.ofRatio, if_pos rfl]
    rw [if_pos hzero]
    refine (unsigned?_fraction x.isNegative isDigit_of_mem_zero (by simp) (Or.inr le_rfl)
      isDigit_of_mem_zero (by simp) (by decide) hrest).trans ?_
    rw [hself]
    rfl
  · have hzero' : x.isZero = false := Bool.eq_false_of_not_eq_true hzero
    obtain ⟨hdigits, hlow, hhigh⟩ := h.resolve_left hzero
    obtain ⟨-, -, hword⟩ := shortest_bounds .toEven hfinite hzero'
    have hself := hscaled hdigits hlow hhigh fun num den hden hvalue ↦
      ofRatio_of_shortest .toEven hfinite hzero' hden
        (hvalue.trans (value_spelledOut (shortest .toEven x))) _
    rw [if_neg hzero]
    refine (unsigned?_chars x.isNegative (digits_shortest_pos hfinite hzero') hword
      (natAbs_exponent_le hlow hhigh) hrest).trans ?_
    rw [hself]
    rfl

end

end Number

/-- The text of a brief float reads back as the float. -/
theorem Value.readBack_of_isBrief {x : Binary64} (hfinite : x.isFinite = true)
    (h : Number.IsBrief x) : (Value.number (.float x)).readBack = .number (.float x) := by
  have hread := Number.read?_of_isBrief hfinite h (show Ends [] by simp [Ends])
  rw [List.append_nil] at hread
  rw [Value.readBack, Number.readBack, if_pos hfinite, hread]

/-- The float nearest to a tenth is brief, the largest one below `2 ^ 53` is not. -/
example : Number.IsBrief (.ofRatio false 1 10) ∧ ¬Number.IsBrief (.ofNat (2 ^ 53 - 1)) := by
  decide +kernel

end Logbook.Json
