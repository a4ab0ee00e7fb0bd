import Logbook.Proofs.Decimal.Shortest

/-!
# What rounds to a number

The interval of a number holds the rationals that round to it (`ofRatio_of_holds`), and the shortest
decimal of the number is one of them: every ratio of its value rounds to the number it was made for
(`ofRatio_of_shortest`). An integer of at most 53 bits is rounded to itself, also with zeros behind
it (`value_ofRatio_of_fits`).
-/

set_option autoImplicit false
set_option relaxedAutoImplicit false

namespace Logbook

namespace Binary64

/-! ### Signs -/

/-- The magnitude of a rounded ratio does not depend on the sign. -/
theorem exists_ofRatio (num den : Nat) : ∃ bits ≤ infinityBits, ∀ negative,
    ofRatio negative num den = ofMagnitudeBits negative bits := by
  unfold ofRatio
  split_ifs
  · exact ⟨0, Nat.zero_le _, fun _ ↦ rfl⟩
  · exact ⟨_, Nat.min_le_right _ _, fun _ ↦ rfl⟩

theorem isNegative_ofMagnitudeBits (negative : Bool) {bits : Nat} (h : bits ≤ infinityBits) :
    (ofMagnitudeBits negative bits).isNegative = negative := by
  unfold infinityBits at h
  unfold ofMagnitudeBits isNegative
  rw [UInt64.toNat_ofNat']
  cases negative <;> simp <;> omega

theorem isNegative_ofRatio (negative : Bool) (num den : Nat) :
    (ofRatio negative num den).isNegative = negative := by
  obtain ⟨bits, hbits, hratio⟩ := exists_ofRatio num den
  rw [hratio, isNegative_ofMagnitudeBits negative hbits]

theorem neg_ofRatio (num den : Nat) : (ofRatio false num den).neg = ofRatio true num den := by
  obtain ⟨bits, hbits, hratio⟩ := exists_ofRatio num den
  rw [hratio, hratio, neg, isNegative_ofMagnitudeBits false hbits,
    magnitudeBits_ofMagnitudeBits false (hbits.trans_lt (by decide))]
  rfl

/-- A number is its sign and its magnitude. -/
theorem ofMagnitudeBits_self (x : Binary64) : ofMagnitudeBits x.isNegative x.magnitudeBits = x := by
  obtain ⟨bits⟩ := x
  have hbits : bits.toNat < 2 ^ 64 := bits.toNat_lt
  unfold ofMagnitudeBits isNegative magnitudeBits
  dsimp only
  rw [Binary64.mk.injEq, ← UInt64.toNat_inj, UInt64.toNat_ofNat']
  split_ifs with hsign <;> simp only [decide_eq_true_eq] at hsign <;> omega

/-! ### Magnitudes -/

/-- The pattern of a magnitude puts its exponent before its integer. -/
theorem magnitudeBits_eq (x : Binary64) :
    x.magnitudeBits = x.magnitude.2 * 0x10000000000000 + x.magnitude.1 ∧
      (0 < x.magnitude.2 → 2 ^ 52 ≤ x.magnitude.1) := by
  unfold magnitude
  dsimp only
  split_ifs <;> omega

/-- An integer of at most 53 bits is rounded to itself, also with zeros behind it. -/
theorem value_ofRatio_of_fits (negative : Bool) {n k : Nat} (hn : n < 2 ^ 53) (hk : k ≤ 64) :
    (ofRatio negative (n * 2 ^ k) 1).value = n * 2 ^ k := by
  rcases Nat.eq_zero_or_pos n with rfl | hpos
  · have hbits : (ofRatio negative (0 * 2 ^ k) 1).magnitudeBits = 0 * 0x10000000000000 + 0 := by
      rw [ofRatio, if_pos (Nat.zero_mul _), magnitudeBits_ofMagnitudeBits negative (by decide)]
    rw [value_eq hbits (by decide) (by simp), Nat.cast_zero, zero_mul, zero_mul]
  obtain ⟨e, a, c, hc, hratio, hac, hless, hhigh, hnormal⟩ :=
    exists_unit (show 0 < n * 2 ^ k from Nat.mul_pos hpos (by positivity)) one_pos
  have hquotient : (((n * 2 ^ k : ℕ) : ℚ) / (1 : ℕ)) = n * 2 ^ k := by
    push_cast
    ring
  rw [hquotient] at hac hhigh hnormal
  have hone : (1 : ℚ) ≤ n * 2 ^ k := by
    exact_mod_cast Nat.mul_pos hpos (by positivity)
  have he : 0 < e := by
    by_contra hzero
    obtain rfl : e = 0 := by omega
    have hsmall : (2 : ℚ) ^ (((0 : ℕ) : ℤ) - 1021) ≤ 1 :=
      zpow_le_one_of_nonpos₀ one_le_two (by norm_num)
    exact absurd (hone.trans_lt hhigh) (not_lt.mpr hsmall)
  obtain ⟨hle, hlow⟩ := hnormal he
  have htop : e ≤ k + 1074 := by
    have hpow : (2 : ℚ) ^ ((e : ℤ) - 1022) < 2 ^ ((53 : ℤ) + k) := by
      rw [zpow_add₀ two_ne_zero, zpow_natCast]
      refine hlow.trans_lt (mul_lt_mul_of_pos_right ?_ (by positivity))
      exact_mod_cast hn
    rw [zpow_lt_zpow_iff_right₀ one_lt_two] at hpow
    omega
  -- The ratio has a whole number of units, so there is nothing to round.
  set units : Nat := n * 2 ^ (k + 1074 - e) with hunits
  have hexact : (a / c : ℚ) = units := by
    rw [hac, hunits, mul_assoc, ← zpow_natCast 2 k, ← zpow_add₀ two_ne_zero,
      show (k : ℤ) + (1074 - e) = ((k + 1074 - e : ℕ) : ℤ) by omega, zpow_natCast]
    push_cast
    rfl
  have hround : roundDiv a c = units := by
    refine roundDiv_eq hc (by linarith) (by linarith) fun _ ↦ ⟨?_, ?_⟩ <;>
      · intro heq
        linarith
  rw [hexact] at hless hle
  have hless' : units < 2 ^ 53 := by exact_mod_cast hless
  have hle' : 2 ^ 52 ≤ units := by exact_mod_cast hle
  have hbits : (ofRatio negative (n * 2 ^ k) 1).magnitudeBits = e * 0x10000000000000 + units := by
    rw [hratio, hround, Nat.min_eq_left (by unfold infinityBits; omega),
      magnitudeBits_ofMagnitudeBits negative (by omega)]
  rw [value_eq hbits hless'.le fun _ ↦ hle', ← hexact, hac, mul_assoc, ← zpow_add₀ two_ne_zero,
    show 1074 - (e : ℤ) + ((e : ℤ) - 1074) = 0 by ring, zpow_zero, mul_one]

end Binary64

/-! ### Intervals -/

namespace Decimal

open Binary64 (infinityBits roundDiv)

/-- What lies in the interval of a magnitude, counted in its units in the last place: it is at most
half a unit away, less if the magnitude is odd, and at most a quarter below a power of two. -/
theorem Gap.Holds.units {m e : Nat} (hm : 0 < m) {q : ℚ} (h : (ofMagnitude m e).Holds q) :
    ∃ r : ℚ, q = r * 2 ^ ((e : ℤ) - 1074) ∧ m - 1 / 2 ≤ r ∧ r ≤ m + 1 / 2 ∧
      (m % 2 = 1 → r ≠ m - 1 / 2 ∧ r ≠ m + 1 / 2) ∧ (m = 2 ^ 52 → 0 < e → m - 1 / 4 ≤ r) := by
  obtain ⟨hunit, -, -, -, -, hlow, hhigh⟩ := ofMagnitude_eq hm e
  have hunit' : (0 : ℚ) < (ofMagnitude m e).unit := by exact_mod_cast hunit
  have hhalf : (2 : ℚ) ^ ((e : ℤ) - 1075) = 2 ^ ((e : ℤ) - 1074) / 2 := by
    rw [show (e : ℤ) - 1075 = (e : ℤ) - 1074 - 1 by ring, zpow_sub_one₀ two_ne_zero]
    rfl
  have hquarter : (2 : ℚ) ^ ((e : ℤ) - 1076) = 2 ^ ((e : ℤ) - 1074) / 4 := by
    rw [show (e : ℤ) - 1076 = (e : ℤ) - 1074 - (2 : ℕ) by push_cast; ring,
      zpow_sub₀ two_ne_zero, zpow_natCast]
    norm_num
  have hpos : (0 : ℚ) < 2 ^ ((e : ℤ) - 1074) := by positivity
  rw [hquarter] at hlow
  rw [hhalf] at hhigh
  generalize (2 : ℚ) ^ ((e : ℤ) - 1074) = u at hlow hhigh hpos ⊢
  obtain ⟨r, rfl⟩ : ∃ r, q = r * u := ⟨q / u, (div_mul_cancel₀ q hpos.ne').symm⟩
  set lower : ℚ := if m = 2 ^ 52 ∧ 0 < e then 1 else 2 with hlower
  have hscale : 0 < u * (ofMagnitude m e).unit := mul_pos hpos hunit'
  have hlow' : ((ofMagnitude m e).low : ℚ) = (m - lower / 4) * (u * (ofMagnitude m e).unit) := by
    rw [hlow]
    ring
  have hhigh' : ((ofMagnitude m e).high : ℚ) = (m + 1 / 2) * (u * (ofMagnitude m e).unit) := by
    rw [hhigh]
    ring
  obtain ⟨hge, hle⟩ := h.bounds
  rw [hlow', mul_assoc] at hge
  rw [hhigh', mul_assoc] at hle
  replace hge : m - lower / 4 ≤ r := le_of_mul_le_mul_right hge hscale
  replace hle : r ≤ m + 1 / 2 := le_of_mul_le_mul_right hle hscale
  have hlowerLe : lower ≤ 2 := by
    rw [hlower]
    split_ifs <;> norm_num
  refine ⟨r, rfl, by linarith, hle, fun hodd ↦ ?_, fun hpower he ↦ ?_⟩
  · have hclosed : ¬(ofMagnitude m e).closed = true := by
      change ¬(m % 2 == 0) = true
      rw [hodd]
      decide
    rw [Holds, if_neg hclosed, hlow', hhigh', mul_assoc] at h
    have hgt : m - lower / 4 < r := lt_of_mul_lt_mul_right h.1 hscale.le
    have hlt : r < m + 1 / 2 := lt_of_mul_lt_mul_right h.2 hscale.le
    exact ⟨by linarith, hlt.ne⟩
  · rw [if_pos ⟨hpower, he⟩] at hlower
    rw [hlower] at hge
    exact hge

/-- Counts in units of two scales are compared by the powers of two they lie between. -/
theorem scale_lt {e f : Nat} {r : ℚ} {k : ℤ} (hk : (2 : ℚ) ^ k ≤ r)
    (h : r * 2 ^ ((e : ℤ) - 1074) < 2 ^ ((f : ℤ) - 1021)) : k + e < f + 53 := by
  have hpow : (2 : ℚ) ^ (k + ((e : ℤ) - 1074)) < 2 ^ ((f : ℤ) - 1021) := by
    rw [zpow_add₀ two_ne_zero]
    exact (mul_le_mul_of_nonneg_right hk (by positivity)).trans_lt h
  rw [zpow_lt_zpow_iff_right₀ one_lt_two] at hpow
  omega

theorem lt_scale {e f : Nat} {r : ℚ} {k : ℤ} (hk : r < (2 : ℚ) ^ k)
    (h : (2 : ℚ) ^ ((f : ℤ) - 1022) ≤ r * 2 ^ ((e : ℤ) - 1074)) : f + 52 < k + e := by
  have hpow : (2 : ℚ) ^ ((f : ℤ) - 1022) < 2 ^ (k + ((e : ℤ) - 1074)) := by
    rw [zpow_add₀ two_ne_zero]
    exact h.trans_lt (mul_lt_mul_of_pos_right hk (by positivity))
  rw [zpow_lt_zpow_iff_right₀ one_lt_two] at hpow
  omega

/-- What lies in the interval of a number rounds to it. -/
theorem ofRatio_of_holds {x : Binary64} (hfinite : x.isFinite = true) (hzero : x.isZero = false)
    {num den : Nat} (hden : 0 < den)
    (h : (Gap.ofMagnitude x.magnitude.1 x.magnitude.2).Holds (num / den)) (negative : Bool) :
    Binary64.ofRatio negative num den = .ofMagnitudeBits negative x.magnitudeBits := by
  obtain ⟨hm, hmHigh, -⟩ := magnitude_bounds hfinite hzero
  obtain ⟨hpattern, hnormal⟩ := x.magnitudeBits_eq
  have hbits : x.magnitudeBits < infinityBits := of_decide_eq_true hfinite
  generalize x.magnitude.1 = m at h hm hmHigh hpattern hnormal
  generalize x.magnitude.2 = e at h hpattern hnormal
  obtain ⟨r, hr, hge, hle, htie, hpower⟩ := h.units hm
  have hm1 : (1 : ℚ) ≤ m := by exact_mod_cast hm
  have hm53 : (m : ℚ) + 1 ≤ 2 ^ 53 := by exact_mod_cast hmHigh
  have hnum : 0 < num := by
    rcases Nat.eq_zero_or_pos num with rfl | hpos
    · rw [Nat.cast_zero, zero_div] at hr
      have hrPos : 0 < r * 2 ^ ((e : ℤ) - 1074) := mul_pos (by linarith) (by positivity)
      exact absurd hr hrPos.ne
    · exact hpos
  obtain ⟨f, a, c, hc, hratio, hac, -, hhigh, hlow⟩ := Binary64.exists_unit hnum hden
  rw [hratio]
  suffices hsame : f * 0x10000000000000 + roundDiv a c = x.magnitudeBits by
    rw [hsame, Nat.min_eq_left hbits.le]
  rw [hr] at hac hhigh hlow
  have hmost : f ≤ e := by
    by_contra hmore
    have hscale := lt_scale (k := 53) (by norm_num; linarith) (hlow (by omega)).2
    omega
  by_cases hbelow : 0 < e ∧ r < 2 ^ 52
  -- Below a power of two, the ratio is counted in half the units of the number.
  · obtain ⟨he, hless⟩ := hbelow
    obtain rfl : m = 2 ^ 52 := by
      have hcast : (m : ℚ) < 2 ^ 52 + 1 := by linarith
      have hcast' : m < 2 ^ 52 + 1 := by exact_mod_cast hcast
      exact Nat.le_antisymm (Nat.le_of_lt_succ hcast') (hnormal he)
    have hquarter := hpower rfl he
    push_cast at hquarter
    have hne : f ≠ e := by
      rintro rfl
      have hscale := lt_scale (k := 52) (by exact_mod_cast hless) (hlow he).2
      omega
    have hnext := scale_lt (k := 51) (by norm_num; linarith) hhigh
    obtain rfl : e = f + 1 := by omega
    have hdouble : (a / c : ℚ) = 2 * r := by
      rw [hac, mul_assoc, ← zpow_add₀ two_ne_zero,
        show ((f + 1 : ℕ) : ℤ) - 1074 + (1074 - (f : ℤ)) = 1 by push_cast; ring, zpow_one, mul_comm]
    have hround : roundDiv a c = 2 ^ 53 := by
      refine Binary64.roundDiv_eq hc ?_ ?_ fun hodd ↦ absurd hodd (by decide)
      · rw [hdouble]
        push_cast
        linarith
      · rw [hdouble]
        push_cast
        linarith
    omega
  · have hsame : f = e := by
      refine Nat.le_antisymm hmost (not_lt.mp fun hlt ↦ ?_)
      have hlarge : (2 : ℚ) ^ (52 : ℤ) ≤ r := by
        rw [not_and, not_lt] at hbelow
        exact_mod_cast hbelow (by omega)
      have hscale := scale_lt hlarge hhigh
      omega
    subst hsame
    have hexact : (a / c : ℚ) = r := by
      rw [hac, mul_assoc, ← zpow_add₀ two_ne_zero,
        show (f : ℤ) - 1074 + (1074 - (f : ℤ)) = 0 by ring, zpow_zero, mul_one]
    rw [hpattern, Binary64.roundDiv_eq hc (by rwa [hexact]) (by rwa [hexact]) (by rwa [hexact])]

/-- The shortest decimal of a number rounds to the number. -/
theorem ofRatio_of_shortest (tie : Tie) {x : Binary64} (hfinite : x.isFinite = true)
    (hzero : x.isZero = false) {num den : Nat} (hden : 0 < den)
    (h : (num / den : ℚ) = (shortest tie x).value) (negative : Bool) :
    Binary64.ofRatio negative num den = .ofMagnitudeBits negative x.magnitudeBits :=
  ofRatio_of_holds hfinite hzero hden (h ▸ shortest_holds tie hfinite hzero) negative

end Decimal

end Logbook
