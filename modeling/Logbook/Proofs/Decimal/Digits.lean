import Logbook.Clock
import Logbook.Decimal.Layout
import Logbook.Decimal.Reader
import Logbook.Text.CharClass
import Mathlib.Tactic

/-!
# Digits are read back

A run of decimal digits stands for a natural (`natOfDigits`), and the digits of a natural stand for
that natural (`natOfDigits_toDigits`), also behind zeros that fill them up to a width
(`natOfDigits_padded`). Digits are taken off the front of a text as a whole where no digit follows
(`digitRun_append`).

Runs of one length are ordered as texts the way their naturals are ordered
(`lt_of_natOfDigits_lt`): this is why timestamps can be compared as texts.
-/

set_option autoImplicit false
set_option relaxedAutoImplicit false

namespace Logbook.Decimal

/-! ### Digits -/

theorem isDigit_iff (c : Char) : isDigit c = true ↔ '0'.toNat ≤ c.toNat ∧ c.toNat ≤ '9'.toNat := by
  simp only [isDigit, Bool.and_eq_true, decide_eq_true_eq]
  exact Iff.rfl

theorem isDigit_of_isDigit {c : Char} (h : c.isDigit = true) : isDigit c = true := by
  simpa [isDigit, Char.isDigit, Char.le_def] using h

theorem isDigit_of_mem_toDigits {c : Char} {n : Nat} (h : c ∈ Nat.toDigits 10 n) :
    isDigit c = true :=
  isDigit_of_isDigit (Nat.isDigit_of_mem_toDigits (by decide) (by decide) h)

theorem digitValue_lt {c : Char} (h : isDigit c = true) : digitValue c < 10 := by
  have hc := (isDigit_iff c).mp h
  have hzero : '0'.toNat = 48 := rfl
  have hnine : '9'.toNat = 57 := rfl
  unfold digitValue
  omega

theorem isBlank_digit {c : Char} (h : isDigit c = true) : Text.isBlank c = false := by
  obtain ⟨hlow, hhigh⟩ := (isDigit_iff c).mp h
  have hzero : '0'.toNat = 48 := rfl
  have hnine : '9'.toNat = 57 := rfl
  rw [hzero] at hlow
  rw [hnine] at hhigh
  generalize hn : c.toNat = n at hlow hhigh
  have hc : c = Char.ofNat n := by rw [← hn, Char.ofNat_toNat]
  rw [hc]
  interval_cases n <;> decide

/-! ### Naturals -/

theorem natOfDigits_eq (ds : List Char) : natOfDigits ds = Nat.ofDigitChars 10 ds 0 := by
  rw [Nat.ofDigitChars_eq_foldl]
  rfl

/-- The digits of a natural stand for it. -/
@[simp] theorem natOfDigits_toDigits (n : Nat) : natOfDigits (Nat.toDigits 10 n) = n := by
  rw [natOfDigits_eq, Nat.ofDigitChars_ten_toDigits]

@[simp] theorem natOfDigits_nil : natOfDigits [] = 0 := rfl

theorem natOfDigits_cons (d : Char) (ds : List Char) :
    natOfDigits (d :: ds) = 10 ^ ds.length * digitValue d + natOfDigits ds := by
  rw [natOfDigits_eq, natOfDigits_eq, Nat.ofDigitChars_cons, Nat.ofDigitChars_eq_ofDigitChars_zero]
  simp [digitValue]

theorem natOfDigits_append (ds es : List Char) :
    natOfDigits (ds ++ es) = 10 ^ es.length * natOfDigits ds + natOfDigits es := by
  induction ds with
  | nil => simp
  | cons d ds ih =>
    rw [List.cons_append, natOfDigits_cons, natOfDigits_cons, ih, List.length_append, pow_add]
    ring

@[simp] theorem natOfDigits_replicate_zero (n : Nat) :
    natOfDigits (List.replicate n '0') = 0 := by
  rw [natOfDigits_eq, Nat.ofDigitChars_replicate_zero, Nat.mul_zero]

theorem natOfDigits_lt {ds : List Char} (h : ∀ d ∈ ds, isDigit d = true) :
    natOfDigits ds < 10 ^ ds.length := by
  induction ds with
  | nil => simp
  | cons d ds ih =>
    have hhead := digitValue_lt (h d List.mem_cons_self)
    have htail := ih fun c hc ↦ h c (List.mem_cons_of_mem d hc)
    rw [natOfDigits_cons, List.length_cons, pow_succ]
    calc 10 ^ ds.length * digitValue d + natOfDigits ds
        < 10 ^ ds.length * digitValue d + 10 ^ ds.length := by omega
      _ = 10 ^ ds.length * (digitValue d + 1) := by ring
      _ ≤ 10 ^ ds.length * 10 := Nat.mul_le_mul_left _ (by omega)

/-- Two runs of digits of one length are ordered as texts if their naturals are. -/
theorem lt_of_natOfDigits_lt {ds es : List Char} (hlength : ds.length = es.length)
    (hds : ∀ d ∈ ds, isDigit d = true) (hes : ∀ d ∈ es, isDigit d = true)
    (h : natOfDigits ds < natOfDigits es) : ds < es := by
  induction ds generalizing es with
  | nil =>
    cases es with
    | nil => simp at h
    | cons e es => simp at hlength
  | cons d ds ih =>
    cases es with
    | nil => simp at hlength
    | cons e es =>
      have hlen : ds.length = es.length := by simpa using hlength
      have hdigit := (isDigit_iff d).mp (hds d List.mem_cons_self)
      have hesBound := natOfDigits_lt fun c hc ↦ hes c (List.mem_cons_of_mem e hc)
      rw [natOfDigits_cons, natOfDigits_cons, hlen] at h
      rw [List.cons_lt_cons_iff]
      have hvalue : digitValue d ≤ digitValue e := by
        by_contra hgt
        have : 10 ^ es.length * (digitValue e + 1) ≤ 10 ^ es.length * digitValue d :=
          Nat.mul_le_mul_left _ (by omega)
        rw [Nat.mul_add] at this
        omega
      have hedigit := (isDigit_iff e).mp (hes e List.mem_cons_self)
      rcases Nat.lt_or_ge (digitValue d) (digitValue e) with hlt | hge
      · left
        show d.toNat < e.toNat
        unfold digitValue at hlt
        omega
      · right
        have hsame : d = e := by
          apply Char.toNat_inj.mp
          unfold digitValue at hvalue hge
          omega
        have hrest : natOfDigits ds < natOfDigits es := by
          rw [hsame] at h
          omega
        exact ⟨hsame, ih hlen (fun c hc ↦ hds c (List.mem_cons_of_mem d hc))
          (fun c hc ↦ hes c (List.mem_cons_of_mem e hc)) hrest⟩

/-! ### Digits at the front of a text -/

/-- A run of digits is taken as a whole if no digit follows it. -/
theorem digitRun_append {ds rest : List Char} (hds : ∀ d ∈ ds, isDigit d = true)
    (hrest : ∀ c ∈ rest.head?, isDigit c = false) : digitRun (ds ++ rest) = (ds, rest) := by
  have hstop : rest.takeWhile isDigit = [] ∧ rest.dropWhile isDigit = rest := by
    cases rest with
    | nil => exact ⟨rfl, rfl⟩
    | cons c rest =>
      have hc : isDigit c = false := hrest c rfl
      simp [hc]
  unfold digitRun
  rw [List.takeWhile_append_of_pos hds, List.dropWhile_append_of_pos hds, hstop.1, hstop.2,
    List.append_nil]

end Logbook.Decimal

namespace Logbook

open Decimal

/-! ### Digits of a width -/

variable {width n : Nat}

theorem toList_padded : (padded width n).toList =
    List.replicate (width - (Nat.toDigits 10 n).length) '0' ++ Nat.toDigits 10 n := by
  simp [padded]

theorem isDigit_of_mem_padded {c : Char} (h : c ∈ (padded width n).toList) : isDigit c = true := by
  rw [toList_padded, List.mem_append, List.mem_replicate] at h
  rcases h with ⟨-, rfl⟩ | h
  · decide
  · exact isDigit_of_mem_toDigits h

theorem natOfDigits_padded : natOfDigits (padded width n).toList = n := by
  rw [toList_padded, natOfDigits_append, natOfDigits_replicate_zero, Nat.mul_zero, Nat.zero_add,
    natOfDigits_toDigits]

theorem length_padded (hwidth : 0 < width) (h : n < 10 ^ width) :
    (padded width n).toList.length = width := by
  have hle := (Nat.length_toDigits_le_iff (b := 10) (by decide) hwidth).mpr h
  rw [toList_padded, List.length_append, List.length_replicate]
  omega

theorem padded_lt_padded {m : Nat} (hwidth : 0 < width) (hm : m < 10 ^ width) (h : n < m) :
    (padded width n).toList < (padded width m).toList := by
  refine lt_of_natOfDigits_lt ?_ (fun _ hd ↦ isDigit_of_mem_padded hd)
    (fun _ hd ↦ isDigit_of_mem_padded hd) (by rwa [natOfDigits_padded, natOfDigits_padded])
  rw [length_padded hwidth hm, length_padded hwidth (h.trans hm)]

end Logbook
