import Logbook.Json.Reader
import Logbook.Severity
import Mathlib

/-!
# Letters in either case

The letters of ASCII come in two cases, and what is read without regard to case reads both alike: a
hexadecimal digit has one value (`hexValue?_toLower`), and the upper-case image of a text of letters
is that of its small letters (`upperCase_of_isAlpha`). So a level name in any letter case stands for
its severity (`Severity.ofName_of_toLower`).
-/

set_option autoImplicit false
set_option relaxedAutoImplicit false

namespace Logbook.Text

variable {c : Char}

theorem exists_of_isUpper (h : c.isUpper = true) : ∃ n < 26, c = Char.ofNat (65 + n) := by
  have hbounds : 65 ≤ c.toNat ∧ c.toNat ≤ 90 := by
    simpa [Char.isUpper, UInt32.le_iff_toNat_le] using h
  refine ⟨c.toNat - 65, by omega, ?_⟩
  rw [Nat.add_sub_cancel' hbounds.1, Char.ofNat_toNat]

theorem exists_of_isLower (h : c.isLower = true) : ∃ n < 26, c = Char.ofNat (97 + n) := by
  have hbounds : 97 ≤ c.toNat ∧ c.toNat ≤ 122 := by
    simpa [Char.isLower, UInt32.le_iff_toNat_le] using h
  refine ⟨c.toNat - 97, by omega, ?_⟩
  rw [Nat.add_sub_cancel' hbounds.1, Char.ofNat_toNat]

/-! ### Hexadecimal digits -/

theorem hexValue?_capital : ∀ n < 26,
    Json.hexValue? (Char.ofNat (65 + n)).toLower = Json.hexValue? (Char.ofNat (65 + n)) := by
  decide

/-- A hexadecimal digit has one value in either letter case. -/
theorem hexValue?_toLower (c : Char) : Json.hexValue? c.toLower = Json.hexValue? c := by
  by_cases hupper : c.isUpper = true
  · obtain ⟨n, hn, rfl⟩ := exists_of_isUpper hupper
    exact hexValue?_capital n hn
  · rw [Char.toLower_eq_of_not_isUpper hupper]

/-! ### Upper case -/

theorem upperChar_capital : ∀ n < 26,
    upperChar (Char.ofNat (65 + n)) = [(Char.ofNat (65 + n)).toUpper] := by
  decide +kernel

theorem upperChar_small : ∀ n < 26,
    upperChar (Char.ofNat (97 + n)) = [(Char.ofNat (97 + n)).toUpper] := by
  decide +kernel

/-- The upper-case image of a letter is its capital. -/
theorem upperChar_of_isAlpha (h : c.isAlpha = true) : upperChar c = [c.toUpper] := by
  rcases (Bool.or_eq_true _ _).mp h with hupper | hlower
  · obtain ⟨n, hn, rfl⟩ := exists_of_isUpper hupper
    exact upperChar_capital n hn
  · obtain ⟨n, hn, rfl⟩ := exists_of_isLower hlower
    exact upperChar_small n hn

/-- The upper-case image of letters is that of their small letters. -/
theorem upperCase_of_isAlpha {cs : List Char} (h : ∀ c ∈ cs.map Char.toLower, c.isAlpha = true) :
    upperCase cs = (cs.map Char.toLower).map Char.toUpper := by
  induction cs with
  | nil => rfl
  | cons c cs ih =>
    rw [List.map_cons, List.forall_mem_cons, Char.isAlpha_toLower_eq_isAlpha] at h
    rw [upperCase_cons, upperChar_of_isAlpha h.1, ih h.2, List.map_cons, List.map_cons,
      Char.toUpper_toLower_eq_toUpper, List.singleton_append]

end Logbook.Text

namespace Logbook.Severity

theorem isAlpha_name : ∀ s : Severity, ∀ c ∈ s.name.toList, c.isAlpha = true := by
  intro s
  cases s <;> simp [name, text]

theorem toUpper_name (s : Severity) : s.name.toList.map Char.toUpper = s.fullName.toList := by
  cases s <;> rfl

theorem name_injective : Function.Injective name := by
  intro s t h
  have hname := ofName_name s
  rw [h, ofName_name] at hname
  exact (Except.ok.inj hname).symm

/-- A severity's name in any letter case stands for it. -/
theorem ofName_of_toLower {s : Severity} {name : String}
    (h : name.toList.map Char.toLower = s.name.toList) : ofName name = .ok s := by
  have hupper : Text.upperCase name.toList = s.fullName.toList := by
    rw [Text.upperCase_of_isAlpha (h ▸ isAlpha_name s), h, toUpper_name]
  rw [ofName, hupper]
  cases s <;> rfl

end Logbook.Severity
