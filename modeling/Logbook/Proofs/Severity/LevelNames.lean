import Logbook.Proofs.Text.Capitals

/-!
# Level names

A text is a level name if its characters spell the full name of a severity, each letter in either
case, with a dotless `ı` for `I` (`Spells`). These texts and no others are read, each as the
severity it spells (`ofName_by_letters`): the full names have no letters that anything else beyond
ASCII goes to in upper case (`unjoined_fullName`).
-/

set_option autoImplicit false
set_option relaxedAutoImplicit false

namespace Logbook.Severity

variable {name : String} {s : Severity}

/-- A text has as many characters as the full name of a severity, and each of them stands for the
letter in its place. -/
def Spells (name : String) (s : Severity) : Prop :=
  List.Forall₂ Text.StandsFor name.toList s.fullName.toList

theorem unjoined_fullName (s : Severity) : Text.Unjoined s.fullName.toList where
  capital := by cases s <;> simp [fullName, Char.isUpper]
  noLong := by cases s <;> simp [fullName]
  apart := by cases s <;> simp [fullName, Text.isLigature]

theorem fullName_injective : Function.Injective fullName := by
  intro s t h
  cases s <;> cases t <;> first | rfl | exact absurd h (by decide)

/-- The severity of a level name is the one with the name's upper-case image as its full name. -/
theorem ofName_eq_ok_iff : ofName name = .ok s ↔ Text.upperCase name.toList = s.fullName.toList := by
  have hall : s ∈ all := by
    cases s <;> simp [all]
  unfold ofName
  constructor
  · intro h
    split at h
    · next t hfind =>
      have hfound := List.find?_some hfind
      rw [← Except.ok.inj h]
      exact (eq_of_beq hfound).symm
    · exact absurd h (by simp)
  · intro h
    split
    · next t hfind =>
      have hfound := List.find?_some hfind
      have hname := eq_of_beq hfound
      rw [h, String.toList_inj] at hname
      rw [fullName_injective hname]
    · next hnone =>
      have hs := List.find?_eq_none.mp hnone s hall
      exact absurd (beq_iff_eq.mpr h.symm) hs

/-- A text is read as a severity exactly if it spells the severity's full name, letter by letter and
in either case, with a dotless `ı` standing for `I` too; every other text is refused with an error
that carries it unchanged. -/
theorem ofName_by_letters (name : String) :
    (∀ s, ofName name = .ok s ↔ Spells name s) ∧
    (ofName name = .error ⟨name⟩ ↔ ∀ s, ¬Spells name s) := by
  have hok : ∀ s, ofName name = .ok s ↔ Spells name s := fun s ↦
    ofName_eq_ok_iff.trans (Text.upperCase_eq_iff (unjoined_fullName s))
  refine ⟨hok, fun herror s hs ↦ ?_, fun hnone ↦ ?_⟩
  · rw [(hok s).mpr hs] at herror
    exact absurd herror (by simp)
  · cases hname : ofName name with
    | ok s => exact absurd ((hok s).mp hname) (hnone s)
    | error e => rw [ofName_eq_error hname]

/-- The dotless letter is read, and the letter with a dot above is not. -/
example : ofName "ınFO" = .ok .info ∧ ofName "İNFO" = .error ⟨"İNFO"⟩ := by
  decide +kernel

end Logbook.Severity
