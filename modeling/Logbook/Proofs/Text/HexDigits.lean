import Logbook.Proofs.Text.LetterCase
import Logbook.Proofs.Text.Quoted

/-!
# Numbers in hexadecimal digits

The digits of a number, filled up with zeros to any width and in either letter case, are read as the
number (`exists_hexValues_of_toLower`).
-/

set_option autoImplicit false
set_option relaxedAutoImplicit false

namespace Logbook.Text

open Json (hexValue?)

/-- The digits of a natural are read as the natural. -/
theorem exists_hexValues (n : Nat) : ∃ values, (Nat.toDigits 16 n).mapM hexValue? = some values ∧
    values.foldl (fun n d ↦ 16 * n + d) 0 = n := by
  induction n using Nat.strongRecOn with
  | _ n ih =>
    rw [Nat.toDigits_eq_if (by decide)]
    split_ifs with hsmall
    · refine ⟨[n], ?_, by simp⟩
      simp [hexValue?_digitChar n hsmall]
    · obtain ⟨values, hvalues, hfold⟩ := ih (n / 16) (by omega)
      have hlast := hexValue?_digitChar (n % 16) (Nat.mod_lt n (by decide))
      refine ⟨values ++ [n % 16], ?_, ?_⟩
      · simp [List.mapM_append, hvalues, hlast]
      · rw [List.foldl_append, hfold, List.foldl_cons, List.foldl_nil, Nat.div_add_mod]

theorem mapM_hexValue?_zeros (k : Nat) :
    (List.replicate k '0').mapM hexValue? = some (List.replicate k 0) := by
  induction k with
  | zero => rfl
  | succ k ih =>
    rw [List.replicate_succ, List.mapM_cons, ih]
    rfl

theorem foldl_hexValues_zeros (k : Nat) :
    (List.replicate k 0).foldl (fun n d ↦ 16 * n + d) 0 = 0 := by
  induction k with
  | zero => rfl
  | succ k ih => simpa [List.replicate_succ] using ih

/-- Digits that are those of a natural, but for zeros in front and the letter case, are read as the
natural. -/
theorem exists_hexValues_of_toLower {n width : Nat} {ds : List Char}
    (h : ds.map Char.toLower = (Nat.toDigits 16 n).leftpad width '0') :
    ∃ values, ds.mapM hexValue? = some values ∧ values.foldl (fun n d ↦ 16 * n + d) 0 = n := by
  obtain ⟨values, hvalues, hfold⟩ := exists_hexValues n
  have hlower : ds.mapM hexValue? = (ds.map Char.toLower).mapM hexValue? := by
    rw [List.mapM_map]
    congr 1
    funext d
    exact (hexValue?_toLower d).symm
  refine ⟨List.replicate (width - (Nat.toDigits 16 n).length) 0 ++ values, ?_, ?_⟩
  · rw [hlower, h, List.leftpad, List.mapM_append, mapM_hexValue?_zeros, hvalues]
    rfl
  · rw [List.foldl_append, foldl_hexValues_zeros, hfold]

end Logbook.Text
