import Logbook.Json.Fault
import Logbook.Proofs.Decimal.Digits
import Mathlib.Data.List.TakeWhile

/-!
# Places at the ends of messages

A message ends in a place if the words for a line and a column stand at its end, each with a decimal
numeral of 64 bits behind it (`EndsInPlace`). This is what the reader takes off a message
(`placeAtEnd?_eq_some_iff`): the fault made from it keeps the text before the place, and every other
message is kept as it is (`Fault.ofMessage_of_place`, `Fault.ofMessage_of_noPlace`).
-/

set_option autoImplicit false
set_option relaxedAutoImplicit false

namespace Logbook.Json

open Decimal (isDigit digitRun natOfDigits digitRun_append)

variable {n line column : Nat} {w cs before text rest : List Char} {message : String}

/-! ### Numerals and places -/

/-- The decimal numerals of a number that fits in 64 bits, with or without zeros in front. -/
structure Numeral (n : Nat) (ds : List Char) : Prop where
  ne_nil : ds ≠ []
  digits : ∀ d ∈ ds, isDigit d = true
  value : natOfDigits ds = n
  fits : n < UInt64.size

/-- A message is a text with a place behind it. -/
def EndsInPlace (message text : List Char) (line column : Nat) : Prop :=
  ∃ ds es, Numeral line ds ∧ Numeral column es ∧
    message = text ++ lineWords ++ ds ++ columnWords ++ es

/-! ### What is taken off -/

theorem expect?_eq_some_iff : expect? w cs = some rest ↔ cs = w ++ rest := by
  induction w generalizing cs with
  | nil => simp [expect?]
  | cons a w ih =>
    cases cs with
    | nil => simp [expect?]
    | cons c cs =>
      rw [expect?, List.cons_append, List.cons.injEq]
      split_ifs with hac
      · rw [ih]
        exact ⟨fun h ↦ ⟨hac.symm, h⟩, And.right⟩
      · exact ⟨fun h ↦ absurd h (by simp), fun h ↦ absurd h.1.symm hac⟩

/-- A number is taken with all the digits that the text ends in. -/
theorem numberAtEnd?_eq_some_iff : numberAtEnd? cs = some (n, before) ↔
    ∃ ds, Numeral n ds ∧ cs = ds.reverse ++ before ∧ ∀ c ∈ before.head?, isDigit c = false := by
  constructor
  · intro h
    have hrun : digitRun cs = (cs.takeWhile isDigit, cs.dropWhile isDigit) := rfl
    by_cases hnone : (cs.takeWhile isDigit).isEmpty = true ∨
        UInt64.size ≤ natOfDigits (cs.takeWhile isDigit).reverse
    · simp only [numberAtEnd?, hrun, if_pos hnone] at h
      exact absurd h (by simp)
    · simp only [numberAtEnd?, hrun, if_neg hnone, Option.some.injEq, Prod.mk.injEq] at h
      obtain ⟨hvalue, rfl⟩ := h
      obtain ⟨hne, hfits⟩ := not_or.mp hnone
      refine ⟨(cs.takeWhile isDigit).reverse, ⟨?_, ?_, hvalue, ?_⟩, ?_, ?_⟩
      · rwa [ne_eq, List.reverse_eq_nil_iff, ← List.isEmpty_iff]
      · exact fun d hd ↦ List.mem_takeWhile_imp (List.mem_reverse.mp hd)
      · exact hvalue ▸ Nat.not_le.mp hfits
      · rw [List.reverse_reverse, List.takeWhile_append_dropWhile]
      · intro c hc
        have hstop := List.head?_dropWhile_not isDigit cs
        rw [Option.mem_def.mp hc] at hstop
        simpa using hstop
  · rintro ⟨ds, hds, rfl, hstop⟩
    have hrun : digitRun (ds.reverse ++ before) = (ds.reverse, before) :=
      digitRun_append (fun d hd ↦ hds.digits d (List.mem_reverse.mp hd)) hstop
    have hkept : ¬(ds.reverse.isEmpty = true ∨ UInt64.size ≤ n) := by
      rw [List.isEmpty_iff, List.reverse_eq_nil_iff]
      exact not_or.mpr ⟨hds.ne_nil, Nat.not_le.mpr hds.fits⟩
    simp only [numberAtEnd?, hrun, List.reverse_reverse, hds.value, if_neg hkept]

/-- A place is taken off a message exactly if the message ends in it. -/
theorem placeAtEnd?_eq_some_iff : placeAtEnd? cs.reverse = some (line, column, before) ↔
    EndsInPlace cs before.reverse line column := by
  simp only [placeAtEnd?, Option.bind_eq_bind, Option.pure_def, Option.bind_eq_some_iff,
    Option.some.injEq, Prod.exists, Prod.mk.injEq, numberAtEnd?_eq_some_iff, expect?_eq_some_iff]
  constructor
  · rintro ⟨_, _, ⟨es, hes, hmessage, -⟩, _, rfl, _, _, ⟨ds, hds, rfl, -⟩, _, rfl, rfl, rfl, rfl⟩
    refine ⟨ds, es, hds, hes, ?_⟩
    rw [← List.reverse_inj, hmessage]
    simp only [List.reverse_append, List.reverse_reverse, List.append_assoc]
  · rintro ⟨ds, es, hds, hes, rfl⟩
    have hbehindLine : ∀ c ∈ (lineWords.reverse ++ before).head?, isDigit c = false := by
      intro c hc
      rw [← Option.some.inj hc]
      rfl
    have hbehindColumn : ∀ rest, ∀ c ∈ (columnWords.reverse ++ rest).head?, isDigit c = false := by
      intro rest c hc
      rw [← Option.some.inj hc]
      rfl
    refine ⟨column, _, ⟨es, hes, ?_, hbehindColumn _⟩, _, rfl, line, _, ⟨ds, hds, rfl, hbehindLine⟩,
      before, rfl, rfl, rfl, rfl⟩
    simp only [List.reverse_append, List.reverse_reverse, List.append_assoc]

/-! ### Faults made from messages -/

theorem Fault.ofMessage_of_place (h : EndsInPlace message.toList text line column) :
    ofMessage message = ⟨String.ofList text, line, column⟩ := by
  rw [← text.reverse_reverse] at h
  rw [ofMessage, placeAtEnd?_eq_some_iff.mpr h]
  simp

theorem Fault.ofMessage_of_noPlace
    (h : ∀ text line column, ¬EndsInPlace message.toList text line column) :
    ofMessage message = ⟨message, 0, 0⟩ := by
  have hnone : placeAtEnd? message.toList.reverse = none := by
    rw [Option.eq_none_iff_forall_ne_some]
    rintro ⟨line, column, before⟩ hplace
    exact h _ line column (placeAtEnd?_eq_some_iff.mp hplace)
  rw [ofMessage, hnone]

end Logbook.Json
