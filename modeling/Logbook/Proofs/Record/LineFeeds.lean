import Logbook.Proofs.Decimal.Digits
import Logbook.Proofs.Record.SpanWords

/-!
# Line feeds in console records

A value of a pair never holds a line feed: where the text of the value does, it is put between
quotes, and there a line feed is an escape (`lineFeeds_valueText`). So pairs under names without
line feeds, and all words made of them, stand on one line (`lineFeeds_of_mem_words`), and so do the
time and the label.

The message and the name of the source file are shown as they are. They are the only parts of a line
that can bring line feeds (`lineFeeds_line`).
-/

set_option autoImplicit false
set_option relaxedAutoImplicit false

namespace Logbook

namespace Text

/-- How many line feeds a text holds. -/
def lineFeeds (text : String) : Nat :=
  text.toList.count '\n'

theorem lineFeeds_append (first second : String) :
    lineFeeds (first ++ second) = lineFeeds first + lineFeeds second := by
  rw [lineFeeds, String.toList_append, List.count_append]
  rfl

theorem lineFeeds_eq_zero_iff {text : String} : lineFeeds text = 0 ↔ '\n' ∉ text.toList :=
  List.count_eq_zero

theorem lineFeeds_join {texts : List String} (h : ∀ text ∈ texts, lineFeeds text = 0) :
    lineFeeds (String.join texts) = 0 := by
  induction texts with
  | nil => rfl
  | cons text rest ih =>
    rw [List.forall_mem_cons] at h
    rw [String.join_cons, lineFeeds_append, h.1, ih h.2]

/-! ### Quoted text -/

theorem digitChar_ne_lineFeed : ∀ n < 16, Nat.digitChar n ≠ '\n' := by
  decide

theorem lineFeed_not_mem_toDigits (n : Nat) : '\n' ∉ Nat.toDigits 16 n := by
  induction n using Nat.strongRecOn with
  | _ n ih =>
    rw [Nat.toDigits_eq_if (by decide)]
    split_ifs with hsmall
    · rw [List.mem_singleton]
      exact (digitChar_ne_lineFeed n hsmall).symm
    · rw [List.mem_append, List.mem_singleton, not_or]
      have hlast : n % 16 < 16 := Nat.mod_lt n (by decide)
      exact ⟨ih (n / 16) (by omega), (digitChar_ne_lineFeed _ hlast).symm⟩

/-- Between quotes, no character is written with a line feed, and a line feed is not either. -/
theorem lineFeed_not_mem_quoteChar (c : Char) : '\n' ∉ quoteChar c := by
  unfold quoteChar
  split_ifs with hquote hbackslash hfeed hreturn htab hnull hvisible
  any_goals decide
  · rw [List.mem_singleton]
    exact Ne.symm hfeed
  · simp [codePointEscape, lineFeed_not_mem_toDigits]

theorem lineFeeds_quoted (s : String) : lineFeeds (quoted s) = 0 := by
  rw [lineFeeds_eq_zero_iff, quoted, String.toList_ofList]
  simp [quotedChars, lineFeed_not_mem_quoteChar]

end Text

namespace Console

open Text (lineFeeds lineFeeds_append lineFeeds_eq_zero_iff)

variable {fields : List Field} {batches : List (List Field)} {name word : String}

/-! ### Pairs -/

/-- A value that holds a line feed is quoted. -/
theorem lineFeeds_valueText (value : String) : lineFeeds (valueText value) = 0 := by
  rw [valueText]
  by_cases hneeds : needsQuotes value = true
  · rw [if_pos hneeds]
    exact Text.lineFeeds_quoted value
  · rw [if_neg hneeds, lineFeeds_eq_zero_iff]
    intro hfeed
    have hblank : Text.isBlank '\n' = true := Text.isBlank_of_isWhitespace '\n' (by decide)
    refine hneeds (Bool.or_eq_true_iff.mpr (.inr (List.any_eq_true.mpr ⟨'\n', hfeed, ?_⟩)))
    rw [hblank]
    rfl

theorem lineFeeds_pair (hname : lineFeeds name = 0) (value : FieldValue) :
    lineFeeds (pair name value) = 0 := by
  have hequals : lineFeeds "=" = 0 := by decide
  rw [pair, lineFeeds_append, lineFeeds_append, hname, hequals, lineFeeds_valueText]

theorem lineFeeds_of_mem_pairs (hnames : ∀ f ∈ fields, lineFeeds f.name = 0)
    (hword : word ∈ pairs fields) : lineFeeds word = 0 := by
  obtain ⟨f, hf, hpair⟩ := List.mem_filterMap.mp hword
  split_ifs at hpair
  obtain ⟨value, -, rfl⟩ := Option.map_eq_some_iff.mp hpair
  exact lineFeeds_pair (hnames f hf) value

/-- The words of a span stand on one line if the names do. -/
theorem lineFeeds_of_mem_words (hnames : ∀ f ∈ batches.flatten, lineFeeds f.name = 0)
    (hword : word ∈ words batches) : lineFeeds word = 0 := by
  by_cases hempty : word = ""
  · rw [hempty]
    rfl
  · have hpair : word ∈ pairs batches.flatten := by
      rw [← filter_words, List.mem_filter]
      exact ⟨hword, by simpa using hempty⟩
    exact lineFeeds_of_mem_pairs hnames hpair

/-! ### Lines -/

theorem lineFeeds_padded (width n : Nat) : lineFeeds (padded width n) = 0 := by
  rw [lineFeeds_eq_zero_iff]
  intro hfeed
  exact absurd (isDigit_of_mem_padded hfeed) (by decide)

theorem lineFeeds_clock (clock : TimeOfDay) : lineFeeds clock.text = 0 := by
  have hcolon : lineFeeds ":" = 0 := by decide
  rw [TimeOfDay.text]
  simp only [lineFeeds_append, lineFeeds_padded, hcolon, Nat.zero_add]
  split_ifs <;> decide

theorem lineFeeds_label (color : Bool) (s : Severity) : lineFeeds (label color s) = 0 := by
  cases color <;> cases s <;> decide

/-- Of the parts of a line up to its end, only the call site and the message can hold line feeds, if
the names of the fields do not. -/
theorem lineFeeds_line {e : Event} {histories : List (List (List Field))} (color capture : Bool)
    (clock : TimeOfDay)
    (hspans : ∀ batches ∈ histories, ∀ f ∈ batches.flatten, lineFeeds f.name = 0)
    (hfields : ∀ f ∈ e.fields, lineFeeds f.name = 0) :
    lineFeeds (clock.text ++ title color capture e ++ tail e (histories.map spanText)) =
      lineFeeds (siteText capture e) + lineFeeds (messageText e) := by
  have hspace : lineFeeds " " = 0 := by decide
  have htail : lineFeeds (tail e (histories.map spanText)) = 0 := by
    rw [tail_eq]
    refine Text.lineFeeds_join fun text htext ↦ ?_
    obtain ⟨word, hword, rfl⟩ := List.mem_map.mp htext
    rw [lineFeeds_append, hspace, Nat.zero_add]
    rcases List.mem_append.mp hword with hword | hword
    · obtain ⟨batches, hbatches, hword⟩ := List.mem_flatMap.mp hword
      exact lineFeeds_of_mem_words (hspans batches hbatches) hword
    · exact lineFeeds_of_mem_pairs hfields hword
  rw [title_eq]
  simp only [lineFeeds_append, lineFeeds_clock, lineFeeds_label, hspace, htail, Nat.zero_add,
    Nat.add_zero]

end Console

end Logbook
