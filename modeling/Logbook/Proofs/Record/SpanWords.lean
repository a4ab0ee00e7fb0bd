import Logbook.Proofs.Record.Console
import Mathlib.Tactic

/-!
# The words of a console line

Behind its title a console line is a sequence of words, each behind a space: those of the spans and
then the pairs of the event (`tail_eq`). The words of a span come from the batches of fields it was
given (`words`). A batch adds the pairs it shows; a batch that shows nothing adds nothing to a span
that shows nothing yet, and otherwise a word without characters, which a reader sees as one space
too many.

The words that are not empty are the pairs of everything the span was given, in order
(`filter_words`), and where every batch after the first shows something these are all its words
(`words_eq_pairs`).
-/

set_option autoImplicit false
set_option relaxedAutoImplicit false

namespace Logbook.Console

variable {fields : List Field} {batches : List (List Field)} {word : String}

/-- The text of a span that was made with the first of these batches and recorded on with the
others. -/
def spanText (batches : List (List Field)) : String :=
  batches.foldl recordText ""

/-- The words of a span after one batch more. -/
def addWords (words : List String) (fields : List Field) : List String :=
  if words = [] then pairs fields
  else if pairs fields = [] then words ++ [""] else words ++ pairs fields

/-- The words of a span that was given these batches. -/
def words (batches : List (List Field)) : List String :=
  batches.foldl addWords []

/-! ### Pairs -/

theorem pair_ne_empty (name : String) (value : FieldValue) : pair name value ≠ "" := by
  intro h
  have hlength := congrArg String.length h
  simp [pair] at hlength

theorem ne_empty_of_mem_pairs (h : word ∈ pairs fields) : word ≠ "" := by
  obtain ⟨f, -, hf⟩ := List.mem_filterMap.mp h
  split_ifs at hf
  obtain ⟨value, -, rfl⟩ := Option.map_eq_some_iff.mp hf
  exact pair_ne_empty f.name value

theorem pairs_append (first second : List Field) :
    pairs (first ++ second) = pairs first ++ pairs second :=
  List.filterMap_append

/-! ### One batch more -/

theorem spanText_concat (batches : List (List Field)) (fields : List Field) :
    spanText (batches ++ [fields]) = recordText (spanText batches) fields :=
  List.foldl_concat ..

theorem words_concat (batches : List (List Field)) (fields : List Field) :
    words (batches ++ [fields]) = addWords (words batches) fields :=
  List.foldl_concat ..

/-- The first word of a span is not empty. -/
theorem head?_words_ne (batches : List (List Field)) : (words batches).head? ≠ some "" := by
  induction batches using List.reverseRecOn with
  | nil => simp [words]
  | append_singleton batches fields ih =>
    rw [words_concat, addWords]
    split_ifs with hwords hpairs
    · exact fun h ↦ ne_empty_of_mem_pairs (List.mem_of_head? h) rfl
    · rwa [List.head?_append_of_ne_nil _ hwords]
    · rwa [List.head?_append_of_ne_nil _ hwords]

/-- The words of a span make up an empty text only if there are none. -/
theorem intercalate_eq_empty_iff {words : List String} (hhead : words.head? ≠ some "") :
    " ".intercalate words = "" ↔ words = [] := by
  constructor
  · intro h
    cases words with
    | nil => rfl
    | cons word rest =>
      have hword : word ≠ "" := fun heq ↦ hhead (congrArg some heq)
      by_cases hrest : rest = []
      · rw [hrest, String.intercalate_singleton] at h
        exact absurd h hword
      · rw [String.intercalate_cons_of_ne_nil hrest] at h
        exact absurd (congrArg String.length h) (by simp)
  · rintro rfl
    rfl

/-- The text of a span is its words with a space between them. -/
theorem spanText_eq (batches : List (List Field)) :
    spanText batches = " ".intercalate (words batches) := by
  induction batches using List.reverseRecOn with
  | nil => rfl
  | append_singleton batches fields ih =>
    have hempty := intercalate_eq_empty_iff (head?_words_ne batches)
    rw [spanText_concat, words_concat, recordText, addWords, ih, pairsText]
    simp only [String.isEmpty_iff, hempty]
    split_ifs with hwords hpairs
    · rw [hwords]
      exact String.empty_append
    · rw [hpairs, String.intercalate_append_of_ne_nil hwords (by simp)]
      rfl
    · rw [String.intercalate_append_of_ne_nil hwords hpairs]

/-! ### What the words are -/

/-- The words that are not empty are the pairs of all that was given. -/
theorem filter_words (batches : List (List Field)) :
    ((words batches).filter fun word ↦ word ≠ "") = pairs batches.flatten := by
  have hpairs : ∀ fields, ((pairs fields).filter fun word ↦ word ≠ "") = pairs fields :=
    fun fields ↦ List.filter_eq_self.mpr fun word hword ↦ by
      simpa using ne_empty_of_mem_pairs hword
  induction batches using List.reverseRecOn with
  | nil => rfl
  | append_singleton batches fields ih =>
    rw [words_concat, addWords, List.flatten_append, List.flatten_singleton, pairs_append, ← ih]
    split_ifs with hwords hnone
    · rw [hwords, hpairs, List.filter_nil, List.nil_append]
    · rw [List.filter_append, hnone]
      rfl
    · rw [List.filter_append, hpairs]

/-- Where every recording shows something, the words are the pairs of all that was given. -/
theorem words_eq_pairs (h : ∀ fields ∈ batches.tail, pairs fields ≠ []) :
    words batches = pairs batches.flatten := by
  induction batches using List.reverseRecOn with
  | nil => rfl
  | append_singleton batches fields ih =>
    rw [words_concat, List.flatten_append, List.flatten_singleton, pairs_append]
    by_cases hfirst : batches = []
    · rw [hfirst]
      rfl
    · rw [List.tail_append_of_ne_nil hfirst, List.forall_mem_append] at h
      have hshown : pairs fields ≠ [] := h.2 fields (List.mem_singleton_self _)
      rw [ih h.1, addWords, if_neg hshown]
      split_ifs with hnone
      · rw [hnone, List.nil_append]
      · rfl

/-! ### The words of a line -/

theorem space_append_intercalate {words : List String} (h : words ≠ []) :
    " " ++ " ".intercalate words = String.join (words.map (" " ++ ·)) := by
  induction words with
  | nil => exact absurd rfl h
  | cons word rest ih =>
    rw [List.map_cons, String.join_cons]
    by_cases hrest : rest = []
    · rw [hrest, String.intercalate_singleton, List.map_nil, String.join_nil, String.append_empty]
    · rw [String.intercalate_cons_of_ne_nil hrest, ← ih hrest]
      simp only [String.append_assoc]

/-- The texts of spans on a line, those without text left out, are the words of the spans. -/
theorem join_spanTexts (histories : List (List (List Field))) :
    String.join (((histories.map spanText).filter (!·.isEmpty)).map (" " ++ ·)) =
      String.join ((histories.flatMap words).map (" " ++ ·)) := by
  induction histories with
  | nil => rfl
  | cons batches rest ih =>
    have hempty := intercalate_eq_empty_iff (head?_words_ne batches)
    rw [List.flatMap_cons, List.map_append, String.join_append, ← ih, List.map_cons,
      spanText_eq batches]
    by_cases hwords : words batches = []
    · rw [List.filter_cons_of_neg (by simp [hempty.mpr hwords]), hwords, List.map_nil,
        String.join_nil, String.empty_append]
    · have hshown : " ".intercalate (words batches) ≠ "" := fun h ↦ hwords (hempty.mp h)
      rw [List.filter_cons_of_pos (by simpa using hshown), List.map_cons, String.join_cons,
        space_append_intercalate hwords]

/-- Behind its title a line is the words of the spans and the pairs of the event, each behind a
space. -/
theorem tail_eq (e : Event) (histories : List (List (List Field))) :
    tail e (histories.map spanText) =
      String.join ((histories.flatMap words ++ pairs e.fields).map (" " ++ ·)) := by
  rw [tail, join_spanTexts, List.map_append, String.join_append]

end Logbook.Console
