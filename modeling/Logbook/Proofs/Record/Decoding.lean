import Logbook.Proofs.Record.Pairs
import Logbook.Proofs.Record.SpanWords

/-!
# Pairs decode uniquely

Under names that a reader of pairs can tell from what stands around them (`IsPairName`), fields are
read back from every text that shows them: from pairs with a space between them, from the text of a
span that was given them batch by batch, and from the end of a line (`decodes`). Two lists of such
fields with one text are therefore the same, name by name and value by value, as far as values
differ in their text.

A message is no pair. Fields of that name are not read back, because they are not shown
(`no_decoder_of_messages`).
-/

set_option autoImplicit false
set_option relaxedAutoImplicit false

namespace Logbook.Console

/-- A name that is not empty and holds no blank, equals sign or quote. -/
def IsPairName (name : String) : Prop :=
  name ≠ "" ∧ ∀ c ∈ name.toList, Text.isBlank c = false ∧ c ≠ '=' ∧ c ≠ '"'

-- the characters of the name are gone through, not all characters there are
instance (name : String) : Decidable (IsPairName name) :=
  @instDecidableAnd _ _ _ (List.decidableBAll _ name.toList)

/-- Names with values as fields. -/
def fieldsOf (named : List (String × FieldValue)) : List Field :=
  named.map fun p ↦ ⟨p.1, some p.2⟩

/-- Names with the texts of their values. -/
def textsOf (named : List (String × FieldValue)) : List (String × String) :=
  named.map fun p ↦ (p.1, p.2.text)

variable {fields : List Field} {named other : List (String × FieldValue)}

/-- In a name of a pair nothing ends it. -/
theorem IsPairName.apart {name : String} (h : IsPairName name) :
    ∀ c ∈ name.toList, c ≠ ' ' ∧ c ≠ '=' := by
  intro c hc
  obtain ⟨hblank, hequals, -⟩ := h.2 c hc
  refine ⟨?_, hequals⟩
  rintro rfl
  exact absurd (Text.isBlank_of_isWhitespace ' ' (by decide)) (by simp [hblank])

/-- Fields under such names can be told apart. -/
theorem apart_fieldsOf (hnames : ∀ p ∈ named, IsPairName p.1) :
    ∀ f ∈ fieldsOf named, ∀ c ∈ f.name.toList, c ≠ ' ' ∧ c ≠ '=' := by
  intro f hf
  obtain ⟨p, hp, rfl⟩ := List.mem_map.mp hf
  exact (hnames p hp).apart

/-- Every field that is not named like a message is shown. -/
theorem filterMap_shown?_fieldsOf (hmessage : ∀ p ∈ named, p.1 ≠ Field.messageName) :
    (fieldsOf named).filterMap shown? = textsOf named := by
  rw [fieldsOf, textsOf, List.filterMap_map, ← List.filterMap_eq_map]
  refine List.filterMap_congr fun p hp ↦ ?_
  have hother : (Field.mk p.1 (some p.2)).isMessage = false := by
    rw [Field.isMessage, beq_eq_false_iff_ne]
    exact hmessage p hp
  rw [Function.comp_apply, shown?, hother]
  rfl

/-- The text of a span reads as what was shown of its batches. -/
theorem reads_spanText {batches : List (List Field)}
    (h : ∀ f ∈ batches.flatten, ∀ c ∈ f.name.toList, c ≠ ' ' ∧ c ≠ '=') :
    Reads (spanText batches) (batches.flatten.filterMap shown?) := by
  induction batches using List.reverseRecOn with
  | nil => exact Reads.empty
  | append_singleton batches fields ih =>
    rw [List.flatten_append, List.flatten_singleton, List.forall_mem_append] at h
    rw [spanText_concat, List.flatten_append, List.flatten_singleton, List.filterMap_append]
    exact reads_recordText (ih h.1) h.2

/-- The pairs of an event, each behind a space, read as what is shown of its fields. -/
theorem reads_join_pairs (h : ∀ f ∈ fields, ∀ c ∈ f.name.toList, c ≠ ' ' ∧ c ≠ '=') :
    Reads (String.join ((pairs fields).map (" " ++ ·))) (fields.filterMap shown?) := by
  have hread := (Reads.join (forall₂_pairs h)).1
  rwa [← List.flatMap_def, List.flatMap_singleton'] at hread

/-- Names and texts of values are read back from the pairs with a space between them, from the text
of a span that was given the fields in batches, and from pairs that each stand behind a space. No
other list of names and texts has the same pairs. -/
theorem decodes (hnames : ∀ p ∈ named, IsPairName p.1)
    (hmessage : ∀ p ∈ named, p.1 ≠ Field.messageName) :
    readPairs (pairsText (fieldsOf named)) = textsOf named ∧
      readPairs (String.join ((pairs (fieldsOf named)).map (" " ++ ·))) = textsOf named ∧
      (∀ batches, batches.flatten = fieldsOf named →
        readPairs (spanText batches) = textsOf named) ∧
      ∀ other, (∀ p ∈ other, IsPairName p.1) → (∀ p ∈ other, p.1 ≠ Field.messageName) →
        pairsText (fieldsOf other) = pairsText (fieldsOf named) →
          textsOf other = textsOf named := by
  have happart := apart_fieldsOf hnames
  have hshown := filterMap_shown?_fieldsOf hmessage
  have hread : readPairs (pairsText (fieldsOf named)) = textsOf named := by
    rw [(reads_pairsText happart).eq_readPairs, hshown]
  refine ⟨hread, ?_, fun batches hbatches ↦ ?_, fun other hnames' hmessage' hsame ↦ ?_⟩
  · rw [(reads_join_pairs happart).eq_readPairs, hshown]
  · rw [← hbatches] at happart
    rw [(reads_spanText happart).eq_readPairs, hbatches, hshown]
  · rw [← hread, ← hsame, (reads_pairsText (apart_fieldsOf hnames')).eq_readPairs,
      filterMap_shown?_fieldsOf hmessage']

/-- Values that look like pairs, like quoted text, or like nothing. -/
def trickyFields : List (String × FieldValue) :=
  [("a", .str "b=c d=e"), ("b", .str ""), ("c", .str "\"x\\\""), ("d", .str "\\n\n\t\x00"),
    ("e", .str " "), ("a", .str "=\""), ("f", .bytes [0x61, 0x3D])]

/-- They are read back. -/
theorem decodes_tricky :
    readPairs (pairsText (fieldsOf trickyFields)) =
      [("a", "b=c d=e"), ("b", ""), ("c", "\"x\\\""), ("d", "\\n\n\t\x00"), ("e", " "),
        ("a", "=\""), ("f", "[61 3d]")] := by
  have hnames : ∀ p ∈ trickyFields, IsPairName p.1 := by
    decide
  exact (decodes hnames (by decide)).1.trans (by decide +kernel)

/-- No decoder recovers fields that are named like a message, although nothing is wrong with their
names: whatever their values are, they show no pair. -/
theorem no_decoder_of_messages :
    ¬∃ decode : String → List (String × String), ∀ named, (∀ p ∈ named, IsPairName p.1) →
      decode (pairsText (fieldsOf named)) = textsOf named := by
  rintro ⟨decode, hdecode⟩
  have hfirst := hdecode [("message", .str "a")] (by decide)
  have hsecond := hdecode [("message", .str "b")] (by decide)
  have hsame : pairsText (fieldsOf [("message", .str "a")]) =
      pairsText (fieldsOf [("message", .str "b")]) := rfl
  rw [hsame, hsecond] at hfirst
  exact absurd hfirst (by decide)

end Logbook.Console
