import Logbook.Proofs.Record.Pairs
import Logbook.Proofs.Record.Structured

/-!
# Two forms of one record

A console line and a structured record of one event are made by two writers, and the fields of a
span are kept for them in two forms: as a text that grows, and as a map. They agree (`Agree`) if
under every name the value shown last in the text is the one in the map. A new span has both forms
in agreement, and recording on it keeps them so (`agree_ofFields`, `Agree.record`).

Where they agree for all spans around an event, its line and its record agree as well
(`saysSame_record`): what a reader of pairs finds last under a name is in the record, and whatever
is in the record but its own keys is found on the line.
-/

set_option autoImplicit false
set_option relaxedAutoImplicit false

namespace Logbook

/-- A value as plain text: a string stands for itself, every other value for its JSON. -/
def Json.Value.plainText : Json.Value → String
  | .string s => s
  | v => v.text

/-! ### Fields -/

namespace Field

/-- A field that a line and a record show alike: it is no float, its name is read up to its end,
and no value that a record adds of its own accord comes behind it. -/
structure Clear (f : Field) : Prop where
  noFloat : f.NoFloat
  name : ∀ c ∈ f.name.toList, c ≠ ' ' ∧ c ≠ '='
  early : f.name ∉ Structured.lateKeys

/-- A field whose name a span keeps as it is in both forms: there a message is no message, and a
name may need escapes or have marks. -/
structure ClearOnSpan (f : Field) : Prop extends Clear f where
  noMessage : f.isMessage = false
  plainName : f.PlainName
  noLog : f.name.startsWith "log." = false
  noRaw : f.name.startsWith "r#" = false

/-- A field that has one value in both forms of a span. Bytes have two. -/
structure Uniform (f : Field) : Prop extends ClearOnSpan f where
  noBytes : ∀ b, f.value ≠ some (.bytes b)

variable {f : Field}

theorem Clear.plainText_inEvent (h : f.Clear) {v : FieldValue} (hv : f.value = some v) :
    v.inEvent.plainText = v.text := by
  cases v with
  | str s => rfl
  | bool b => cases b <;> rfl
  | integer n => rfl
  | float x => exact absurd hv (h.noFloat x)
  | bytes b => rfl
  | shown s => rfl

theorem Uniform.plainText_inSpan (h : f.Uniform) {v : FieldValue} (hv : f.value = some v) :
    v.inSpan.plainText = v.text := by
  cases v with
  | str s => rfl
  | bool b => cases b <;> rfl
  | integer n => rfl
  | float x => exact absurd hv (h.noFloat x)
  | bytes b => exact absurd hv (h.noBytes b)
  | shown s => rfl

/-- What a field adds to a span is what it shows. -/
theorem Uniform.shown?_eq (h : f.Uniform) :
    (SpanFields.pair? f).map (fun p ↦ (p.1, p.2.plainText)) = Console.shown? f := by
  rw [SpanFields.pair?_of_unmarked h.noLog h.noRaw, Console.shown?, h.noMessage, if_neg (by simp),
    Option.map_map]
  refine Option.map_congr fun v hv ↦ ?_
  rw [Function.comp_apply, h.plainText_inSpan hv]

variable {fields : List Field}

theorem shown_of_uniform (h : ∀ f ∈ fields, f.Uniform) :
    ((fields.filterMap SpanFields.pair?).map fun p ↦ (p.1, p.2.plainText)) =
      fields.filterMap Console.shown? := by
  rw [List.map_filterMap]
  exact List.filterMap_congr fun f hf ↦ (h f hf).shown?_eq

/-- What the fields of an event add to its record is what they show. -/
theorem shown_of_clear {e : Event} (h : ∀ f ∈ e.fields, f.Clear) :
    ((e.pairs.map fun p ↦ (p.1, p.2.inEvent)).map fun p ↦ (p.1, p.2.plainText)) =
      e.fields.filterMap Console.shown? := by
  rw [Event.pairs, List.map_filterMap, List.map_filterMap]
  refine List.filterMap_congr fun f hf ↦ ?_
  rw [Console.shown?]
  by_cases hmessage : f.isMessage = true
  · rw [if_pos hmessage, if_pos hmessage]
    rfl
  · rw [if_neg hmessage, if_neg hmessage, Option.map_map, Option.map_map]
    refine Option.map_congr fun v hv ↦ ?_
    rw [Function.comp_apply, Function.comp_apply, (h f hf).plainText_inEvent hv]

theorem fst_mem_of_shown? {p : String × String} (hp : p ∈ fields.filterMap Console.shown?) :
    ∃ f ∈ fields, p.1 = f.name := by
  obtain ⟨f, hf, hshown⟩ := List.mem_filterMap.mp hp
  rw [Console.shown?] at hshown
  split_ifs at hshown
  obtain ⟨v, -, rfl⟩ := Option.map_eq_some_iff.mp hshown
  exact ⟨f, hf, rfl⟩

end Field

/-! ### Spans -/

/-- The two forms of the fields of a span agree: the text reads as pairs of which the last under a
name is the value in the map. -/
structure Agree (text : String) (s : SpanFields) : Prop where
  reads : Console.Reads text (Console.readPairs text)
  exact : s.Exact
  plainNames : s.plainNames = true
  values : ∀ key, (Keyed.get? s key).map Json.Value.plainText =
    Keyed.last? (Console.readPairs text) key
  early : ∀ p ∈ Console.readPairs text, p.1 ∉ Structured.lateKeys

variable {fields : List Field} {text : String} {s : SpanFields}

theorem agree_ofFields (h : ∀ f ∈ fields, f.Uniform) :
    Agree (Console.pairsText fields) (SpanFields.ofFields fields) := by
  have hreads := Console.reads_pairsText fun f hf ↦ (h f hf).name
  refine ⟨?_, SpanFields.exact_ofFields fun f hf ↦ (h f hf).noFloat,
    SpanFields.plainNames_ofFields fun f hf ↦ (h f hf).plainName, fun key ↦ ?_, fun p hp ↦ ?_⟩
  · rw [hreads.eq_readPairs]
    exact hreads
  · rw [hreads.eq_readPairs, SpanFields.ofFields, Keyed.get?_putAllSorted, Keyed.get?_nil,
      Option.or_none, ← Field.shown_of_uniform h, Keyed.last?_map]
  · rw [hreads.eq_readPairs] at hp
    obtain ⟨f, hf, hname⟩ := Field.fst_mem_of_shown? hp
    exact hname ▸ (h f hf).early

/-- Recording adds the same to both forms. -/
theorem Agree.record (hagree : Agree text s) (h : ∀ f ∈ fields, f.Uniform) :
    Agree (Console.recordText text fields) (s.record fields) := by
  have hreads := Console.reads_recordText hagree.reads fun f hf ↦ (h f hf).name
  have hrecord : s.record fields = Keyed.putAllSorted s (fields.filterMap SpanFields.pair?) := by
    rw [hagree.exact.record_eq, if_pos hagree.plainNames]
  refine ⟨?_, hagree.exact.record fun f hf ↦ (h f hf).noFloat, ?_, fun key ↦ ?_, fun p hp ↦ ?_⟩
  · rw [hreads.eq_readPairs]
    exact hreads
  · rw [hrecord]
    exact SpanFields.plainNames_putAllSorted hagree.plainNames fun f hf ↦ (h f hf).plainName
  · rw [hreads.eq_readPairs, hrecord, Keyed.get?_putAllSorted, Keyed.last?_append,
      ← Field.shown_of_uniform h, Keyed.last?_map, ← hagree.values key, Option.map_or]
  · rw [hreads.eq_readPairs] at hp
    rcases List.mem_append.mp hp with hp | hp
    · exact hagree.early p hp
    · obtain ⟨f, hf, hname⟩ := Field.fst_mem_of_shown? hp
      exact hname ▸ (h f hf).early

/-- A span contributes to a record what its text shows. -/
theorem Agree.last?_readBack (h : Agree text s) (key : String) :
    (Keyed.last? s.readBack key).map Json.Value.plainText =
      Keyed.last? (Console.readPairs text) key := by
  rw [h.exact.readBack_eq, Keyed.last?_of_nodup h.exact.stored.ascending.nodup, h.values key]

/-! ### Records -/

/-- A line of pairs and a record say the same: what is shown last under a name is the record's value
under it, and all keys of the record but its own are shown. -/
structure SaysSame (line : String) (r : Json.Object) : Prop where
  shown : ∀ key value, Keyed.last? (Console.readPairs line) key = some value →
    (Keyed.get? r key).map Json.Value.plainText = some value
  recorded : ∀ key ∈ Keyed.keys r, key ∉ Structured.ownKeys →
    key ∈ (Console.readPairs line).map Prod.fst

variable {scope : List Span} {e : Event}

/-- What a reader finds on the line of an event. -/
theorem readPairs_tail (hscope : ∀ s ∈ scope, Agree s.text s.fields)
    (hevent : ∀ f ∈ e.fields, f.Clear) :
    Console.readPairs (Console.tail e (scope.map Span.text)) =
      (scope.map fun s ↦ Console.readPairs s.text).flatten ++ e.fields.filterMap Console.shown? := by
  refine (Console.reads_tail ?_ fun f hf ↦ (hevent f hf).name).eq_readPairs
  rw [List.forall₂_map_left_iff, List.forall₂_map_right_iff]
  exact List.forall₂_same.mpr fun s hs ↦ (hscope s hs).reads

/-- What the fields contribute to the record of an event is what its line shows. -/
theorem last?_fields (hscope : ∀ s ∈ scope, Agree s.text s.fields)
    (hevent : ∀ f ∈ e.fields, f.Clear) (key : String) :
    (Keyed.last? (((scope.map Span.fields).map SpanFields.readBack).flatten ++
      e.pairs.map fun p ↦ (p.1, p.2.inEvent)) key).map Json.Value.plainText =
        Keyed.last? (Console.readPairs (Console.tail e (scope.map Span.text))) key := by
  have hspans : (Keyed.last? ((scope.map Span.fields).map SpanFields.readBack).flatten key).map
      Json.Value.plainText =
        Keyed.last? (scope.map fun s ↦ Console.readPairs s.text).flatten key := by
    refine Keyed.last?_flatten_congr ?_ key
    rw [List.forall₂_map_left_iff, List.forall₂_map_left_iff, List.forall₂_map_right_iff]
    exact List.forall₂_same.mpr fun s hs ↦ (hscope s hs).last?_readBack
  rw [readPairs_tail hscope hevent, Keyed.last?_append, Keyed.last?_append, Option.map_or, hspans,
    ← Keyed.last?_map, Field.shown_of_clear hevent]

theorem early_of_readPairs (hscope : ∀ s ∈ scope, Agree s.text s.fields)
    (hevent : ∀ f ∈ e.fields, f.Clear) {p : String × String}
    (hp : p ∈ Console.readPairs (Console.tail e (scope.map Span.text))) :
    p.1 ∉ Structured.lateKeys := by
  rw [readPairs_tail hscope hevent] at hp
  rcases List.mem_append.mp hp with hp | hp
  · obtain ⟨ps, hps, hp⟩ := List.mem_flatten.mp hp
    obtain ⟨s, hs, rfl⟩ := List.mem_map.mp hps
    exact (hscope s hs).early p hp
  · obtain ⟨f, hf, hname⟩ := Field.fst_mem_of_shown? hp
    exact hname ▸ (hevent f hf).early

/-- If the two forms of all spans around an event agree, its line and its record say the same. -/
theorem saysSame_record (hscope : ∀ s ∈ scope, Agree s.text s.fields)
    (hevent : ∀ f ∈ e.fields, f.Clear) (capture : Bool) (now : Moment) :
    SaysSame (Console.tail e (scope.map Span.text))
      (Structured.record capture [] now e (scope.map Span.fields)) := by
  have hstored : ∀ s ∈ scope.map Span.fields, s.Stored := by
    intro s hs
    obtain ⟨span, hspan, rfl⟩ := List.mem_map.mp hs
    exact (hscope span hspan).exact.stored
  constructor
  · intro key value hvalue
    have hlate : key ∉ Structured.lateKeys := by
      obtain ⟨p, hp, rfl⟩ := Keyed.exists_of_last? hvalue
      exact early_of_readPairs hscope hevent hp
    rw [← last?_fields hscope hevent] at hvalue
    obtain ⟨v, hv, hplain⟩ := Option.map_eq_some_iff.mp hvalue
    rw [Structured.get?_record_fields hstored hlate List.not_mem_nil, hv, Option.some_or,
      Option.map_some, hplain]
  · intro key hkey hown
    by_contra hnone
    have hvalue : Keyed.get? (Structured.record capture [] now e (scope.map Span.fields)) key =
        none := by
      have hfields := last?_fields hscope hevent key
      rw [Keyed.last?_eq_none hnone, Option.map_eq_none_iff] at hfields
      rw [Structured.get?_record_fields hstored (Structured.notMem_lateKeys hown) List.not_mem_nil,
        hfields, Structured.last?_eq_none_of_keys (fun _ ↦ Structured.mem_ownKeys_of_leading) hown]
      rfl
    exact Keyed.get?_eq_none_iff.mp hvalue hkey

end Logbook
