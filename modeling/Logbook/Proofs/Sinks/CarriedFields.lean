import Logbook.Proofs.Json.ExactFloats
import Logbook.Proofs.Sinks.InsideSpans

/-!
# Fields of spans and fields of events

A field can be attached to a span, so that every event inside it carries it, or to a single event.
The two take different ways to the record: the fields of a span are written as JSON text when the
span is made and read back for every event, those of an event are shown as they are.

Texts, truth values and integers, and everything that is known only by the text it shows, come out
the same on both ways (`same_on_span_and_event`). Floats do not (`float_on_span_and_event`): one
that is not finite is `null` on a span and a text on an event, and a finite one is shown on a span
as its text is read back, which is the float itself only if the text is short enough.
-/

set_option autoImplicit false
set_option relaxedAutoImplicit false

namespace Logbook

/-- A value that a span and an event show the same. -/
def FieldValue.isSimple : FieldValue → Bool
  | .str _ | .bool _ | .integer _ | .shown _ => true
  | .float _ | .bytes _ => false

theorem FieldValue.inSpan_eq_inEvent {v : FieldValue} (h : v.isSimple = true) :
    v.inSpan = v.inEvent := by
  cases v with
  | str s => rfl
  | bool b => rfl
  | integer n => rfl
  | shown s => rfl
  | float x => exact absurd h Bool.false_ne_true
  | bytes b => exact absurd h Bool.false_ne_true

/-- A field that a span and an event show the same: its value is simple, and its name is neither a
message's nor one that a record or the fields of a span treat in their own way. -/
structure Field.Portable (f : Field) : Prop where
  value : ∃ v, f.value = some v ∧ v.isSimple = true
  noMessage : f.name ≠ messageName
  early : f.name ∉ Structured.lateKeys
  noLog : f.name.startsWith "log." = false
  noRaw : f.name.startsWith "r#" = false

theorem Field.Portable.noFloat {f : Field} (h : f.Portable) : f.NoFloat := by
  intro x hx
  obtain ⟨v, hv, hsimple⟩ := h.value
  obtain rfl : FieldValue.float x = v := Option.some.inj (hx.symm.trans hv)
  exact absurd hsimple Bool.false_ne_true

/-- The value given last to the name of one of the fields is a value of one of the fields. -/
theorem Field.exists_lastValue? {fields : List Field} {f : Field} (hf : f ∈ fields)
    (hvalue : f.value.isSome = true) :
    ∃ g ∈ fields, g.value.isSome = true ∧ Field.lastValue? f.name fields = g.value := by
  have hne : (fields.filterMap fun g ↦ if g.name = f.name then g.value else none) ≠ [] := by
    obtain ⟨v, hv⟩ := Option.isSome_iff_exists.mp hvalue
    exact List.ne_nil_of_mem (List.mem_filterMap.mpr ⟨f, hf, by rw [if_pos rfl, hv]⟩)
  have hlast := List.getLast_mem hne
  obtain ⟨g, hg, hgv⟩ := List.mem_filterMap.mp hlast
  split_ifs at hgv
  refine ⟨g, hg, by rw [hgv]; rfl, ?_⟩
  rw [Field.lastValue?, List.getLast?_eq_some_getLast hne, hgv]

namespace Session

open SpanTree SpanFields Structured

variable {t t₀ : FileTree} {settings : LoggingSettings} {color : Bool} {origin : Origin}
  {l₀ : Logger} {before before' : List (Moment × Step)} {step : Step} {e : Event}
  {around around' : Around} {s : Session} {inner outer : List SpanId} {id : SpanId}
  {name : String} {fields : List Field}

/-- Looking up a name that no nearer span has ends at the nearest span that has it. -/
theorem findSome?_nearest {value : Json.Value}
    (hnear : ∀ i ∈ inner, name ∉ Keyed.keys (s.fieldsOf i))
    (hvalue : Keyed.get? (s.fieldsOf id).readBack name = some value) :
    ((inner ++ id :: outer).findSome? fun i ↦ Keyed.get? (s.fieldsOf i).readBack name) =
      some value := by
  have hinner : (inner.findSome? fun i ↦ Keyed.get? (s.fieldsOf i).readBack name) = none := by
    rw [List.findSome?_eq_none_iff]
    intro i hi
    rw [Keyed.get?_eq_none_iff, keys_readBack]
    exact hnear i hi
  rw [List.findSome?_append, hinner, Option.none_or, List.findSome?_cons, hvalue]

/-- An event that brings a value of its own under a name shows the last one, whatever the spans
around it have. -/
theorem exists_record_of_value (h : Logger.ofSettings t settings color origin = (t₀, .ok l₀))
    (before : List (Moment × Step)) (around : Around) (hadmits : settings.level ≤ e.severity)
    (now : Moment) :
    ∃ r, ((start t₀ [l₀]).run before).Records now (.event (some 0) e around) r ∧ r.keys.Nodup ∧
      ∀ name v, name ≠ Field.messageName → name ∉ lateKeys →
        Field.lastValue? name e.fields = some v → r.get? name = some v.inEvent := by
  obtain ⟨ids, r, -, hrecords, hnodup, hvalues⟩ :=
    exists_record h before (show (Step.event (some 0) e around).event? 0 = _ from rfl) hadmits now
  refine ⟨r, hrecords, hnodup, fun name v hname hlate hv ↦ ?_⟩
  rw [hvalues name, last?_closing hlate, last?_pairs hname, hv]
  rfl

/-! ### What comes out the same -/

/-- Fields of simple values come out the same on a span and on an event. For an event anywhere
inside a span that was made with them, where no nearer span has one of their names, the record has
under each of their names what the record of the event has that carries the fields itself, at any
other place: the value given last. The text the span keeps reads back as what it stands for. -/
theorem same_on_span_and_event (h : Logger.ofSettings t settings color origin = (t₀, .ok l₀))
    (hsinks : 0 < l₀.structuredSinks) (hfields : ∀ f ∈ fields, f.Portable)
    (hmade : MadeWith l₀.structuredSinks before fields id)
    (hinside : ((start t₀ [l₀]).run before).Inside around (inner ++ id :: outer))
    (hnear : ∀ i ∈ inner, ∀ f ∈ fields,
      f.name ∉ Keyed.keys (((start t₀ [l₀]).run before).fieldsOf i))
    (hstep : step.event? 0 = some (e, around)) (hadmits : settings.level ≤ e.severity)
    (before' : List (Moment × Step)) (around' : Around) (now now' : Moment) :
    let s := (start t₀ [l₀]).run before
    let s' := (start t₀ [l₀]).run before'
    let carrying : Event := { e with fields := fields ++ e.fields }
    ∃ r r', s.Records now step r ∧ s'.Records now' (.event (some 0) carrying around') r' ∧
      r.keys.Nodup ∧ r'.keys.Nodup ∧
      Json.read? (Json.Value.object (s.fieldsOf id)).text = some (.object (s.fieldsOf id)) ∧
      ∀ f ∈ fields, r.get? f.name = r'.get? f.name ∧
        r.get? f.name = (Field.lastValue? f.name carrying.fields).map FieldValue.inEvent ∧
        (r.get? f.name).isSome = true := by
  intro s s' carrying
  obtain ⟨ids, r, hinside', hrecords, hnodup, hvalues⟩ :=
    exists_record h before hstep hadmits now
  obtain rfl := hinside.unique hinside'
  obtain ⟨r', hrecords', hnodup', hvalues'⟩ :=
    exists_record_of_value h before' (e := carrying) around' hadmits now'
  have hexact : (ofFields fields).Exact := exact_ofFields fun f hf ↦ (hfields f hf).noFloat
  have hkept : s.fieldsOf id = ofFields fields := by
    have hwears := (wears_of_run h hsinks before id).2
    rw [hmade.learned_eq hsinks] at hwears
    exact hwears.eq hexact
  refine ⟨r, r', hrecords, hrecords', hnodup, hnodup', ?_, fun f hf ↦ ?_⟩
  · have hread := hexact.stored.read?_text
    rw [hexact.readBack_eq] at hread
    rw [hkept]
    exact hread
  have hf' := hfields f hf
  obtain ⟨v, hv, -⟩ := hf'.value
  obtain ⟨g, hg, hgvalue, hlast⟩ := Field.exists_lastValue? hf (by rw [hv]; rfl)
  obtain ⟨w, hw, hsimple⟩ := (hfields g hg).value
  have hspan : Keyed.get? (s.fieldsOf id).readBack f.name = some w.inEvent := by
    rw [hkept, hexact.readBack_eq, get?_ofFields hf'.noLog fun g hg ↦ (hfields g hg).noRaw, hlast,
      hw, Option.map_some, FieldValue.inSpan_eq_inEvent hsimple]
  obtain ⟨u, hu⟩ : ∃ u, (Field.lastValue? f.name e.fields).or (some w) = some u :=
    Option.isSome_iff_exists.mp (by simp)
  have hcarried : Field.lastValue? f.name carrying.fields = some u := by
    rw [Field.lastValue?_append, hlast, hw, hu]
  have hvalue : r.get? f.name = some u.inEvent := by
    have hown : ((Field.lastValue? f.name e.fields).map FieldValue.inEvent).or (some w.inEvent) =
        some u.inEvent := by
      rw [← Option.map_some, ← Option.map_or, hu, Option.map_some]
    rw [hvalues f.name, findSome?_nearest (fun i hi ↦ hnear i hi f hf) hspan,
      last?_closing hf'.early, last?_pairs hf'.noMessage, hown]
    rfl
  rw [hvalue, hvalues' f.name u hf'.noMessage hf'.early hcarried, hcarried]
  exact ⟨rfl, rfl, rfl⟩

/-- A field with a name and a value to escape, and one of the smallest integer. -/
def carriedFields : List Field :=
  [⟨"a\n", some (.str "\"\n")⟩, ⟨"n", some (.integer ⟨-0x8000000000000000, by decide, by decide⟩)⟩]

/-- A span with these fields and an empty one inside it, which is entered. -/
def carriedSteps : List (Moment × Step) :=
  [(smallMoment, .span (some 0) "outer" carriedFields .nothing),
    (smallMoment, .span (some 0) "inner" [] (.handle "outer")),
    (smallMoment, .enter "inner")]

theorem portable_carriedFields : ∀ f ∈ carriedFields, f.Portable := by
  intro f hf
  simp only [carriedFields, List.mem_cons, List.not_mem_nil, or_false] at hf
  rcases hf with rfl | rfl
  · exact ⟨⟨_, rfl, rfl⟩, by decide, by decide, by decide +kernel, by decide +kernel⟩
  · exact ⟨⟨_, rfl, rfl⟩, by decide, by decide, by decide +kernel, by decide +kernel⟩

theorem same_on_span_and_event_nested :
    ∃ r r', ((start smallTree [smallLogger]).run carriedSteps).Records smallMoment
        (.event (some 0) smallEvent .current) r ∧
      (start smallTree [smallLogger]).Records smallMoment (.event (some 0)
        { smallEvent with fields := carriedFields ++ smallEvent.fields } .current) r' ∧
      r.get? "a\n" = some (.string "\"\n") ∧ r.get? "a\n" = r'.get? "a\n" ∧
      r.get? "n" = r'.get? "n" := by
  have hmade : MadeWith 2 carriedSteps carriedFields 0 :=
    ⟨[], _, _, _, _, _, _, rfl, rfl, rfl⟩
  have hinside : ((start smallTree [smallLogger]).run carriedSteps).Inside .current
      ([1] ++ 0 :: []) := ⟨_, rfl, .span rfl (.span rfl .nothing)⟩
  obtain ⟨r, r', hr, hr', -, -, -, hsame⟩ :=
    same_on_span_and_event ofSettings_small (by decide) portable_carriedFields hmade hinside
      (by decide) (show (Step.event (some 0) smallEvent .current).event? 0 = _ from rfl) (by decide)
      [] .current smallMoment smallMoment
  rw [carriedFields, List.forall_mem_cons, List.forall_mem_singleton] at hsame
  obtain ⟨⟨hfirst, hvalue, -⟩, hsecond, -⟩ := hsame
  exact ⟨r, r', hr, hr', hvalue.trans (by rfl), hfirst, hsecond⟩

/-! ### Floats -/

/-- A finite float is a finite float however often its text is read back. -/
theorem exists_float_of_worn {x : Binary64} (hx : x.isFinite = true) {w : Json.Value}
    (h : Json.Worn (.number (.float x)) w) :
    ∃ y, y.isFinite = true ∧ w = .number (.float y) := by
  induction h with
  | fresh => exact ⟨x, hx, rfl⟩
  | again _ ih =>
    obtain ⟨y, hy, rfl⟩ := ih
    exact Json.Value.readBack_float hy

/-- A float that is not finite is shown by a name of its own. -/
theorem plainText_of_not_isFinite {x : Binary64} (h : x.isFinite = false) :
    Decimal.plainText x ∈ ["NaN", "inf", "-inf"] := by
  have hlarge : ¬x.magnitudeBits < Binary64.infinityBits := of_decide_eq_false h
  rw [Decimal.plainText]
  by_cases hnan : x.isNaN = true
  · rw [if_pos hnan]
    decide
  · have hinfinite : x.isInfinite = true := by
      have hle : ¬Binary64.infinityBits < x.magnitudeBits := by
        simpa [Binary64.isNaN] using hnan
      rw [Binary64.isInfinite, beq_iff_eq]
      omega
    rw [if_neg hnan, if_pos hinfinite]
    split_ifs <;> decide

/-- A span that was made with a float keeps it, read back any number of times. -/
theorem exists_worn_float (h : Logger.ofSettings t settings color origin = (t₀, .ok l₀))
    (hsinks : 0 < l₀.structuredSinks) {x : Binary64}
    (hmade : MadeWith l₀.structuredSinks before (fields ++ [⟨name, some (.float x)⟩]) id) :
    ∃ kept, Json.Worn (.ofFloat x) kept ∧
      Keyed.get? (((start t₀ [l₀]).run before).fieldsOf id) name = some kept := by
  have hwears := (wears_of_run h hsinks before id).2
  have hlast : Keyed.last? ([Field.mk name (some (.float x))].filterMap pair?) name =
      some (Json.Value.ofFloat x) := by
    simp [pair?, FieldValue.isShown, FieldValue.inSpan, Keyed.last?]
  have hget := hwears.get? name
  rw [hmade.learned_eq hsinks, ofFields_append, Keyed.get?_putAllSorted, hlast,
    Option.some_or] at hget
  generalize Keyed.get? _ name = kept? at hget ⊢
  cases hget with
  | some hworn => exact ⟨_, hworn, rfl⟩

/-- A float does not come out the same on a span and on an event. An event that carries it shows it
as it is, or by name if it is not finite. An event inside a span that was made with it shows what
its text reads as: `null` if it is not finite, and else a finite float, though not always the same
one. The two agree where the text of the float reads back as the float, as it does if its digits and
its exponent of ten are small. -/
theorem float_on_span_and_event (h : Logger.ofSettings t settings color origin = (t₀, .ok l₀))
    (hsinks : 0 < l₀.structuredSinks) (hname : name ≠ Field.messageName) (hlate : name ∉ lateKeys)
    (x : Binary64)
    (hmade : MadeWith l₀.structuredSinks before (fields ++ [⟨name, some (.float x)⟩]) id)
    (hinside : ((start t₀ [l₀]).run before).Inside around (inner ++ id :: outer))
    (hnear : ∀ i ∈ inner, name ∉ Keyed.keys (((start t₀ [l₀]).run before).fieldsOf i))
    (hstep : step.event? 0 = some (e, around)) (hadmits : settings.level ≤ e.severity)
    (hevent : ∀ f ∈ e.fields, f.name = name → f.value = none)
    (before' : List (Moment × Step)) (around' : Around) (now now' : Moment) :
    let s := (start t₀ [l₀]).run before
    let s' := (start t₀ [l₀]).run before'
    let carrying : Event := { e with fields := e.fields ++ [⟨name, some (.float x)⟩] }
    ∃ r r', s.Records now step r ∧ s'.Records now' (.event (some 0) carrying around') r' ∧
      (x.isFinite = false → r.get? name = some .null ∧
        ∃ text ∈ ["NaN", "inf", "-inf"], r'.get? name = some (.string text)) ∧
      (x.isFinite = true → (∃ y, y.isFinite = true ∧ r.get? name = some (.number (.float y))) ∧
        r'.get? name = some (.number (.float x))) ∧
      ((Json.Value.number (.float x)).readBack = .number (.float x) →
        r.get? name = r'.get? name) ∧
      (x.isFinite = true → Json.Number.IsBrief x → r.get? name = r'.get? name) := by
  intro s s' carrying
  obtain ⟨ids, r, hinside', hrecords, -, hvalues⟩ := exists_record h before hstep hadmits now
  obtain rfl := hinside.unique hinside'
  obtain ⟨r', hrecords', -, hvalues'⟩ :=
    exists_record_of_value h before' (e := carrying) around' hadmits now'
  have hcarried : r'.get? name = some (FieldValue.float x).inEvent := by
    refine hvalues' name _ hname hlate ?_
    rw [Field.lastValue?_append]
    simp [Field.lastValue?]
  obtain ⟨kept, hworn, hkept⟩ := exists_worn_float h hsinks hmade
  have hshown : r.get? name = some kept.readBack := by
    have hspan : Keyed.get? (s.fieldsOf id).readBack name = some kept.readBack := by
      rw [get?_readBack, hkept, Option.map_some]
    rw [hvalues name, findSome?_nearest hnear hspan, last?_closing hlate, last?_pairs hname,
      Field.lastValue?_eq_none hevent]
    rfl
  have hsame : (Json.Value.number (.float x)).readBack = .number (.float x) →
      r.get? name = r'.get? name := by
    intro hread
    have hfinite : x.isFinite = true := by
      by_contra hnot
      rw [Json.Value.readBack, Json.Number.readBack, if_neg hnot] at hread
      exact absurd hread (by simp)
    rw [Json.Value.ofFloat, Json.Value.ofFinite?, if_pos hfinite] at hworn
    rw [hshown, hcarried, FieldValue.inEvent, Json.Value.ofFinite?, if_pos hfinite,
      (Json.Worn.again hworn).eq hread]
    rfl
  refine ⟨r, r', hrecords, hrecords', fun hfinite ↦ ?_, fun hfinite ↦ ?_, hsame,
    fun hfinite hbrief ↦ hsame (Json.Value.readBack_of_isBrief hfinite hbrief)⟩
  · rw [Json.Value.ofFloat, Json.Value.ofFinite?, if_neg (by simp [hfinite])] at hworn
    rw [hshown, hcarried, FieldValue.inEvent, Json.Value.ofFinite?, if_neg (by simp [hfinite]),
      hworn.eq rfl]
    exact ⟨rfl, _, plainText_of_not_isFinite hfinite, rfl⟩
  · rw [Json.Value.ofFloat, Json.Value.ofFinite?, if_pos hfinite] at hworn
    obtain ⟨y, hy, hyx⟩ := exists_float_of_worn hfinite (.again hworn)
    rw [hshown, hcarried, FieldValue.inEvent, Json.Value.ofFinite?, if_pos hfinite, hyx]
    exact ⟨⟨y, hy, rfl⟩, rfl⟩

/-- A span that was made with a float, and is entered. -/
def floatSteps (x : Binary64) : List (Moment × Step) :=
  [(smallMoment, .span (some 0) "span" [⟨"k", some (.float x)⟩] .nothing),
    (smallMoment, .enter "span")]

theorem float_on_span_and_event_nan :
    ∃ r r', ((start smallTree [smallLogger]).run (floatSteps .nan)).Records smallMoment
        (.event (some 0) smallEvent .current) r ∧
      (start smallTree [smallLogger]).Records smallMoment (.event (some 0)
        { smallEvent with fields := smallEvent.fields ++ [⟨"k", some (.float .nan)⟩] } .current) r' ∧
      r.get? "k" = some .null ∧ r.get? "k" ≠ r'.get? "k" := by
  have hmade : MadeWith 2 (floatSteps .nan) ([] ++ [⟨"k", some (.float .nan)⟩]) 0 :=
    ⟨[], _, _, _, _, _, _, rfl, rfl, rfl⟩
  have hinside : ((start smallTree [smallLogger]).run (floatSteps .nan)).Inside .current
      ([] ++ 0 :: []) := ⟨_, rfl, .span rfl .nothing⟩
  obtain ⟨r, r', hr, hr', hnonfinite, -⟩ :=
    float_on_span_and_event ofSettings_small (by decide) (by decide) (by decide) .nan hmade hinside
      (by simp) (show (Step.event (some 0) smallEvent .current).event? 0 = _ from rfl) (by decide)
      (by decide) [] .current smallMoment smallMoment
  obtain ⟨hnull, text, -, htext⟩ := hnonfinite (by decide)
  refine ⟨r, r', hr, hr', hnull, ?_⟩
  rw [hnull, htext]
  simp

/-- The line that the small logger shows for the small event and a field `k`. -/
def carriedLine (value : String) : String :=
  "\x7b\"level\":true,\"time\":0,\"msg\":\"x\\ny\",\"hostname\":\"host\",\"pid\":0," ++
    "\"k\":" ++ value ++ ",\"stacktrace\":\"main\"\x7d\n"

/-- A float that is not a number is `null` on a span and a text on an event, and the largest float
below `2 ^ 53` is not the same number on both. -/
theorem floats_differ_on_span_and_event :
    let shown := fun (x : Binary64) ↦
      (((start smallTree [smallLogger]).run
        (floatSteps x ++ [(smallMoment, .event (some 0) smallEvent .current)])).loggers.map
          fun l ↦ l.console.getLast?,
        ((start smallTree [smallLogger]).run [(smallMoment, .event (some 0)
          { smallEvent with fields := smallEvent.fields ++ [⟨"k", some (.float x)⟩] }
          .current)]).loggers.map fun l ↦ l.console.getLast?)
    shown .nan = ([some (carriedLine "null")], [some (carriedLine "\"NaN\"")]) ∧
      shown (.ofNat 9007199254740991) = ([some (carriedLine "9007199254740990.0")],
        [some (carriedLine "9007199254740991.0")]) :=
  ⟨by decide +kernel, by decide +kernel⟩

end Session

end Logbook
