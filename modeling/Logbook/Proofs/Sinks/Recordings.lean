import Logbook.Proofs.Sinks.InsideSpans
import Logbook.Proofs.Sinks.RequestTag

/-!
# Recorded fields

Fields that are recorded on a span reach the records of events inside it: under every key, a record
has what the nearest span goes by that has something (`recordings_of_run`). As long as no name of a
span has to be escaped in JSON, a span goes by all it was given, so that the value given last to the
nearest span is the one that is shown; this holds for any number of recordings on any spans in any
order, and for one or two sinks of structured records.

A span of which a name has to be escaped goes by what it was given up to that point, and what is
recorded on it later never shows (`escaped_recording_is_lost`).
-/

set_option autoImplicit false
set_option relaxedAutoImplicit false

namespace Logbook.Session

open SpanTree SpanFields Structured

variable {t t₀ : FileTree} {settings : LoggingSettings} {color : Bool} {origin : Origin}
  {l₀ : Logger} {before : List (Moment × Step)} {step : Step} {e : Event} {around : Around}
  {ids : List SpanId} {gifts : List (SpanId × Field)}

/-- In spans that have all they were given, a name has the value given last to the nearest span that
was given one. -/
theorem findSome?_given (hplain : ∀ id ∈ ids, ∀ f ∈ given gifts id, f.Plain) {name : String}
    (hlog : name.startsWith "log." = false) :
    (ids.findSome? fun id ↦ Keyed.get? (ofFields (given gifts id)) name) =
      (nearest? name gifts ids).map FieldValue.inSpan := by
  induction ids with
  | nil => rfl
  | cons id rest ih =>
    rw [List.forall_mem_cons] at hplain
    rw [List.findSome?_cons, get?_ofFields hlog fun f hf ↦ (hplain.1 f hf).unmarked, nearest?,
      List.findSome?_cons, ih hplain.2]
    cases Field.lastValue? name (given gifts id) <;> rfl

/-- The record of an event inside spans that were given no floats, in any steps, has under every key
the last of what the event brings, or else what the nearest span goes by that goes by something, or
else the last of what a record begins with. A span goes by what it has learned: where no name has to
be escaped, this is everything it was given, and what it shows under a name is the value given last;
once one of its names has to be escaped, it is nothing more. (A name with a mark that its span drops
counts as the name without it.) -/
theorem recordings_of_run (h : Logger.ofSettings t settings color origin = (t₀, .ok l₀))
    (hsinks : 0 < l₀.structuredSinks) (hstep : step.event? 0 = some (e, around))
    (hadmits : settings.level ≤ e.severity)
    (hinside : ((start t₀ [l₀]).run before).Inside around ids)
    (hfloat : ∀ id ∈ ids, ∀ f ∈ given (Stage.initial.allGifts l₀.structuredSinks before) id,
      f.NoFloat) (now : Moment) :
    let s := (start t₀ [l₀]).run before
    let gifts := Stage.initial.allGifts l₀.structuredSinks before
    let learnedBy := fun id ↦ learned (Stage.initial.batches l₀.structuredSinks id before)
    let first := opening settings.debug (Logger.originFields settings origin) now e
    ∃ r, s.Records now step r ∧
      (∀ id ∈ ids, s.fieldsOf id = ofFields (learnedBy id)) ∧
      (∀ key, r.get? key = ((Keyed.last? (closing now e) key).or
        (ids.findSome? fun id ↦ Keyed.get? (ofFields (learnedBy id)) key)).or
          (Keyed.last? first key)) ∧
      (∀ id ∈ ids, (∀ f ∈ given gifts id, f.PlainName) → learnedBy id = given gifts id) ∧
      (∀ id ∈ ids, ∀ early late, before = early ++ late →
        (ofFields (learned (Stage.initial.batches l₀.structuredSinks id early))).plainNames = false →
          learnedBy id = learned (Stage.initial.batches l₀.structuredSinks id early)) ∧
      ((∀ id ∈ ids, ∀ f ∈ given gifts id, f.Plain) → ∀ name, name.startsWith "log." = false →
        r.get? name = ((Keyed.last? (closing now e) name).or
          ((nearest? name gifts ids).map FieldValue.inSpan)).or (Keyed.last? first name)) := by
  intro s gifts learnedBy first
  obtain ⟨ids', r, hinside', hrecords, -, hvalues⟩ := exists_record h before hstep hadmits now
  obtain rfl := hinside.unique hinside'
  have hexact : ∀ id ∈ ids, (ofFields (learnedBy id)).Exact := by
    intro id hid
    refine exact_ofFields fun f hf ↦ hfloat id hid f ?_
    rw [← flatten_batches]
    exact mem_of_mem_learned hf
  have hkept : ∀ id ∈ ids, s.fieldsOf id = ofFields (learnedBy id) :=
    fun id hid ↦ (wears_of_run h hsinks before id).2.eq (hexact id hid)
  have hall : ∀ key, r.get? key = ((Keyed.last? (closing now e) key).or
      (ids.findSome? fun id ↦ Keyed.get? (ofFields (learnedBy id)) key)).or
        (Keyed.last? first key) := by
    intro key
    have hspans : (ids.findSome? fun id ↦ Keyed.get? (s.fieldsOf id).readBack key) =
        ids.findSome? fun id ↦ Keyed.get? (ofFields (learnedBy id)) key := by
      refine findSome?_congr fun id hid ↦ ?_
      rw [hkept id hid, (hexact id hid).readBack_eq]
    rw [hvalues key, hspans]
  have hlearned : ∀ id ∈ ids, (∀ f ∈ given gifts id, f.PlainName) →
      learnedBy id = given gifts id := by
    intro id _ hplain
    rw [← flatten_batches] at hplain ⊢
    exact learned_eq_flatten hplain
  have hlost : ∀ id ∈ ids, ∀ early late, before = early ++ late →
      (ofFields (learned (Stage.initial.batches l₀.structuredSinks id early))).plainNames = false →
        learnedBy id = learned (Stage.initial.batches l₀.structuredSinks id early) := by
    intro id _ early late hbefore hescaped
    change learned (Stage.initial.batches l₀.structuredSinks id before) = _
    rw [hbefore, batches_append]
    exact learned_append_of_escaped hescaped _
  refine ⟨r, hrecords, hkept, hall, hlearned, hlost, fun hplain name hlog ↦ ?_⟩
  have hspans : (ids.findSome? fun id ↦ Keyed.get? (ofFields (learnedBy id)) name) =
      ids.findSome? fun id ↦ Keyed.get? (ofFields (given gifts id)) name := by
    refine findSome?_congr fun id hid ↦ ?_
    rw [hlearned id hid fun f hf ↦ (hplain id hid f hf).plainName]
  rw [hall name, hspans, findSome?_given hplain hlog]

/-- A span of two names, of which one is given a value when it is made and again twice later, and a
span inside it that has the other name. -/
def recordingSteps : List (Moment × Step) :=
  [(smallMoment, .span (some 0) "outer" [⟨"k", some (.bool true)⟩, ⟨"n", none⟩] .current),
    (smallMoment, .enter "outer"),
    (smallMoment, .record "outer" [⟨"k", some (.str "1")⟩]),
    (smallMoment, .span (some 0) "inner" [⟨"n", some (.str "in")⟩] .current),
    (smallMoment, .enter "inner"),
    (smallMoment, .record "outer" [⟨"n", some (.str "out")⟩, ⟨"k", some (.str "2")⟩])]

/-- Inside both spans, a record has the last value of the outer one and that of the inner one. -/
theorem recordings_of_run_nested :
    ∃ r, ((start smallTree [smallLogger]).run recordingSteps).Records smallMoment
        (.event (some 0) smallEvent .current) r ∧
      r.get? "k" = some (.string "2") ∧ r.get? "n" = some (.string "in") := by
  have hinside : ((start smallTree [smallLogger]).run recordingSteps).Inside .current [1, 0] :=
    ⟨_, rfl, .span rfl (.span rfl .nothing)⟩
  have hgiven : given (Stage.initial.allGifts 2 recordingSteps) 1 = [⟨"n", some (.str "in")⟩] ∧
      given (Stage.initial.allGifts 2 recordingSteps) 0 =
        [⟨"k", some (.bool true)⟩, ⟨"n", none⟩, ⟨"k", some (.str "1")⟩, ⟨"k", some (.str "2")⟩,
          ⟨"n", some (.str "out")⟩] := ⟨rfl, rfl⟩
  have hfloat : ∀ id ∈ [1, 0], ∀ f ∈ given (Stage.initial.allGifts 2 recordingSteps) id,
      f.NoFloat := by
    simp [hgiven, Field.NoFloat]
  obtain ⟨r, hrecords, -, hvalues, -⟩ :=
    recordings_of_run ofSettings_small (by decide)
      (show (Step.event (some 0) smallEvent .current).event? 0 = _ from rfl) (by decide) hinside
      hfloat smallMoment
  exact ⟨r, hrecords, (hvalues "k").trans (by rfl), (hvalues "n").trans (by rfl)⟩

/-- A span of a name that has to be escaped, which is given another value later. -/
def escapedSteps : List (Moment × Step) :=
  [(smallMoment, .span (some 0) "span" [⟨"a\"b", some (.str "old")⟩] .current),
    (smallMoment, .enter "span"),
    (smallMoment, .record "span" [⟨"a\"b", some (.str "new")⟩])]

/-- The value given last to the span around an event is not the one its record shows. -/
theorem escaped_recording_is_lost :
    nearest? "a\"b" (Stage.initial.allGifts 2 escapedSteps) [0] = some (.str "new") ∧
      ((start smallTree [smallLogger]).run escapedSteps).Inside .current [0] ∧
      (((start smallTree [smallLogger]).run
        (escapedSteps ++ [(smallMoment, .event (some 0) smallEvent .current)])).loggers.map
          fun l ↦ l.console.getLast?) =
        [some ("\x7b\"level\":true,\"time\":0,\"msg\":\"x\\ny\",\"hostname\":\"host\",\"pid\":0," ++
          "\"a\\\"b\":\"old\",\"stacktrace\":\"main\"\x7d\n")] :=
  ⟨rfl, ⟨_, rfl, .span rfl .nothing⟩, by decide +kernel⟩

end Logbook.Session
