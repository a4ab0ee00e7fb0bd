import Logbook.Proofs.Sinks.Gifts
import Logbook.Proofs.Sinks.Lineage
import Logbook.Proofs.Sinks.Records

/-!
# The tag of a request

A structured record carries the identifier of the request it belongs to under a key of its own
(`Logger.requestKey`). An event that brings no such field gets the value from the spans around it:
it is the value given last to the nearest span that was ever given one (`requestTag_of_run`). Values
given to spans elsewhere do not matter, nor in which order spans were entered, left and let go.

The fields of a span are the fields it was given, the last of each name (`tracks_ofFields`); that
takes names that need no escape and values that are no floats, because recording reads the older
fields back from their text.
-/

set_option autoImplicit false
set_option relaxedAutoImplicit false

namespace Logbook

/-- A field that its span keeps as it is, under its own name. -/
structure Field.Plain (f : Field) : Prop where
  noFloat : f.NoFloat
  plainName : f.PlainName
  unmarked : f.name.startsWith "r#" = false

namespace Session

open SpanTree Structured

/-! ### Spans and what they were given -/

/-- A span has the fields it was given, however many structured sinks record them. -/
theorem tracks_ofFields {sinks : Nat} (hsinks : 0 < sinks) :
    Tracks sinks Field.Plain fun fields s ↦
      s.fields = SpanFields.ofFields fields ∧ ∀ f ∈ fields, f.Plain where
  made := fun _ _ hfields ↦ ⟨rfl, hfields⟩
  released := fun h ↦ h
  recorded := by
    rintro fields s ⟨hs, hfields⟩ more hmore
    constructor
    · have hexact := SpanFields.exact_ofFields fun f hf ↦ (hfields f hf).noFloat
      rw [Span.recorded, hs]
      dsimp only
      rw [hexact.foldl_record (fun f hf ↦ (hmore f hf).noFloat) hsinks,
        SpanFields.record_ofFields (fun f hf ↦ (hfields f hf).noFloat)
          (fun f hf ↦ (hfields f hf).plainName)]
    · intro f hf
      rcases List.mem_append.mp hf with hf | hf
      · exact hfields f hf
      · exact hmore f hf

/-- The value under a name that was given last to the nearest span that was given one. -/
def nearest? (name : String) (gifts : List (SpanId × Field)) (ids : List SpanId) :
    Option FieldValue :=
  ids.findSome? fun id ↦ Field.lastValue? name (given gifts id)

/-- Looking up a name in the fields of spans from the inside out finds the value given last to the
nearest span that was given one. -/
theorem findSome?_fields {gifts : List (SpanId × Field)} {spans : List Span}
    (h : Tells (fun fields s ↦ s.fields = SpanFields.ofFields fields ∧ ∀ f ∈ fields, f.Plain)
      gifts spans) {inside : Option SpanId} {ids : List SpanId} (hchain : Lineage spans inside ids)
    {name : String} (hlog : name.startsWith "log." = false) :
    ((ids.filterMap (spans[·]?)).map Span.fields).findSome? (fun s ↦ Keyed.get? s.readBack name) =
      (nearest? name gifts ids).map FieldValue.inSpan := by
  induction hchain with
  | nothing => rfl
  | @span id s rest made around ih =>
    obtain ⟨hs, hplain⟩ := h.span id s made
    have hexact := SpanFields.exact_ofFields fun f hf ↦ (hplain f hf).noFloat
    have hvalue : Keyed.get? s.fields.readBack name =
        (Field.lastValue? name (given gifts id)).map FieldValue.inSpan := by
      rw [hs, hexact.readBack_eq, SpanFields.get?_ofFields hlog fun f hf ↦ (hplain f hf).unmarked]
    rw [nearest?, List.filterMap_cons_some made, List.map_cons, List.findSome?_cons,
      List.findSome?_cons, hvalue]
    cases Field.lastValue? name (given gifts id) with
    | none => exact ih
    | some v => rfl

/-! ### Spans of requests -/

/-- One of the steps has made a span to tag a request. -/
def MadeByRequest (sinks : Nat) (steps : List (Moment × Step)) (id : SpanId) : Prop :=
  ∃ first now handle value rest,
    steps = first ++ (now, Step.request (some 0) handle value) :: rest ∧
      id = (Stage.initial.afterAll sinks first).spans.spans.length

theorem allGifts_append (sinks : Nat) (stage : Stage) (first rest : List (Moment × Step)) :
    stage.allGifts sinks (first ++ rest) =
      stage.allGifts sinks first ++ (stage.afterAll sinks first).allGifts sinks rest := by
  induction first generalizing stage with
  | nil => rfl
  | cons p first ih =>
    rw [List.cons_append, Stage.allGifts, Stage.allGifts, ih, List.append_assoc]
    rfl

theorem MadeByRequest.exists_gift {sinks : Nat} {steps : List (Moment × Step)} {id : SpanId}
    (h : MadeByRequest sinks steps id) :
    ∃ value, Logger.requestField value ∈ given (Stage.initial.allGifts sinks steps) id := by
  obtain ⟨first, now, handle, value, rest, rfl, rfl⟩ := h
  refine ⟨value, ?_⟩
  rw [allGifts_append, given_append, Stage.allGifts, given_append]
  apply List.mem_append_right
  apply List.mem_append_left
  have hself := given_self (Stage.initial.afterAll sinks first).spans.spans.length
    [Logger.requestField value]
  exact hself.symm ▸ List.mem_cons_self

theorem isSome_lastValue? {name : String} {fields : List Field} {f : Field} (hf : f ∈ fields)
    (hname : f.name = name) (hvalue : f.value.isSome = true) :
    (Field.lastValue? name fields).isSome = true := by
  obtain ⟨v, hv⟩ := Option.isSome_iff_exists.mp hvalue
  have hmem : v ∈ fields.filterMap fun f ↦ if f.name = name then f.value else none :=
    List.mem_filterMap.mpr ⟨f, hf, by rw [if_pos hname, hv]⟩
  rw [Field.lastValue?, List.getLast?_isSome]
  exact List.ne_nil_of_mem hmem

/-- A span that tags a request has an identifier for what is inside it. -/
theorem isSome_nearest? {sinks : Nat} {steps : List (Moment × Step)} {ids : List SpanId}
    {id : SpanId} (hid : id ∈ ids) (h : MadeByRequest sinks steps id) :
    (nearest? Logger.requestKey (Stage.initial.allGifts sinks steps) ids).isSome = true := by
  obtain ⟨value, hgift⟩ := h.exists_gift
  rw [nearest?, List.findSome?_isSome_iff]
  exact ⟨id, hid, isSome_lastValue? hgift rfl rfl⟩

theorem nearest?_eq_none {name : String} {gifts : List (SpanId × Field)} {ids : List SpanId}
    (h : ∀ id ∈ ids, ∀ f ∈ given gifts id, f.name ≠ name) : nearest? name gifts ids = none := by
  rw [nearest?, List.findSome?_eq_none_iff]
  intro id hid
  have hnone : ((given gifts id).filterMap fun f ↦ if f.name = name then f.value else none) = [] := by
    rw [List.filterMap_eq_nil_iff]
    intro f hf
    rw [if_neg (h id hid f hf)]
  rw [Field.lastValue?, hnone, List.getLast?_nil]

/-! ### Records -/

variable {t t₀ : FileTree} {settings : LoggingSettings} {color : Bool} {origin : Origin}
  {l₀ : Logger} {before : List (Moment × Step)} {step : Step} {e : Event} {around : Around}

/-- The record of an event that brings no value under a key of a span's field has the value given
last to the nearest span that was given one. -/
theorem get?_record_scope {gifts : List (SpanId × Field)} {stage : Stage} {ids : List SpanId}
    (h : Tells (fun fields s ↦ s.fields = SpanFields.ofFields fields ∧ ∀ f ∈ fields, f.Plain)
      gifts stage.spans.spans)
    (hchain : Lineage stage.spans.spans (stage.locate around) ids)
    (hscope : stage.spans.scope (stage.locate around) =
      ids.reverse.filterMap (stage.spans.spans[·]?))
    {key : String} (hlog : key.startsWith "log." = false) (hown : key ∉ ownKeys)
    {capture : Bool} {fields : List (String × Json.Value)} (horigin : key ∉ fields.map Prod.fst)
    (hevent : ∀ f ∈ e.fields, f.name = key → f.value = none) (now : Moment) :
    (record capture fields now e
      ((stage.spans.scope (stage.locate around)).map Span.fields)).get? key =
        (nearest? key gifts ids).map FieldValue.inSpan := by
  have hstored : ∀ s ∈ (stage.spans.scope (stage.locate around)).map Span.fields, s.Stored := by
    intro s hs
    rw [hscope] at hs
    obtain ⟨span, hspan, rfl⟩ := List.mem_map.mp hs
    obtain ⟨id, -, hid⟩ := List.mem_filterMap.mp hspan
    rw [(h.span id span hid).1]
    exact SpanFields.stored_ofFields _
  have hpairs : Keyed.last? (e.pairs.map fun p ↦ (p.1, p.2.inEvent)) key = none := by
    apply Keyed.last?_eq_none
    simp only [List.map_map, List.mem_map, Event.pairs, List.mem_filterMap]
    rintro ⟨p, ⟨f, hf, hp⟩, hkey⟩
    split_ifs at hp
    obtain ⟨v, hv, rfl⟩ := Option.map_eq_some_iff.mp hp
    rw [hevent f hf hkey] at hv
    exact absurd hv (by simp)
  rw [get?_record hstored hown horigin, hpairs, Option.none_or, hscope, ← findSome?_fields h hchain hlog,
    List.filterMap_reverse, List.map_reverse, List.reverse_reverse]

theorem requestKey_notMem_originFields (settings : LoggingSettings) (origin : Origin) :
    Logger.requestKey ∉ (Logger.originFields settings origin).map Prod.fst := by
  rw [Logger.originFields]
  split_ifs
  · exact List.not_mem_nil
  · simp [Origin.fields, Logger.requestKey]

/-- An event that a logger admits, and that brings no identifier of a request, is recorded with the
one that was given last to the nearest span around it that was given one: so there is one if a span
around the event was made to tag a request, and there is none if no span around it has a field of
that name. The spans around the event are a chain up to the outermost, and all of them are alive,
whatever was entered, left and let go before, in whatever order. -/
theorem requestTag_of_run (h : Logger.ofSettings t settings color origin = (t₀, .ok l₀))
    (hpretty : settings.pretty = false)
    (hfields : ∀ p ∈ before, ∀ f ∈ p.2.spanFields, f.Plain)
    (hstep : step.event? 0 = some (e, around)) (hadmits : settings.level ≤ e.severity)
    (hevent : ∀ f ∈ e.fields, f.name = Logger.requestKey → f.value = none) (now : Moment) :
    let s := (start t₀ [l₀]).run before
    let s' := (start t₀ [l₀]).run (before ++ [(now, step)])
    let gifts := Stage.initial.allGifts l₀.structuredSinks before
    ∃ l l' ids r, s.loggers = [l] ∧ s'.loggers = [l'] ∧
      Lineage l.spans.spans (l.locate (s.inside 0 around)) ids ∧
      (∀ id ∈ ids, l.spans.isAlive id = true) ∧
      l'.console = l.console ++ [lineOf r] ∧
      (∀ f, l.file = some f → ∃ f' failed,
        f.write s.files now.stamp (lineOf r).toUTF8 = (s'.files, f', failed) ∧ l'.file = some f') ∧
      r.get? Logger.requestKey =
        (nearest? Logger.requestKey gifts ids).map FieldValue.inSpan ∧
      ((∃ id ∈ ids, MadeByRequest l₀.structuredSinks before id) →
        (r.get? Logger.requestKey).isSome = true) ∧
      ((∀ id ∈ ids, ∀ f ∈ given gifts id, f.name ≠ Logger.requestKey) →
        Logger.requestKey ∉ r.keys) := by
  intro s s' gifts
  obtain ⟨l, l', hl, hl', hspans, hlocate, hsettings, horigin, htold⟩ :=
    told_of_event h before now hstep hadmits
  set stage := Stage.initial.afterAll l₀.structuredSinks before
  obtain ⟨ids, hchain, halive, hscope⟩ :=
    (Grounded.initial.afterAll l₀.structuredSinks before).exists_lineage around
  have hsinks : 0 < l₀.structuredSinks := by
    obtain ⟨file, rfl, -⟩ := ofSettings_eq_ok h
    rw [Logger.structuredSinks, Logger.build, hpretty]
    exact Nat.lt_add_right _ Nat.one_pos
  have hempty : Tells (fun fields s ↦ s.fields = SpanFields.ofFields fields ∧ ∀ f ∈ fields, f.Plain)
      [] Stage.initial.spans.spans := Tells.nil
  have htells := hempty.afterAll (tracks_ofFields hsinks) hfields
  rw [List.nil_append] at htells
  set scope := stage.spans.scope (stage.locate around)
  set r := record settings.debug l.origin now e (scope.map Span.fields)
  have hvalue : r.get? Logger.requestKey =
      (nearest? Logger.requestKey gifts ids).map FieldValue.inSpan := by
    apply get?_record_scope htells hchain hscope (by decide +kernel) (by decide)
    · rw [horigin]
      exact requestKey_notMem_originFields settings origin
    · exact hevent
  have hshows : l.shows (now, ⟨e, scope⟩) = lineOf r := by
    rw [Logger.shows_eq (by rw [hsettings, hpretty]), Logger.lineFor, hsettings]
    rfl
  have hwrites : l.writes (now, ⟨e, scope⟩) = (now.stamp, (lineOf r).toUTF8) := by
    rw [Logger.writes, Logger.fileRecord, hsettings]
    rfl
  refine ⟨l, l', ids, r, hl, hl', ?_, ?_, ?_, ?_, hvalue, ?_, ?_⟩
  · rw [hspans, hlocate]
    exact hchain
  · rw [hspans]
    exact halive
  · rw [htold.console, List.map_singleton, hshows]
  · intro f hf
    obtain ⟨f', failures, hwritten, hf', -⟩ := htold.file f hf
    rw [List.map_singleton, hwrites] at hwritten
    obtain ⟨failed, hwrite, -⟩ := LogFile.exists_write_eq hwritten
    exact ⟨f', failed, hwrite, hf'⟩
  · rintro ⟨id, hid, hmade⟩
    rw [hvalue, Option.isSome_map]
    exact isSome_nearest? hid hmade
  · intro hnone
    rw [← Keyed.get?_eq_none_iff, hvalue, nearest?_eq_none hnone, Option.map_none]

/-- A span is made inside that of a request; then the request gets another identifier, is left
before the inner span and is let go. -/
def requestSteps : List (Moment × Step) :=
  [(smallMoment, .request (some 0) "request" "1"),
    (smallMoment, .enter "request"),
    (smallMoment, .span (some 0) "inner" [] .current),
    (smallMoment, .enter "inner"),
    (smallMoment, .record "request" [⟨"reqId", some (.str "2")⟩]),
    (smallMoment, .exit "request"),
    (smallMoment, .close "request")]

theorem plain_requestSteps : ∀ p ∈ requestSteps, ∀ f ∈ p.2.spanFields, f.Plain := by
  have hname : ∀ c ∈ "reqId".toList, Json.isPlainChar c = true :=
    List.all_eq_true.mp (by decide)
  have hraw : "reqId".startsWith "r#" = false := by decide +kernel
  have hall : ∀ value, (Field.mk "reqId" (some (.str value))).Plain :=
    fun value ↦ ⟨fun _ h ↦ by simp at h, hname, hraw⟩
  intro p hp f hf
  simp only [requestSteps, List.mem_cons, List.not_mem_nil, or_false] at hp
  rcases hp with rfl | rfl | rfl | rfl | rfl | rfl | rfl <;>
    simp only [Step.spanFields, List.mem_singleton, List.not_mem_nil] at hf
  · exact hf ▸ hall "1"
  · exact hf ▸ hall "2"

/-- The record inside the inner span has the later identifier. -/
theorem requestTag_of_run_later :
    ∃ l l' r, ((start smallTree [smallLogger]).run requestSteps).loggers = [l] ∧
      ((start smallTree [smallLogger]).run
        (requestSteps ++ [(smallMoment, .event (some 0) smallEvent .current)])).loggers = [l'] ∧
      l'.console = l.console ++ [lineOf r] ∧
      r.get? Logger.requestKey = some (.string "2") := by
  obtain ⟨l, l', ids, r, hl, hl', hchain, -, hconsole, -, hvalue, -⟩ :=
    requestTag_of_run ofSettings_small rfl plain_requestSteps
      (show (Step.event (some 0) smallEvent .current).event? 0 = _ from rfl) (by decide) (by decide)
      smallMoment
  obtain rfl : _ = l := List.singleton_inj.mp (show [_] = [l] from hl)
  have hids : ids = [1, 0] := hchain.unique (.span rfl (.span rfl .nothing))
  refine ⟨_, l', r, hl, hl', hconsole, ?_⟩
  rw [hvalue, hids]
  rfl

end Session

end Logbook
