import Logbook.Proofs.Sinks.Batches
import Logbook.Proofs.Sinks.Lineage
import Logbook.Proofs.Sinks.Records

/-!
# The record of an event inside spans

A step that hands a logger an event it admits gives every sink of structured records the line of one
record (`Session.Records`), and nothing else (`Session.Distributes`). What this record has under a
key is settled by what the event brings, then by the spans around it from the inside out, and then
by what every record begins with (`exists_record`). The spans have what they learned of what they
were given (`wears_of_run`).
-/

set_option autoImplicit false
set_option relaxedAutoImplicit false

namespace Logbook.Session

open SpanTree SpanFields Structured

/-! ### What a session says of spans -/

/-- What is said to lie here lies in these spans of the logger, from the inside out. -/
def Inside (s : Session) (around : Around) (ids : List SpanId) : Prop :=
  ∃ l, s.loggers = [l] ∧ Lineage l.spans.spans (l.locate (s.inside 0 around)) ids

/-- What a span of the logger keeps for structured records. -/
def fieldsOf (s : Session) (id : SpanId) : SpanFields :=
  ((s.loggers[0]?.bind fun l ↦ l.spans.spans[id]?).map Span.fields).getD []

/-- A step gives every sink of structured records the line of a record: the console, unless it is
for people, and the log file, if there is one. -/
def Records (s : Session) (now : Moment) (step : Step) (r : Json.Object) : Prop :=
  ∃ l l', s.loggers = [l] ∧ (s.step now step).1.loggers = [l'] ∧
    (l.settings.pretty = false → l'.console = l.console ++ [lineOf r]) ∧
    ∀ f, l.file = some f → ∃ f' failed,
      f.write s.files now.stamp (lineOf r).toUTF8 = ((s.step now step).1.files, f', failed) ∧
        l'.file = some f'

/-- A step gives every sink of structured records the line of a record, and notes whether it could
be written to the log file. Where there is none, no file changes. -/
def Distributes (s : Session) (now : Moment) (step : Step) (r : Json.Object) : Prop :=
  ∃ l l', s.loggers = [l] ∧ (s.step now step).1.loggers = [l'] ∧
    (l.settings.pretty = false → l'.console = l.console ++ [lineOf r]) ∧
    (l.file = none → (s.step now step).1.files = s.files) ∧
    ∀ f, l.file = some f → ∃ f' failed,
      f.write s.files now.stamp (lineOf r).toUTF8 = ((s.step now step).1.files, f', failed) ∧
        l'.file = some f' ∧ l'.failures = l.failures ++ failed.toList

variable {s : Session} {stage : Stage} {around : Around} {ids ids' : List SpanId}

theorem Distributes.records {now : Moment} {step : Step} {r : Json.Object}
    (h : s.Distributes now step r) : s.Records now step r := by
  obtain ⟨l, l', hl, hl', hconsole, -, hfile⟩ := h
  refine ⟨l, l', hl, hl', hconsole, fun f hf ↦ ?_⟩
  obtain ⟨f', failed, hwrite, hf', -⟩ := hfile f hf
  exact ⟨f', failed, hwrite, hf'⟩

theorem Inside.unique (h : s.Inside around ids) (h' : s.Inside around ids') : ids = ids' := by
  obtain ⟨l, hl, hchain⟩ := h
  obtain ⟨l', hl', hchain'⟩ := h'
  obtain rfl := List.singleton_inj.mp (hl.symm.trans hl')
  exact hchain.unique hchain'

theorem findSome?_congr {α β : Type} {f g : α → Option β} {as : List α} (h : ∀ a ∈ as, f a = g a) :
    as.findSome? f = as.findSome? g := by
  induction as with
  | nil => rfl
  | cons a rest ih =>
    rw [List.forall_mem_cons] at h
    rw [List.findSome?_cons, List.findSome?_cons, h.1, ih h.2]

/-- Looking up a key in the spans around an event, from the outermost on, is looking it up in
their fields. -/
theorem findSome?_scope {l : Logger} (hl : s.loggers = [l]) (ids : List SpanId) (key : String) :
    ((ids.reverse.filterMap (l.spans.spans[·]?)).map Span.fields).reverse.findSome?
        (fun fields ↦ Keyed.get? fields.readBack key) =
      ids.findSome? fun id ↦ Keyed.get? (s.fieldsOf id).readBack key := by
  rw [List.filterMap_reverse, List.map_reverse, List.reverse_reverse]
  induction ids with
  | nil => rfl
  | cons id rest ih =>
    rw [List.findSome?_cons, fieldsOf, hl]
    cases hspan : l.spans.spans[id]? with
    | none =>
      rw [List.filterMap_cons_none hspan, ih]
      simp [hspan, SpanFields.readBack]
    | some span =>
      rw [List.filterMap_cons_some hspan, List.map_cons, List.findSome?_cons, ih]
      simp [hspan]

/-! ### Runs -/

variable {t t₀ : FileTree} {settings : LoggingSettings} {color : Bool} {origin : Origin}
  {l₀ : Logger} {before : List (Moment × Step)} {step : Step} {e : Event} {id : SpanId}

/-- A span keeps what it has learned, each value read back any number of times. -/
theorem wears_of_run (h : Logger.ofSettings t settings color origin = (t₀, .ok l₀))
    (hsinks : 0 < l₀.structuredSinks) (before : List (Moment × Step)) (id : SpanId) :
    (((start t₀ [l₀]).run before).fieldsOf id).Stored ∧
      Wears (ofFields (learned (Stage.initial.batches l₀.structuredSinks id before)))
        (((start t₀ [l₀]).run before).fieldsOf id) := by
  obtain ⟨l, hl, hspans, -⟩ := told_of_start h before
  have hlearns := learns_of_run hsinks before id
  have hfields : ((start t₀ [l₀]).run before).fieldsOf id =
      ((Stage.initial.afterAll l₀.structuredSinks before).kept[id]?).getD [] := by
    rw [fieldsOf, hl, Stage.getElem?_kept, ← hspans]
    rfl
  rw [hfields]
  cases hkept : (Stage.initial.afterAll l₀.structuredSinks before).kept[id]? with
  | none =>
    have hnone := hlearns.notMade (List.getElem?_eq_none_iff.mp hkept)
    rw [learned_eq_nil hnone]
    exact ⟨stored_nil, .refl _⟩
  | some fields => exact ⟨hlearns.stored fields hkept, hlearns.wears fields hkept⟩

/-- An event that a logger admits lies in a chain of spans. Every sink of structured records is
given the line of one record for it, which says what the record says. It has under every key the
last of what the event brings, or else what the nearest span has that has something, or else the
last of what a record begins with. -/
theorem exists_distributed (h : Logger.ofSettings t settings color origin = (t₀, .ok l₀))
    (before : List (Moment × Step)) (hstep : step.event? 0 = some (e, around))
    (hadmits : settings.level ≤ e.severity) (now : Moment) :
    ∃ ids r, ((start t₀ [l₀]).run before).Inside around ids ∧
      ((start t₀ [l₀]).run before).Distributes now step r ∧ Legible r ∧
      ∀ key, r.get? key = ((Keyed.last? (closing now e) key).or (ids.findSome? fun id ↦
          Keyed.get? (((start t₀ [l₀]).run before).fieldsOf id).readBack key)).or
        (Keyed.last? (opening settings.debug (Logger.originFields settings origin) now e) key) := by
  obtain ⟨l, l', hl, hl', hspans, hlocate, hsettings, horigin, htold⟩ :=
    told_of_event h before now hstep hadmits
  obtain ⟨l'', hl'', hstored, -⟩ := wrote_of_start h before
  obtain rfl := List.singleton_inj.mp (hl.symm.trans hl'')
  obtain ⟨ids, hchain, -, hscope⟩ :=
    (Grounded.initial.afterAll l₀.structuredSinks before).exists_lineage around
  rw [run_concat] at hl' htold
  rw [← hspans, ← hlocate] at hchain hscope htold
  set s := (start t₀ [l₀]).run before
  set scope := l.spans.scope (l.locate (s.inside 0 around))
  set r := record settings.debug l.origin now e (scope.map Span.fields)
  have hfields : ∀ fields ∈ scope.map Span.fields, fields.Stored := by
    intro fields hfields
    obtain ⟨span, hspan, rfl⟩ := List.mem_map.mp hfields
    exact hstored.scope _ span hspan
  have hflat : ∀ p ∈ l.origin, p.2.isFlat = true := by
    rw [horigin]
    exact Logger.isFlat_of_mem_originFields settings origin
  refine ⟨ids, r, ⟨l, hl, hchain⟩,
    ⟨l, l', hl, hl', fun hpretty ↦ ?_, fun hf ↦ (htold.noFile hf).1, fun f hf ↦ ?_⟩,
    legible_record hflat hfields, fun key ↦ ?_⟩
  · rw [htold.console, List.map_singleton, Logger.shows_eq hpretty, Logger.lineFor, hsettings]
    rfl
  · have hwrites : l.writes (now, ⟨e, scope⟩) = (now.stamp, (lineOf r).toUTF8) := by
      rw [Logger.writes, Logger.fileRecord, hsettings]
      rfl
    obtain ⟨f', failures, hwritten, hf', hfailures⟩ := htold.file f hf
    rw [List.map_singleton, hwrites] at hwritten
    obtain ⟨failed, hwrite, rfl⟩ := LogFile.exists_write_eq hwritten
    exact ⟨f', failed, hwrite, hf', hfailures⟩
  · rw [get?_record_around hfields, horigin, hscope, findSome?_scope hl]

/-- An event that a logger admits lies in a chain of spans. Every sink of structured records is
given the line of one record for it, which has under every key the last of what the event brings, or
else what the nearest span has that has something, or else the last of what a record begins with. -/
theorem exists_record (h : Logger.ofSettings t settings color origin = (t₀, .ok l₀))
    (before : List (Moment × Step)) (hstep : step.event? 0 = some (e, around))
    (hadmits : settings.level ≤ e.severity) (now : Moment) :
    ∃ ids r, ((start t₀ [l₀]).run before).Inside around ids ∧
      ((start t₀ [l₀]).run before).Records now step r ∧ r.keys.Nodup ∧
      ∀ key, r.get? key = ((Keyed.last? (closing now e) key).or (ids.findSome? fun id ↦
          Keyed.get? (((start t₀ [l₀]).run before).fieldsOf id).readBack key)).or
        (Keyed.last? (opening settings.debug (Logger.originFields settings origin) now e) key) := by
  obtain ⟨ids, r, hinside, hdistributes, hlegible, hvalues⟩ :=
    exists_distributed h before hstep hadmits now
  exact ⟨ids, r, hinside, hdistributes.records, hlegible.distinct, hvalues⟩

end Logbook.Session
