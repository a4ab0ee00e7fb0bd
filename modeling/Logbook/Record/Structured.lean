import Logbook.Clock
import Logbook.Event
import Logbook.Json.Reader

/-!
# Structured records

One JSON object per record. A record is built from a list of contributions (`contributions`): level,
time, the call site, an empty message, the fields of the process, the fields of the spans around
the event from the outermost on, the message, the fields of the event, and from error on a stack
trace. A repeated key keeps the place of its first contribution and takes the value of its last.

The fields of a span are kept in ascending order of their names (`SpanFields`), in the form of
their JSON text: what is read back from there is what the text stands for, which for a float need
not be the same number (`reread?`). Recording on a span reads its fields back first and is given up
where a name has to be escaped in JSON.
-/

set_option autoImplicit false
set_option relaxedAutoImplicit false

namespace Logbook

/-! ### The fields of a span -/

/-- The fields of a span as structured records show them, in ascending order of their names. -/
abbrev SpanFields := Json.Object

namespace SpanFields

/-- What a field adds to its span. A value known only by the text it shows is left out under a
name that starts with `log.`, and loses the mark `r#` of a raw name. -/
def pair? (f : Field) : Option (String × Json.Value) :=
  f.value.bind fun v ↦
    if !v.isShown then some (f.name, v.inSpan)
    else if f.name.startsWith "log." then none
    else if f.name.startsWith "r#" then some (String.ofList (f.name.toList.drop 2), v.inSpan)
    else some (f.name, v.inSpan)

/-- The fields a span starts with. -/
def ofFields (fields : List Field) : SpanFields :=
  Keyed.putAllSorted [] (fields.filterMap pair?)

/-- A value as its text is read back. -/
def rereadValue? : Json.Value → Option Json.Value
  | .number (.float x) =>
    if x.isFinite then (Json.Number.read? (Json.Number.float x).chars).map fun (n, _) ↦ .number n
    else some .null
  | v => some v

/-- The fields as their text is read back, unless one of them cannot be read. -/
def reread? (s : SpanFields) : Option SpanFields :=
  s.mapM fun (k, v) ↦ (rereadValue? v).map fun w ↦ (k, w)

/-- Whether all names stand in JSON as they are. -/
def plainNames (s : SpanFields) : Bool :=
  s.all fun (k, _) ↦ k.toList.all Json.isPlainChar

/-- Gives fields of a span new values. -/
def record (s : SpanFields) (fields : List Field) : SpanFields :=
  if !s.plainNames then s
  else
    match s.reread? with
    | none => s
    | some old => Keyed.putAllSorted old (fields.filterMap pair?)

end SpanFields

/-! ### Records -/

/-- What a record takes from the moment it is written at: the time in milliseconds, the time of day,
the timestamp of a rotation at that moment, and the stack. -/
structure Moment where
  time : Json.Integer
  clock : TimeOfDay
  stamp : String
  trace : String

namespace Structured

/-- The lowest severity that carries a stack trace. -/
def traceLevel : Severity := .error

/-- The contributions of an event to its record, in order. -/
def contributions (capture : Bool) (origin : List (String × Json.Value)) (now : Moment)
    (e : Event) (spans : List SpanFields) : List (String × Json.Value) :=
  [("level", .string e.severity.text), ("time", .number (.integer now.time))] ++
    (if capture then (e.site.text?.map fun s ↦ ("caller", Json.Value.string s)).toList else []) ++
    [("msg", .string "")] ++
    origin ++
    (spans.filterMap SpanFields.reread?).flatten ++
    (e.message?.map fun m ↦ ("msg", Json.Value.string m.messageText)).toList ++
    e.pairs.map (fun (k, v) ↦ (k, v.inEvent)) ++
    (if traceLevel ≤ e.severity then [("stacktrace", .string now.trace)] else [])

/-- The record of an event. -/
def record (capture : Bool) (origin : List (String × Json.Value)) (now : Moment) (e : Event)
    (spans : List SpanFields) : Json.Object :=
  Keyed.putAll [] (contributions capture origin now e spans)

/-- The record of an event as a line. -/
def line (capture : Bool) (origin : List (String × Json.Value)) (now : Moment) (e : Event)
    (spans : List SpanFields) : String :=
  String.ofList ((Json.Value.object (record capture origin now e spans)).chars ++ ['\n'])

end Structured

end Logbook
