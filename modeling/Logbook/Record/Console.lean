import Logbook.Record.Structured

/-!
# Console records

A line for people: the time, the label of the severity, the call site, the message, and the fields
of the spans and of the event as pairs `name=value`; from error on the stack trace follows on lines
of its own. A value is put between quotes if it is empty or holds a blank, a quote or an equals
sign.

The fields of a span are kept as text, to which every recording adds its own behind a space
(`SpanText`).
-/

set_option autoImplicit false
set_option relaxedAutoImplicit false

namespace Logbook.Console

/-- Whether a value could not be told from what stands around it. -/
def needsQuotes (value : String) : Bool :=
  value.isEmpty || value.toList.any fun c ↦ Text.isBlank c || c == '"' || c == '='

/-- A value of a pair. -/
def valueText (value : String) : String :=
  if needsQuotes value then Text.quoted value else value

/-- A name and its value. -/
def pair (name : String) (value : FieldValue) : String :=
  name ++ "=" ++ valueText value.text

/-- The pairs of fields: those with a value that are no message. -/
def pairs (fields : List Field) : List String :=
  fields.filterMap fun f ↦
    if f.isMessage then none else f.value.map fun v ↦ pair f.name v

/-- The pairs of fields with a space between them. -/
def pairsText (fields : List Field) : String :=
  " ".intercalate (pairs fields)

/-- The text of a span after recording fields on it. The space comes even where no pair follows. -/
def recordText (text : String) (fields : List Field) : String :=
  (if text.isEmpty then text else text ++ " ") ++ pairsText fields

/-- The number that selects a label's color. -/
def colorCode : Severity → Nat
  | .debug => 35
  | .info => 34
  | .warning => 33
  | .error | .fatal | .panic => 31

/-- A label, in its color or without. -/
def label (color : Bool) (s : Severity) : String :=
  if color then "\x1b[" ++ toString (colorCode s) ++ "m" ++ s.label ++ "\x1b[0m" else s.label

/-- The record of an event as text. -/
def record (color capture : Bool) (now : Moment) (e : Event) (spans : List String) : String :=
  now.clock.text ++ " " ++ label color e.severity ++
    (if capture then (e.site.text?.map (" " ++ ·)).getD "" else "") ++
    " " ++ (e.message?.map FieldValue.text).getD "" ++
    String.join ((spans.filter (!·.isEmpty)).map (" " ++ ·)) ++
    String.join ((pairs e.fields).map (" " ++ ·)) ++ "\n" ++
    (if Structured.traceLevel ≤ e.severity then
      String.ofList (Text.trimEnd now.trace.toList) ++ "\n"
    else "")

end Logbook.Console
