import Logbook.Field
import Logbook.Severity

/-!
# Events

What a program hands to its logger: a level, a target, possibly the place it was emitted from, and
fields. Levels end at error, so the two severities above error are error events under a reserved
target (`Severity.ofEvent`).
-/

set_option autoImplicit false
set_option relaxedAutoImplicit false

namespace Logbook

/-- The level of an event or a span. -/
inductive Level where
  | trace
  | debug
  | info
  | warn
  | error
  deriving DecidableEq, Repr, Inhabited

/-- The place in a program an event is emitted from. Either part may be unknown. -/
structure CallSite where
  file : Option String
  line : Option Nat
  deriving DecidableEq, Repr, Inhabited

namespace CallSite

/-- A place of which nothing is known. -/
def unknown : CallSite := ⟨none, none⟩

/-- The place as it is shown: file and line, or nothing if either is unknown. -/
def text? (site : CallSite) : Option String :=
  match site.file, site.line with
  | some file, some line => some (file ++ ":" ++ toString line)
  | _, _ => none

end CallSite

/-- What is known of an event or a span before its fields are looked at. -/
structure Metadata where
  level : Level
  target : String
  isSpan : Bool
  deriving DecidableEq, Repr, Inhabited

namespace Severity

/-- The target of events that end the process. -/
def fatalTarget : String := "service_logger::fatal"

/-- The target of events that precede a panic. -/
def panicTarget : String := "service_logger::panic"

/-- The severity of a level: trace is folded into debug. -/
def ofLevel : Level → Severity
  | .trace | .debug => debug
  | .info => info
  | .warn => warning
  | .error => error

/-- The severity of an event: a reserved target decides, and else the level. -/
def ofEvent (level : Level) (target : String) : Severity :=
  if target = fatalTarget then fatal
  else if target = panicTarget then panic
  else ofLevel level

/-- Whether a sink with minimum `min` lets something through. Spans always pass, so that their
fields reach the events that do. -/
def admits (min : Severity) (data : Metadata) : Bool :=
  data.isSpan || decide (min ≤ ofEvent data.level data.target)

@[simp] theorem admits_span (min : Severity) (level : Level) (target : String) :
    admits min ⟨level, target, true⟩ = true := rfl

end Severity

/-- Something that happened, as it is handed to a logger. -/
structure Event where
  level : Level
  target : String
  site : CallSite
  fields : List Field
  deriving Repr, Inhabited

namespace Event

/-- The severity of the event. -/
def severity (e : Event) : Severity :=
  Severity.ofEvent e.level e.target

/-- The metadata of the event. -/
def metadata (e : Event) : Metadata :=
  ⟨e.level, e.target, false⟩

/-- The value of the event's message: the last field of that name that has one. -/
def message? (e : Event) : Option FieldValue :=
  (e.fields.filterMap fun f ↦ if f.isMessage then f.value else none).getLast?

/-- The other fields that have a value, in order. -/
def pairs (e : Event) : List (String × FieldValue) :=
  e.fields.filterMap fun f ↦ if f.isMessage then none else f.value.map fun v ↦ (f.name, v)

end Event

end Logbook
