import Logbook.Record.Console

/-!
# Spans

A span is a stretch of a program's run that carries fields. Spans form a tree, each under the span
it was made in; a span is alive as long as its own handle or that of a span below it is held, and
entering it does not keep it. Which spans are entered is a stack: entering pushes, leaving takes
out the topmost entry of that span, and an entry pushed while the span is already entered is a
repetition that never counts as current.
-/

set_option autoImplicit false
set_option relaxedAutoImplicit false

namespace Logbook

/-- The number of a span, in the order of creation. -/
abbrev SpanId := Nat

/-- A span: the span it lies in, the names its fields were declared under, whether its handle is
held, and its fields as structured records and console lines show them. -/
structure Span where
  parent : Option SpanId
  names : List String
  held : Bool
  fields : SpanFields
  text : String

/-- An entry of the stack of entered spans. -/
structure Entry where
  span : SpanId
  repeated : Bool
  deriving DecidableEq, Repr

/-- All spans made so far, and the stack of entered ones, topmost first. -/
structure SpanTree where
  spans : List Span
  stack : List Entry

namespace SpanTree

/-- No spans. -/
def empty : SpanTree := ⟨[], []⟩

/-- A span and all spans around it, from the inside out. A parent is older than its child, so the
number of spans bounds the way up. -/
def upward (spans : List Span) : Nat → SpanId → List SpanId
  | 0, _ => []
  | fuel + 1, id =>
    match spans[id]? with
    | none => []
    | some s =>
      id :: match s.parent with
        | none => []
        | some parent => upward spans fuel parent

/-- A span and all spans around it, from the outermost on. -/
def lineage (t : SpanTree) (id : SpanId) : List SpanId :=
  (upward t.spans t.spans.length id).reverse

/-- Whether a span is alive: the handle of the span or of one below it is held. -/
def isAlive (t : SpanTree) (id : SpanId) : Bool :=
  (List.range t.spans.length).any fun other ↦
    ((t.spans[other]?.map Span.held).getD false) &&
      (upward t.spans t.spans.length other).contains id

/-- The current span: that of the topmost entry which is no repetition, if it is alive. -/
def current? (t : SpanTree) : Option SpanId :=
  match t.stack.find? fun e ↦ !e.repeated with
  | some e => if t.isAlive e.span then some e.span else none
  | none => none

/-- The spans around an event in a span, from the outermost on. -/
def scope (t : SpanTree) (inside : Option SpanId) : List Span :=
  match inside with
  | none => []
  | some id => (t.lineage id).filterMap (t.spans[·]?)

/-! ### Changes -/

/-- Makes a span, whose handle is held. -/
def create (t : SpanTree) (parent : Option SpanId) (fields : List Field) : SpanTree × SpanId :=
  let span : Span :=
    { parent, names := fields.map Field.name, held := true
      fields := SpanFields.ofFields fields, text := Console.pairsText fields }
  ({ t with spans := t.spans ++ [span] }, t.spans.length)

/-- Enters a span. -/
def enter (t : SpanTree) (id : SpanId) : SpanTree :=
  { t with stack := ⟨id, t.stack.any (·.span == id)⟩ :: t.stack }

/-- Leaves a span, if it is entered. -/
def exit (t : SpanTree) (id : SpanId) : SpanTree :=
  { t with stack := t.stack.eraseP (·.span == id) }

/-- Changes one span. -/
def modify (t : SpanTree) (id : SpanId) (change : Span → Span) : SpanTree :=
  { t with spans := t.spans.modify id change }

/-- Lets go of the handle of a span. -/
def release (t : SpanTree) (id : SpanId) : SpanTree :=
  t.modify id fun s ↦ { s with held := false }

/-- The fields a recording visits: for every declared name, in order, the first of that name. -/
def visited (names : List String) (fields : List Field) : List Field :=
  names.filterMap fun name ↦ fields.find? (·.name == name)

/-- Records fields on a span, once for every structured sink on the fields they share. -/
def record (t : SpanTree) (id : SpanId) (structuredSinks : Nat) (fields : List Field) : SpanTree :=
  t.modify id fun s ↦
    let fields := visited s.names fields
    { s with
      fields := (List.range structuredSinks).foldl (fun kept _ ↦ kept.record fields) s.fields
      text := Console.recordText s.text fields }

end SpanTree

end Logbook
