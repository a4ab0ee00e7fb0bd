import Logbook.Decimal.Reader
import Logbook.Event
import Logbook.Pattern.Matchable
import Logbook.Pattern.Reader
import Logbook.Text.CharClass

/-!
# Filters by target

A filter is a list of directives such as `info` or `service_logger=debug`: each limits the level of
events whose target begins with a text, or of all events. The most specific directive that applies
to an event decides (`TargetFilter.admits`); an event to which none applies is dropped. A directive
may also ask for a field an event has, for a field with a value, or for a span around the event;
those of the last two kinds never apply to an event outside all spans. Still a value must be a
number or a pattern that can be matched (`Directive.isValue`).
-/

set_option autoImplicit false
set_option relaxedAutoImplicit false

namespace Logbook

namespace Level

/-- How much a limit at this level lets through. -/
def verbosity : Level → Nat
  | error => 1
  | warn => 2
  | info => 3
  | debug => 4
  | trace => 5

/-- All levels. -/
def all : List Level :=
  [error, warn, info, debug, trace]

/-- The name of the level. -/
def name : Level → String
  | error => "error"
  | warn => "warn"
  | info => "info"
  | debug => "debug"
  | trace => "trace"

end Level

/-- A limit on levels: the most verbose level let through, or nothing at all. -/
abbrev Limit := Option Level

namespace Limit

/-- Whether a level is let through. -/
def allows (limit : Limit) (l : Level) : Bool :=
  match limit with
  | none => false
  | some most => decide (l.verbosity ≤ most.verbosity)

/-- The limit of a number from zero to five, possibly behind a plus sign. -/
def ofNumber? (cs : List Char) : Option Limit :=
  let ds := match cs with
    | '+' :: ds => ds
    | ds => ds
  if ds.isEmpty || !ds.all Decimal.isDigit then none
  else
    let n := Decimal.natOfDigits ds
    if n = 0 then some none else (Level.all.find? (·.verbosity == n)).map some

/-- The limit of a name in any letter case, or of a number. -/
def read? (cs : List Char) : Option Limit :=
  match ofNumber? cs with
  | some limit => some limit
  | none =>
    let name := String.ofList (cs.map Char.toLower)
    if name = "off" then some none else (Level.all.find? (·.name == name)).map some

/-- The limit behind an equals sign: everything if nothing stands there. -/
def readAssigned? (cs : List Char) : Option Limit :=
  if cs.isEmpty then some (some .trace) else read? cs

end Limit

/-- A directive: the events it is about, by the beginning of their target, a span around them, and
a field with or without a value; and the limit for them. -/
structure Directive where
  target : Option String
  span : Option String
  field : Option String
  hasValue : Bool
  limit : Limit
  deriving DecidableEq, Repr

namespace Directive

/-- A directive about all events of targets. -/
def plain (target : Option String) (limit : Limit) : Directive :=
  ⟨target, none, none, false, limit⟩

/-! ### Reading -/

/-- A character that may begin a directive without a bracket. -/
def isStart (c : Char) : Bool :=
  Text.isAlphanumeric c || c == '-' || c == ':' || c == '_'

/-- The limit behind a closed bracket, which ends at a position of the text that was given. -/
def limitAfter? (given : List Char) (position : Nat) : List Char → Option Limit
  | [] => some (some .trace)
  | '=' :: _ => Limit.readAssigned? (given.drop (position + 1))
  | _ => none

/-- Whether a text may be the value of a field. -/
def isValue (cs : List Char) : Bool :=
  (Decimal.read? (String.ofList cs)).isSome || (Pattern.read? cs).any Pattern.isMatchable

/-- What stands between the first equals sign of a text and the next one or the end. -/
def valueText (cs : List Char) : List Char :=
  ((cs.dropWhile (· != '=')).drop 1).takeWhile (· != '=')

/-- A directive from its opened bracket on: the name of a span, a field in braces, or both. -/
def bracket? (given cs : List Char) (target : Option String) (start : Nat) : Option Directive :=
  let rest := cs.drop start
  let nameSize := (rest.takeWhile fun c ↦ c != ']' && c != '\x7b').length
  let name := String.ofList ((given.drop start).take nameSize)
  match rest.drop nameSize with
  | [] => none
  | ']' :: more =>
    (limitAfter? given (start + nameSize + 1) more).map fun limit ↦
      ⟨target, some name, none, false, limit⟩
  | _ :: more =>
    let fieldStart := start + nameSize + 1
    let fieldSize := (more.takeWhile (· != '\x7d')).length
    let text := (given.drop fieldStart).take fieldSize
    match more.drop fieldSize with
    | '\x7d' :: ']' :: tail =>
      if text.isEmpty || !isValue (valueText text) then none
      else (limitAfter? given (fieldStart + fieldSize + 2) tail).map fun limit ↦
        ⟨target, if name.isEmpty then none else some name,
          some (String.ofList (text.takeWhile (· != '='))), text.contains '=', limit⟩
    | _ => none

/-- The directive a text stands for. Its shape is that of the text without the blanks around it;
its parts are cut from the text as given, at the same positions. -/
def read? (text : String) : Option Directive :=
  let given := text.toList
  let cs := Text.trim given
  match cs with
  | [] => none
  | c :: _ =>
    if c = '[' then bracket? given cs none 1
    else if !isStart c then none
    else
      let size := (cs.takeWhile fun c ↦ c != '=' && c != '[').length
      let target := String.ofList (given.take size)
      match cs.drop size with
      | [] =>
        match Limit.read? given with
        | some limit => some (plain none limit)
        | none => some (plain (some text) (some .trace))
      | '=' :: _ => (Limit.readAssigned? (given.drop (size + 1))).map (plain (some target))
      | _ => bracket? given cs (some target) (size + 1)

/-! ### Applying -/

/-- Whether the directive is about an event outside all spans, with fields of the given names. -/
def applies (d : Directive) (target : String) (names : List String) : Bool :=
  d.span.isNone && !d.hasValue &&
    ((d.target.map fun start ↦ start.toList.isPrefixOf target.toList).getD true) &&
    ((d.field.map names.contains).getD true)

/-- How long a target the directive asks for; none is less than an empty one. -/
def targetRank (d : Directive) : Nat :=
  (d.target.map fun t ↦ t.utf8ByteSize + 1).getD 0

/-- Whether a directive gives way to another that applies to the same event: one with a longer
target, or with a field, or else one that comes later. -/
def yields (a b : Directive) : Bool :=
  decide (a.targetRank < b.targetRank) ||
    (a.targetRank == b.targetRank && match a.field, b.field with
      | none, _ => true
      | some _, none => false
      | some x, some y => decide (x ≤ y))

end Directive

/-- A filter by target. -/
abbrev TargetFilter := List Directive

namespace TargetFilter

/-- The filter of a text: directives between commas, all of which must be well-formed. -/
def read? (text : String) : Option TargetFilter :=
  ((text.splitOn ",").filter (!·.isEmpty)).mapM Directive.read?

/-- The directive that decides on an event outside all spans. -/
def deciding? (f : TargetFilter) (target : String) (names : List String) : Option Directive :=
  (f.filter (·.applies target names)).foldl
    (fun best d ↦ match best with
      | none => some d
      | some b => if b.yields d then some d else some b)
    none

/-- Whether an event outside all spans is let through. -/
def admits (f : TargetFilter) (e : Event) : Bool :=
  match f.deciding? e.target (e.fields.map Field.name) with
  | some d => d.limit.allows e.level
  | none => false

end TargetFilter

end Logbook
