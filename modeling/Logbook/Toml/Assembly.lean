import Logbook.Decimal.Binary64
import Logbook.Keyed

/-!
# Putting a document together

A document is a table of values under keys, in the order in which it first named them. Of a date or
time only that there is one is kept.

A document names its values by headers and by keys with dots, and may come back to a table only as
long as nothing is said twice. While it is read, a table is kept with what it was made by: a header
(`explicit`), a header of a table inside it (`implied`) or a key with dots (`dotted`). Only an
implied table can still get a header of its own, and keys with dots go only through tables that
keys with dots have made.

The table under the latest header is filled apart from the others and joins them when the next
header comes (`Assembly.settle`); a table that gets its header late moves behind the others.
-/

set_option autoImplicit false
set_option relaxedAutoImplicit false

namespace Logbook.Toml

/-! ### Values -/

/-- A value of a document. -/
inductive Value where
  | string (s : String)
  | integer (n : Int)
  | float (x : Binary64)
  | boolean (b : Bool)
  | dateTime
  | array (items : List Value)
  | table (members : List (String × Value))
  deriving Repr, Inhabited

/-- The values of a table, in order. -/
abbrev Table := Keyed Value

/-! ### Tables that are being put together -/

/-- What a table was made by. -/
inductive Origin where
  | explicit
  | implied
  | dotted
  deriving DecidableEq, Repr

/-- An entry of a table that is being put together: a value, a table with what it was made by, or
the tables of an array of tables. -/
inductive Entry where
  | value (v : Value)
  | table (origin : Origin) (entries : List (String × Entry))
  | tables (all : List (List (String × Entry)))

/-- The entries of a table that is being put together. -/
abbrev Entries := Keyed Entry

/-! ### The finished document -/

mutual

/-- An entry as a value. -/
def Entry.finish : Entry → Value
  | .value v => v
  | .table _ entries => .table (finishEntries entries)
  | .tables all => .array (finishTables all)

/-- Entries as values. -/
def finishEntries : List (String × Entry) → List (String × Value)
  | [] => []
  | (k, e) :: rest => (k, e.finish) :: finishEntries rest

/-- The tables of an array of tables as values. -/
def finishTables : List (List (String × Entry)) → List Value
  | [] => []
  | t :: rest => .table (finishEntries t) :: finishTables rest

end

/-! ### Ways into tables -/

/-- Changes the table that `path` leads to, making missing ones on the way; the last table of an
array of tables stands for it. Through a table that a header has made only a header leads. -/
def changeAt (made : Origin) (change : Origin → Entries → Option Entries) :
    List String → Origin → Entries → Option Entries
  | [], origin, entries => change origin entries
  | key :: path, _, entries =>
    match entries.get? key with
    | none =>
      (changeAt made change path made []).map fun inner ↦ entries.put key (.table made inner)
    | some (.value _) => none
    | some (.tables all) =>
      match all.getLast? with
      | none => none
      | some last =>
        (changeAt made change path .explicit last).map fun inner ↦
          entries.put key (.tables (all.dropLast ++ [inner]))
    | some (.table origin inner) =>
      if made = .dotted && origin = .explicit then none
      else
        (changeAt made change path origin inner).map fun inner ↦
          entries.put key (.table origin inner)

/-- Gives a new key a value in a table. A table that keys with dots lead to must have been made by
them. -/
def addValue (viaDots : Bool) (key : String) (v : Value) (origin : Origin) (entries : Entries) :
    Option Entries :=
  if viaDots && origin ≠ .dotted then none
  else if entries.has key then none
  else some (entries.put key (.value v))

/-- Gives a key, possibly with dots, a value. -/
def addPair (path : List String) (key : String) (v : Value) (entries : Entries) : Option Entries :=
  changeAt .dotted (addValue (!path.isEmpty) key v) path .explicit entries

/-! ### The document so far -/

/-- A document that is being read: the tables that are complete, and the one under the latest
header, with its name and whether it belongs to an array of tables. -/
structure Assembly where
  root : Entries
  current : Entries
  path : List String
  isArray : Bool

namespace Assembly

/-- Nothing read yet. -/
def start : Assembly := ⟨[], [], [], false⟩

/-- Adds the table under the latest header to the others. -/
def settle (a : Assembly) : Option Entries :=
  match a.path.getLast? with
  | none => some a.current
  | some key =>
    changeAt .implied (fun _ entries ↦
      if a.isArray then
        match entries.get? key with
        | none => some (entries.put key (.tables [a.current]))
        | some (.tables all) => some (entries.put key (.tables (all ++ [a.current])))
        | some _ => none
      else some (entries.put key (.table .explicit a.current))) a.path.dropLast .explicit a.root

/-- A pair under the latest header. -/
def pair (a : Assembly) (path : List String) (key : String) (v : Value) : Option Assembly :=
  (addPair path key v a.current).map fun current ↦ { a with current }

/-- What an implied table holds, if the key has one or nothing. -/
def implied? (entries : Entries) (key : String) : Option Entries :=
  match entries.get? key with
  | none => some []
  | some (.table .implied inner) => some inner
  | some _ => none

/-- A header of a table. -/
def header (a : Assembly) (path : List String) : Option Assembly := do
  let root ← a.settle
  let key ← path.getLast?
  let held ← heldAt path.dropLast key root
  let root ← changeAt .implied (fun _ entries ↦ some (entries.erase key)) path.dropLast .explicit root
  some ⟨root, held, path, false⟩
where
  /-- What an implied table that a path leads to holds. -/
  heldAt : List String → String → Entries → Option Entries
    | [], key, entries => implied? entries key
    | k :: path, key, entries =>
      match entries.get? k with
      | none => some []
      | some (.table _ inner) => heldAt path key inner
      | some (.tables all) => all.getLast?.bind (heldAt path key)
      | some (.value _) => none

/-- A header of a table in an array of tables. -/
def arrayHeader (a : Assembly) (path : List String) : Option Assembly := do
  let root ← a.settle
  let key ← path.getLast?
  let root ← changeAt .implied (fun _ entries ↦
    match entries.get? key with
    | none => some (entries.put key (.tables []))
    | some (.tables _) => some entries
    | some _ => none) path.dropLast .explicit root
  some ⟨root, [], path, true⟩

/-- The document when its text has come to its end. -/
def finish (a : Assembly) : Option Table :=
  a.settle.map finishEntries

end Assembly

end Logbook.Toml
