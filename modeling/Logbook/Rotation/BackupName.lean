import Logbook.Clock
import Logbook.Decimal.Reader
import Logbook.Text.CharClass

/-!
# Names of backups

A backup of a log file is named for the file and the second it was made in, and carries a number if
an earlier backup has that second too. A name counts as one exactly if what follows the file's name
and a point is a calendar date and time in the form of `Timestamp.text`, then possibly a point and a
number, then possibly the ending `.gz` (`ofFileName?`). Dates are read leniently: a number may have
blanks before it and fewer digits than usual. Backups are compared by the text of their timestamps
and then by their numbers, a backup without a number being the oldest of its second (`newer`).
-/

set_option autoImplicit false
set_option relaxedAutoImplicit false

namespace Logbook

/-! ### Reading timestamps -/

namespace Timestamp

/-- A number of at most `width` digits, blanks before it allowed. -/
def number? (width : Nat) (cs : List Char) : Option (Nat × List Char) :=
  let cs := cs.dropWhile Text.isBlank
  let ds := (cs.take width).takeWhile Decimal.isDigit
  if ds.isEmpty then none else some (Decimal.natOfDigits ds, cs.drop ds.length)

/-- A year: at most four digits, or a sign and any number of digits. -/
def year? (cs : List Char) : Option (Int × List Char) :=
  match cs.dropWhile Text.isBlank with
  | '-' :: rest => signedYear? (-1) rest
  | '+' :: rest => signedYear? 1 rest
  | cs => (number? 4 cs).map fun (n, t) ↦ ((n : Int), t)
where
  /-- The digits of a year behind its sign. -/
  signedYear? (sign : Int) (cs : List Char) : Option (Int × List Char) :=
    let (ds, t) := Decimal.digitRun cs
    if ds.isEmpty then none else some (sign * Decimal.natOfDigits ds, t)

/-- The timestamp a text stands for, whether or not there is such a date. -/
def read? (cs : List Char) : Option Timestamp := do
  let (year, cs) ← year? cs
  let (month, cs) ← number? 2 cs
  let (day, cs) ← number? 2 cs
  let 'T' :: cs := cs | none
  let (hour, cs) ← number? 2 cs
  let (minute, cs) ← number? 2 cs
  let (second, cs) ← number? 2 cs
  if cs.isEmpty then some ⟨year, month, day, hour, minute, second⟩ else none

end Timestamp

/-! ### Backup names -/

/-- What follows the name of a log file and a point in the name of a backup. -/
structure BackupName where
  stamp : String
  number : Option Nat
  packed : Bool
  deriving DecidableEq, Repr, Inhabited

namespace BackupName

/-- The name of the backup's file. -/
def fileName (b : BackupName) (base : String) : String :=
  base ++ "." ++ b.stamp ++
    (match b.number with
    | some n => "." ++ toString n
    | none => "") ++
    (if b.packed then ".gz" else "")

/-- Whether two names stand for the same backup: the ending does not count. -/
def same (a b : BackupName) : Bool :=
  a.stamp == b.stamp && a.number == b.number

/-- Whether the first of two backups was made after the second. -/
def newer (a b : BackupName) : Bool :=
  decide (b.stamp < a.stamp) || (a.stamp == b.stamp &&
    match a.number, b.number with
    | some n, some m => decide (m < n)
    | some _, none => true
    | none, _ => false)

/-- Whether the number of a backup fits in 64 bits. -/
def fitsWord (b : BackupName) : Bool :=
  b.number.all (· < UInt64.size)

/-- The number behind a timestamp: digits, possibly with a plus sign, that fit in 64 bits. -/
def number? (cs : List Char) : Option Nat :=
  let ds := match cs with
    | '+' :: rest => rest
    | _ => cs
  if ds.isEmpty || !ds.all Decimal.isDigit then none
  else
    let n := Decimal.natOfDigits ds
    if n < UInt64.size then some n else none

/-- A text without an ending, if it has that ending. -/
def dropEnding? (ending cs : List Char) : Option (List Char) :=
  if ending.isSuffixOf cs then some (cs.take (cs.length - ending.length)) else none

/-- The backup a suffix stands for. -/
def ofSuffix? (cs : List Char) (packed : Bool) : Option BackupName :=
  let stamp := cs.takeWhile (· ≠ '.')
  let valid := ((Timestamp.read? stamp).map Timestamp.isValid).getD false
  if !valid then none
  else
    match cs.drop stamp.length with
    | [] => some ⟨String.ofList stamp, none, packed⟩
    | _ :: rest => (number? rest).map fun n ↦ ⟨String.ofList stamp, some n, packed⟩

/-- The backup of the log file `base` that a file name stands for. -/
def ofFileName? (base name : String) : Option BackupName :=
  let cs := name.toList
  let (cs, packed) := match dropEnding? ".gz".toList cs with
    | some shorter => (shorter, true)
    | none => (cs, false)
  let start := (base ++ ".").toList
  if start.isPrefixOf cs then ofSuffix? (cs.drop start.length) packed else none

end BackupName

end Logbook
