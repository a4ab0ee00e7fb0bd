/-!
# File paths

A path is a text of names between slashes. What matters of it are its names (`segments`; empty
names and single dots lead nowhere) and how the text ends, since a slash or a dot at the end asks
for a directory (`ending`). A dot behind the last name also asks for what it stands behind to exist,
which a slash alone does not.
-/

set_option autoImplicit false
set_option relaxedAutoImplicit false

namespace Logbook

/-- How the text of a path ends. -/
inductive PathEnding where
  | name
  | slash
  | dot
  deriving DecidableEq, Repr

/-- A path, as text. -/
structure FilePath where
  text : String
  deriving DecidableEq, Repr, Inhabited

namespace FilePath

/-- The pieces between the slashes. -/
def pieces (p : FilePath) : List String :=
  (p.text.toList.splitOn '/').map String.ofList

/-- Whether a piece is a name. -/
def isName (piece : String) : Bool :=
  piece ≠ "" && piece ≠ "."

/-- The names of the path, `..` included. -/
def segments (p : FilePath) : List String :=
  p.pieces.filter isName

/-- How the text ends behind its last name. -/
def ending (p : FilePath) : PathEnding :=
  match p.pieces.reverse.takeWhile (!isName ·) with
  | [] => .name
  | behind => if behind.contains "." then .dot else .slash

/-- The path up to the name before the last, and without what follows that one. -/
def parent (p : FilePath) : FilePath :=
  let above := (p.pieces.reverse.dropWhile (!isName ·)).drop 1
  ⟨"/".intercalate (above.dropWhile (!isName ·)).reverse⟩

/-- Whether there is no text at all. -/
def isEmpty (p : FilePath) : Bool :=
  p.text == ""

/-- The longest name a directory can hold, in bytes. -/
def maxName : Nat := 255

/-- The longest text of a path, in bytes. -/
def maxLength : Nat := 4095

/-- Whether a name is too long for a directory. -/
def isLongName (name : String) : Bool :=
  decide (maxName < name.utf8ByteSize)

/-- Whether a path is too long to be followed. -/
def isLong (p : FilePath) : Bool :=
  decide (maxLength < p.text.utf8ByteSize)

/-- Whether the path is a name on its own, with no directory in front. -/
def isBare (p : FilePath) : Bool :=
  p.text.toList.all (· != '/')

/-- Whether the text has a character that no path can have. -/
def hasNul (p : FilePath) : Bool :=
  p.text.toList.any (· == '\x00')

end FilePath

end Logbook
