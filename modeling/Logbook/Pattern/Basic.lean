/-!
# Patterns

Regular expressions as trees: characters, sets of characters, places in a text, repetitions, groups,
choices and sequences. How far a tree is nested is bounded (`Pattern.isShallow`). What a pattern
matches is not looked at here, only whether it is one.
-/

set_option autoImplicit false
set_option relaxedAutoImplicit false

namespace Logbook

/-- A character of a pattern, and whether it is written as the value of a byte. -/
structure Glyph where
  char : Char
  asByte : Bool
  deriving DecidableEq, Repr

namespace Glyph

/-- A character that stands for itself. -/
def plain (c : Char) : Glyph :=
  ⟨c, false⟩

/-- Whether the character is one of the first 128. -/
def isAscii (g : Glyph) : Bool :=
  g.char.toNat < 0x80

end Glyph

/-- What stands between brackets. -/
inductive CharSet where
  | empty
  | one (g : Glyph)
  | range (low high : Glyph)
  /-- A class that is given by its name. -/
  | named (negated : Bool)
  /-- Digits, blanks or word characters, or all but them. -/
  | shorthand (negated : Bool)
  /-- The characters of a general category. -/
  | category (letter : Char)
  | bracket (negated : Bool) (s : CharSet)
  | union (items : List CharSet)
  /-- What two sets have in common, or in what they differ. -/
  | combine (left right : CharSet)

namespace CharSet

/-- The set of several items. -/
def ofItems : List CharSet → CharSet
  | [] => empty
  | [s] => s
  | items => union items

mutual

/-- How deeply a set is nested. -/
def depth : CharSet → Nat
  | bracket _ s => s.depth + 1
  | union items => depths items + 1
  | combine left right => max left.depth right.depth + 1
  | _ => 0

/-- How deeply the deepest of several sets is nested. -/
def depths : List CharSet → Nat
  | [] => 0
  | s :: rest => max s.depth (depths rest)

end

end CharSet

/-- What flags in a pattern turn on or off; they leave all else as it was. -/
structure FlagChange where
  verbose : Option Bool := none
  unicode : Option Bool := none
  ignoreCase : Option Bool := none
  deriving DecidableEq, Repr

/-- A pattern. -/
inductive Pattern where
  | empty
  | glyph (g : Glyph)
  | any
  /-- The beginning or the end of a line or of the text. -/
  | edge
  /-- The beginning or the end of a word, or a place that is neither. -/
  | wordEdge
  | shorthand (negated : Bool)
  | category (letter : Char)
  | set (negated : Bool) (s : CharSet)
  | flags (change : FlagChange)
  | repetition (p : Pattern)
  | group (change : FlagChange) (p : Pattern)
  | choice (ps : List Pattern)
  | sequence (ps : List Pattern)

namespace Pattern

/-- Patterns one after the other. -/
def ofSequence : List Pattern → Pattern
  | [] => empty
  | [p] => p
  | ps => sequence ps

/-- Patterns one of which is to match. -/
def ofChoice : List Pattern → Pattern
  | [p] => p
  | ps => choice ps

/-- The item of a set that a part of a pattern can be. -/
def inSet? : Pattern → Option CharSet
  | glyph g => some (.one g)
  | shorthand negated => some (.shorthand negated)
  | category letter => some (.category letter)
  | _ => none

mutual

/-- How deeply a pattern is nested. -/
def depth : Pattern → Nat
  | set _ s => s.depth + 1
  | repetition p => p.depth + 1
  | group _ p => p.depth + 1
  | choice ps => depths ps + 1
  | sequence ps => depths ps + 1
  | _ => 0

/-- How deeply the deepest of several patterns is nested. -/
def depths : List Pattern → Nat
  | [] => 0
  | p :: rest => max p.depth (depths rest)

end

/-- How deeply a pattern may be nested. -/
def depthLimit : Nat := 250

/-- Whether a pattern is nested no deeper than allowed. -/
def isShallow (p : Pattern) : Bool :=
  p.depth ≤ depthLimit

end Pattern

end Logbook
