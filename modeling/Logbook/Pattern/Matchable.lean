import Logbook.Pattern.Basic

/-!
# Patterns that can be matched

A pattern is matched by going over a text once, byte by byte. Whether it can be hangs on the mode
its parts are in, which flags change from one part to the next (`Pattern.after?`). Where characters
are matched, the edges of words are left out, because any letter of the standard may be part of a
word. Where bytes are matched, everything is left out that could match a byte which is no character
of its own; so sets of bytes must not be negated (`CharSet.isAscii`).
-/

set_option autoImplicit false
set_option relaxedAutoImplicit false

namespace Logbook

/-- How a part of a pattern is to be taken: whether characters or bytes are matched, and whether
the case of letters counts. -/
structure MatchMode where
  unicode : Bool := true
  ignoreCase : Bool := false

namespace MatchMode

/-- The mode after flags. -/
def change (m : MatchMode) (c : FlagChange) : MatchMode :=
  ⟨c.unicode.getD m.unicode, c.ignoreCase.getD m.ignoreCase⟩

end MatchMode

/-- Whether a letter, in either case, names a general category. -/
def isCategory (letter : Char) : Bool :=
  "CLMNPSZclmnpsz".toList.contains letter

/-- Whether a character can be matched. Where bytes are, one that is written as a byte or that may
stand in either case must be in ASCII. -/
def Glyph.isMatchable (m : MatchMode) (g : Glyph) : Bool :=
  m.unicode || g.isAscii || (!g.asByte && !m.ignoreCase)

namespace CharSet

mutual

/-- Whether a set of characters is made of known categories. -/
def isKnown : CharSet → Bool
  | category letter => isCategory letter
  | bracket _ s => s.isKnown
  | union items => areKnown items
  | combine left right => left.isKnown && right.isKnown
  | _ => true

/-- Whether several sets of characters are made of known categories. -/
def areKnown : List CharSet → Bool
  | [] => true
  | s :: rest => s.isKnown && areKnown rest

end

mutual

/-- Whether a set of bytes is one of ASCII characters, and made of such sets. -/
def isAscii : CharSet → Bool
  | empty => true
  | one g => g.isAscii
  | range low high => low.isAscii && high.isAscii
  | named negated => !negated
  | shorthand negated => !negated
  | category _ => false
  | bracket negated s => !negated && s.isAscii
  | union items => areAscii items
  | combine left right => left.isAscii && right.isAscii

/-- Whether several sets of bytes are sets of ASCII characters. -/
def areAscii : List CharSet → Bool
  | [] => true
  | s :: rest => s.isAscii && areAscii rest

end

/-- Whether a set can be matched. -/
def isMatchable (m : MatchMode) (s : CharSet) : Bool :=
  if m.unicode then s.isKnown else s.isAscii

end CharSet

namespace Pattern

mutual

/-- The mode behind a pattern that can be matched in a mode. Flags hold up to the end of the group
they stand in, also in its other branches. -/
def after? (m : MatchMode) : Pattern → Option MatchMode
  | empty => some m
  | glyph g => if g.isMatchable m then some m else none
  | any => if m.unicode then some m else none
  | edge => some m
  | wordEdge => if m.unicode then none else some m
  | shorthand negated => if m.unicode || !negated then some m else none
  | category letter => if m.unicode && isCategory letter then some m else none
  | set negated s => if (CharSet.bracket negated s).isMatchable m then some m else none
  | flags change => some (m.change change)
  | repetition p => after? m p
  | group change p => (after? (m.change change) p).map fun _ ↦ m
  | choice ps => afterAll? m ps
  | sequence ps => afterAll? m ps

/-- The mode behind several patterns, each of which can be matched in the mode behind the one
before. -/
def afterAll? (m : MatchMode) : List Pattern → Option MatchMode
  | [] => some m
  | p :: ps => (after? m p).bind fun m ↦ afterAll? m ps

end

/-- Whether a pattern can be matched. -/
def isMatchable (p : Pattern) : Bool :=
  (p.after? {}).isSome

end Pattern

end Logbook
