import Logbook.Json.Reader
import Logbook.Pattern.Basic
import Logbook.Text.CharClass

/-!
# Reading patterns

Patterns are read from texts without a closing brace, so that an opening one is an error wherever it
does not stand for itself. In verbose mode blanks between the parts do not count, and a number sign
begins a comment up to the end of the line.

Each reader gives what it has read and what is left of the text. Every call reads at least one
character, so the length of the text bounds their number (`Pattern.read?`).
-/

set_option autoImplicit false
set_option relaxedAutoImplicit false

namespace Logbook.Pattern

/-- How far a pattern has been read: whether blanks count, and the names of its groups. -/
structure Scan where
  verbose : Bool := false
  names : List String := []

/-- What is left behind a line. -/
def afterLine (cs : List Char) : List Char :=
  (cs.dropWhile (· != '\n')).drop 1

/-- What is left behind blanks and comments. -/
def afterComments : Nat → List Char → List Char
  | 0, cs => cs
  | fuel + 1, cs =>
    match cs.dropWhile Text.isBlank with
    | '#' :: rest => afterComments fuel (afterLine rest)
    | rest => rest

/-- What is left behind what does not count. -/
def skip (verbose : Bool) (cs : List Char) : List Char :=
  if verbose then afterComments cs.length cs else cs

/-- The next character that counts, looking ahead over one number sign at most. -/
def ahead? (verbose : Bool) (cs : List Char) : Option Char :=
  if verbose then
    let rest := match cs.dropWhile Text.isBlank with
      | '#' :: rest => rest.dropWhile Text.isBlank
      | rest => rest
    rest.head?.or cs.head?
  else cs.head?

/-! ### Characters -/

/-- A character that stands for itself behind a backslash: in ASCII all but letters, digits and
angle brackets do. -/
def isEscapable (c : Char) : Bool :=
  c.toNat < 0x80 && !c.isAlphanum && c != '<' && c != '>'

/-- The control character of a letter behind a backslash. -/
def control? : Char → Option Char
  | 'a' => some '\x07'
  | 't' => some '\t'
  | 'n' => some '\n'
  | 'v' => some '\x0b'
  | 'f' => some '\x0c'
  | 'r' => some '\r'
  | _ => none

/-- The number of digits of a code point behind a letter. -/
def hexSize? : Char → Option Nat
  | 'x' => some 2
  | 'u' => some 4
  | 'U' => some 8
  | _ => none

/-- A number of so many hexadecimal digits, behind what has been read of it. -/
def hexDigits? (verbose : Bool) : Nat → Nat → List Char → Option (Nat × List Char)
  | 0, value, cs => some (value, skip verbose cs)
  | size + 1, value, cs =>
    match skip verbose cs with
    | [] => none
    | c :: rest => do hexDigits? verbose size (value * 16 + (← Json.hexValue? c)) rest

/-- What stands behind a backslash. -/
def escape? (verbose : Bool) : List Char → Option (Pattern × List Char)
  | [] => none
  | c :: rest =>
    if isEscapable c then some (.glyph (.plain c), rest)
    else
      match control? c, hexSize? c with
      | some control, _ => some (.glyph (.plain control), rest)
      | none, some size => do
        let (value, rest) ← hexDigits? verbose size 0 rest
        if value.isValidChar then some (.glyph ⟨Char.ofNat value, c == 'x'⟩, rest) else none
      | none, none =>
        if "dsw".toList.contains c then some (.shorthand false, rest)
        else if "DSW".toList.contains c then some (.shorthand true, rest)
        else if "Az".toList.contains c then some (.edge, rest)
        else if "bB<>".toList.contains c then some (.wordEdge, rest)
        else if "pP".toList.contains c then
          match skip verbose rest with
          | letter :: rest =>
            if letter = '\x7b' ∨ letter = '\\' then none
            else some (.category letter, skip verbose rest)
          | [] => none
        else none

/-- One character, or what a backslash makes of those behind it. -/
def part? (verbose : Bool) : List Char → Option (Pattern × List Char)
  | [] => none
  | '\\' :: rest => escape? verbose rest
  | c :: rest => some (.glyph (.plain c), rest)

/-! ### Sets -/

/-- The names of classes of characters. -/
def classNames : List String :=
  ["alnum", "alpha", "ascii", "blank", "cntrl", "digit", "graph", "lower", "print", "punct",
   "space", "upper", "word", "xdigit"]

/-- A class by its name, from behind its opening bracket. -/
def className? : List Char → Option (CharSet × List Char)
  | ':' :: rest =>
    let (negated, rest) := match rest with
      | '^' :: rest => (true, rest)
      | rest => (false, rest)
    let name := rest.takeWhile (· != ':')
    match rest.drop name.length with
    | ':' :: ']' :: rest =>
      if classNames.contains (String.ofList name) then some (.named negated, rest) else none
    | _ => none
  | _ => none

/-- The dashes a set begins with. -/
def dashes (verbose : Bool) : Nat → List CharSet → List Char → List CharSet × List Char
  | fuel + 1, found, '-' :: rest =>
    dashes verbose fuel (.one (.plain '-') :: found) (skip verbose rest)
  | _, found, cs => (found, cs)

/-- What a set begins with: whether it is negated, and the dashes and the closing bracket that stand
for themselves there. The items are given last first. -/
def setHead (verbose : Bool) (cs : List Char) : Bool × List CharSet × List Char :=
  let (negated, cs) := match skip verbose cs with
    | '^' :: rest => (true, skip verbose rest)
    | cs => (false, cs)
  match dashes verbose cs.length [] cs with
  | ([], ']' :: rest) => (negated, [.one (.plain ']')], skip verbose rest)
  | (found, cs) => (negated, found, cs)

/-- A character, a range or a class of characters in a set. -/
def setItem? (verbose : Bool) (cs : List Char) : Option (CharSet × List Char) := do
  let (first, rest) ← part? verbose cs
  match skip verbose rest with
  | [] => none
  | '-' :: behind =>
    match ahead? verbose behind with
    | some ']' | some '-' => return (← first.inSet?, '-' :: behind)
    | _ => do
      let (last, rest) ← part? verbose (skip verbose behind)
      match first, last with
      | .glyph low, .glyph high =>
        if low.char ≤ high.char then some (.range low high, rest) else none
      | _, _ => none
  | rest => return (← first.inSet?, rest)

/-- A set whose items so far are given last first, and what stands before the last operation in
it. -/
def closeSet (left : Option CharSet) (found : List CharSet) : CharSet :=
  match left with
  | none => .ofItems found.reverse
  | some left => .combine left (.ofItems found.reverse)

/-- The rest of a set, up to its closing bracket. -/
def setRest? (verbose : Bool) :
    Nat → Option CharSet → List CharSet → List Char → Option (CharSet × List Char)
  | 0, _, _, _ => none
  | fuel + 1, left, found, cs =>
    let operation (rest : List Char) := setRest? verbose fuel (some (closeSet left found)) [] rest
    match skip verbose cs with
    | [] => none
    | ']' :: rest => some (closeSet left found, rest)
    | '&' :: '&' :: rest => operation rest
    | '-' :: '-' :: rest => operation rest
    | '~' :: '~' :: rest => operation rest
    | '[' :: rest =>
      match className? rest with
      | some (item, rest) => setRest? verbose fuel left (item :: found) rest
      | none => do
        let (negated, items, rest) := setHead verbose rest
        let (inner, rest) ← setRest? verbose fuel none items rest
        setRest? verbose fuel left (.bracket negated inner :: found) rest
    | cs => do
      let (item, rest) ← setItem? verbose cs
      setRest? verbose fuel left (item :: found) rest

/-- A set from behind its opening bracket. -/
def set? (verbose : Bool) (cs : List Char) : Option (Pattern × List Char) := do
  let (negated, items, rest) := setHead verbose cs
  let (s, rest) ← setRest? verbose (cs.length + 1) none items rest
  return (.set negated s, rest)

/-! ### Groups -/

/-- What flags say on one of them: whether it is turned on, or off behind a dash. -/
def flagState (own : List Char) (flag : Char) : Option Bool :=
  if own.contains flag then some ((own.takeWhile (· != '-')).contains flag) else none

/-- Flags, which must all be known and given once, with something behind a dash. -/
def flagChange? (own : List Char) : Option FlagChange :=
  if own.all "imsUuRx-".toList.contains && decide own.Nodup && own.getLast? != some '-' then
    some ⟨flagState own 'x', flagState own 'u', flagState own 'i'⟩
  else none

/-- Whether a text may name a group. -/
def isGroupName : List Char → Bool
  | [] => false
  | c :: rest =>
    (c == '_' || Text.isAlphabetic c) &&
      rest.all fun c ↦ "_.[]".toList.contains c || Text.isAlphanumeric c

/-- The name of a group, which must be new, up to the angle bracket behind it. -/
def groupName? (names : List String) (cs : List Char) : Option (String × List Char) :=
  let own := cs.takeWhile (· != '>')
  let name := String.ofList own
  match cs.drop own.length with
  | _ :: rest => if isGroupName own && !names.contains name then some (name, rest) else none
  | [] => none

/-- What stands behind an opening parenthesis: flags for what follows, or the head of a group. -/
inductive Opening where
  | flags (change : FlagChange)
  | group (change : FlagChange)
  | namedGroup (name : String)

/-- The opening behind a question mark. Looking ahead or behind is no part of patterns. -/
def question? (names : List String) (cs : List Char) : Option (Opening × List Char) :=
  match cs with
  | 'P' :: '<' :: rest => named rest
  | '<' :: rest => named rest
  | cs =>
    let own := cs.takeWhile fun c ↦ c != ':' && c != ')'
    match cs.drop own.length with
    | [] => none
    | c :: rest => do
      let change ← flagChange? own
      if c = ':' then some (.group change, rest)
      else if own.isEmpty then none
      else some (.flags change, rest)
where
  named (rest : List Char) : Option (Opening × List Char) := do
    let (name, rest) ← groupName? names rest
    some (.namedGroup name, rest)

/-- The opening behind a parenthesis. -/
def opening? (s : Scan) (cs : List Char) : Option (Opening × List Char) :=
  match skip s.verbose cs with
  | '?' :: rest => question? s.names rest
  | rest => some (.group {}, rest)

/-! ### Patterns -/

/-- What is left behind a question mark, which makes a repetition a short one. -/
def afterLazy : List Char → List Char
  | '?' :: rest => rest
  | cs => cs

/-- The rest of a pattern, up to its end or to a closing parenthesis: the pattern, the names of the
groups in it, and what is left. The parts of the last branch so far and the branches before it are
given last first. -/
def rest? : Nat → Scan → List Pattern → List Pattern → List Char →
    Option (Pattern × List String × List Char)
  | 0, _, _, _, _ => none
  | fuel + 1, s, parts, branches, cs =>
    let whole := ofChoice (ofSequence parts.reverse :: branches).reverse
    let next (p : Pattern) (rest : List Char) := rest? fuel s (p :: parts) branches rest
    match skip s.verbose cs with
    | [] => some (whole, s.names, [])
    | ')' :: rest => some (whole, s.names, ')' :: rest)
    | '|' :: rest => rest? fuel s [] (ofSequence parts.reverse :: branches) rest
    | '(' :: rest => do
      match ← opening? s rest with
      | (.flags change, rest) =>
        let s := { s with verbose := change.verbose.getD s.verbose }
        rest? fuel s (.flags change :: parts) branches rest
      | (opening, rest) =>
        let (change, names) : FlagChange × List String := match opening with
          | .namedGroup name => ({}, name :: s.names)
          | .group change | .flags change => (change, s.names)
        let inner : Scan := ⟨change.verbose.getD s.verbose, names⟩
        match ← rest? fuel inner [] [] rest with
        | (p, names, ')' :: rest) =>
          rest? fuel { s with names } (.group change p :: parts) branches rest
        | _ => none
    | '[' :: rest => do
      let (p, rest) ← set? s.verbose rest
      next p rest
    | '\x7b' :: _ => none
    | '.' :: rest => next .any rest
    | '^' :: rest => next .edge rest
    | '$' :: rest => next .edge rest
    | c :: rest =>
      if c = '?' ∨ c = '*' ∨ c = '+' then
        match parts with
        | [] | .flags _ :: _ => none
        | p :: parts => rest? fuel s (.repetition p :: parts) branches (afterLazy rest)
      else do
        let (p, rest) ← part? s.verbose (c :: rest)
        next p rest

/-- The pattern a text without a closing brace stands for. -/
def read? (cs : List Char) : Option Pattern :=
  match rest? (cs.length + 1) {} [] [] cs with
  | some (p, _, []) => if p.isShallow then some p else none
  | _ => none

end Logbook.Pattern
