import Logbook.Clock
import Logbook.Decimal.Reader
import Logbook.Json.Reader
import Logbook.Toml.Assembly

/-!
# Reading TOML

A document is a sequence of lines, each a pair, a header, a comment or nothing (`read?`). Readers
take their part off the front of a text and return what is left, or nothing where the text is not
TOML. Integers must fit in a signed 64-bit word and floats must not grow beyond the format upwards;
arrays and inline tables may nest 79 deep, and a key may have as many parts.
-/

set_option autoImplicit false
set_option relaxedAutoImplicit false

namespace Logbook.Toml

open Decimal (isDigit natOfDigits digitRun)

/-! ### Characters, blanks and line ends -/

/-- A blank within a line. -/
def isBlank (c : Char) : Bool :=
  c == ' ' || c == '\t'

/-- A character that may stand in a comment or between quotes. -/
def isText (c : Char) : Bool :=
  c == '\t' || (0x20 ≤ c.toNat && c.toNat ≠ 0x7F)

/-- A text without the blanks at its start. -/
def skipBlanks (cs : List Char) : List Char :=
  cs.dropWhile isBlank

/-- What follows a line end at the start of a text. -/
def newline? : List Char → Option (List Char)
  | '\n' :: rest => some rest
  | '\r' :: '\n' :: rest => some rest
  | _ => none

/-- What follows a comment, if one starts here. -/
def skipComment : List Char → List Char
  | '#' :: rest => rest.dropWhile isText
  | cs => cs

/-- What follows the end of a line: blanks and a comment may come before it, and the end of the text
is one. -/
def lineEnd? (cs : List Char) : Option (List Char) :=
  match skipComment (skipBlanks cs) with
  | [] => some []
  | rest => newline? rest

/-- A text without the blanks, line ends and comments at its start; `comment` says that it begins
inside a comment. -/
def skipLines : Bool → List Char → List Char
  | _, [] => []
  | _, '\r' :: '\n' :: rest => skipLines false rest
  | comment, c :: rest =>
    if comment && isText c then skipLines true rest
    else if isBlank c || c = '\n' then skipLines false rest
    else if c = '#' then skipLines true rest
    else c :: rest

/-! ### Strings -/

/-- The character four or eight hexadecimal digits stand for. -/
def unicode? (digits : List Char) : Option Char := do
  let values ← digits.mapM Json.hexValue?
  let n := values.foldl (fun n d ↦ 16 * n + d) 0
  if Nat.isValidChar n then some (Char.ofNat n) else none

/-- A character written as an escape, its backslash taken. -/
def escape? : List Char → Option (Char × List Char)
  | 'b' :: rest => some ('\x08', rest)
  | 't' :: rest => some ('\t', rest)
  | 'n' :: rest => some ('\n', rest)
  | 'f' :: rest => some ('\x0c', rest)
  | 'r' :: rest => some ('\r', rest)
  | '"' :: rest => some ('"', rest)
  | '\\' :: rest => some ('\\', rest)
  | 'u' :: rest =>
    if rest.length < 4 then none else (unicode? (rest.take 4)).map fun c ↦ (c, rest.drop 4)
  | 'U' :: rest =>
    if rest.length < 8 then none else (unicode? (rest.take 8)).map fun c ↦ (c, rest.drop 8)
  | _ => none

/-- A basic string up to its closing quote, the opening one taken. -/
def basicTail? : Nat → List Char → List Char → Option (String × List Char)
  | 0, _, _ => none
  | _ + 1, _, [] => none
  | fuel + 1, done, c :: rest =>
    if c = '"' then some (String.ofList done.reverse, rest)
    else if c = '\\' then
      match escape? rest with
      | some (x, more) => basicTail? fuel (x :: done) more
      | none => none
    else if isText c then basicTail? fuel (c :: done) rest
    else none

/-- A literal string, its opening apostrophe taken. -/
def literalTail? (cs : List Char) : Option (String × List Char) :=
  let body := cs.takeWhile fun c ↦ isText c && c ≠ '\''
  match cs.drop body.length with
  | '\'' :: rest => some (String.ofList body, rest)
  | _ => none

/-- The end of a string over several lines: from a run of quotes that closes it, at most two are its
own. -/
def closing? (quote : Char) (done cs : List Char) : Option (String × List Char) :=
  let run := cs.takeWhile (· == quote)
  if run.length < 3 then none
  else
    let own := min 2 (run.length - 3)
    some (String.ofList (List.replicate own quote ++ done).reverse, cs.drop (own + 3))

/-- A text without the blanks and line ends at its start. -/
def skipJoined : List Char → List Char
  | [] => []
  | '\r' :: '\n' :: rest => skipJoined rest
  | c :: rest => if isBlank c || c = '\n' then skipJoined rest else c :: rest

/-- A basic string over several lines, from what follows its opening on. -/
def longBasicTail? : Nat → List Char → List Char → Option (String × List Char)
  | 0, _, _ => none
  | _ + 1, _, [] => none
  | fuel + 1, done, c :: rest =>
    if c = '"' then
      match closing? '"' done (c :: rest) with
      | some r => some r
      | none => longBasicTail? fuel (c :: done) rest
    else if c = '\\' then
      match newline? (skipBlanks rest) with
      | some more => longBasicTail? fuel done (skipJoined more)
      | none =>
        match escape? rest with
        | some (x, more) => longBasicTail? fuel (x :: done) more
        | none => none
    else
      match newline? (c :: rest) with
      | some more => longBasicTail? fuel ('\n' :: done) more
      | none => if isText c then longBasicTail? fuel (c :: done) rest else none

/-- A literal string over several lines, from what follows its opening on. -/
def longLiteralTail? : Nat → List Char → List Char → Option (String × List Char)
  | 0, _, _ => none
  | _ + 1, _, [] => none
  | fuel + 1, done, c :: rest =>
    if c = '\'' then
      match closing? '\'' done (c :: rest) with
      | some r => some r
      | none => longLiteralTail? fuel (c :: done) rest
    else
      match newline? (c :: rest) with
      | some more => longLiteralTail? fuel ('\n' :: done) more
      | none => if isText c then longLiteralTail? fuel (c :: done) rest else none

/-- A text without a line end at its start. -/
def skipNewline (cs : List Char) : List Char :=
  (newline? cs).getD cs

/-- A string of any of the four kinds, if one starts here. No string is longer than `fuel`. -/
def string? (fuel : Nat) : List Char → Option (String × List Char)
  | '"' :: '"' :: '"' :: rest => longBasicTail? fuel [] (skipNewline rest)
  | '"' :: rest => basicTail? fuel [] rest
  | '\'' :: '\'' :: '\'' :: rest => longLiteralTail? fuel [] (skipNewline rest)
  | '\'' :: rest => literalTail? rest
  | _ => none

/-! ### Keys -/

/-- A character of a key without quotes. -/
def isBareKeyChar (c : Char) : Bool :=
  c.isAlphanum || c == '-' || c == '_'

/-- One part of a key, no longer than `fuel` if it is quoted. -/
def keyPart? (fuel : Nat) : List Char → Option (String × List Char)
  | '"' :: rest => basicTail? fuel [] rest
  | '\'' :: rest => literalTail? rest
  | cs =>
    let name := cs.takeWhile isBareKeyChar
    if name.isEmpty then none else some (String.ofList name, cs.drop name.length)

/-- The most levels that values nest, plus one. -/
def depthLimit : Nat := 80

/-- The parts of a key with points between them, the earlier ones in reverse, over at most `parts`
further ones. -/
def keyParts? (fuel : Nat) : Nat → List String → List Char → Option (List String × List Char)
  | 0, _, _ => none
  | parts + 1, done, cs =>
    match keyPart? fuel (skipBlanks cs) with
    | none => none
    | some (name, rest) =>
      match skipBlanks rest with
      | '.' :: more => keyParts? fuel parts (name :: done) more
      | rest => some ((name :: done).reverse, rest)

/-- A key: the names it leads through and the last one. -/
def key? (fuel : Nat) (cs : List Char) : Option (List String × String × List Char) :=
  match keyParts? fuel (depthLimit - 1) [] cs with
  | some (parts, rest) => parts.getLast?.map fun last ↦ (parts.dropLast, last, rest)
  | none => none

/-! ### Dates and times -/

/-- Exactly `width` digits of a number within bounds. -/
def fixed? (width low high : Nat) (cs : List Char) : Option (Nat × List Char) :=
  let ds := cs.take width
  let n := natOfDigits ds
  if ds.length = width && ds.all isDigit && low ≤ n && n ≤ high then some (n, cs.drop width)
  else none

/-- What follows a character at the start of a text. -/
def symbol? (c : Char) : List Char → Option (List Char)
  | [] => none
  | d :: rest => if d = c then some rest else none

/-- A calendar date. -/
def date? (cs : List Char) : Option (List Char) := do
  let (year, cs) ← fixed? 4 0 9999 cs
  let (month, cs) ← fixed? 2 1 12 (← symbol? '-' cs)
  let (_, cs) ← fixed? 2 1 (daysInMonth year month) (← symbol? '-' cs)
  some cs

/-- A time of day, possibly with a fraction of a second. -/
def time? (cs : List Char) : Option (List Char) := do
  let (_, cs) ← fixed? 2 0 23 cs
  let (_, cs) ← fixed? 2 0 59 (← symbol? ':' cs)
  let (_, cs) ← fixed? 2 0 60 (← symbol? ':' cs)
  match cs with
  | '.' :: rest =>
    let (ds, more) := digitRun rest
    if ds.isEmpty then none else some more
  | _ => some cs

/-- What follows a distance from universal time, if one starts here. -/
def offset? : List Char → Option (List Char)
  | [] => some []
  | c :: rest =>
    if c = 'Z' ∨ c = 'z' then some rest
    else if c = '+' ∨ c = '-' then do
      let (_, cs) ← fixed? 2 0 23 rest
      let (_, cs) ← fixed? 2 0 59 (← symbol? ':' cs)
      some cs
    else some (c :: rest)

/-- A date, a time, or both. A letter or a space stands between date and time. -/
def dateTime? (cs : List Char) : Option (List Char) :=
  match date? cs with
  | none => time? cs
  | some rest =>
    match rest with
    | [] => some []
    | c :: more =>
      if c = 'T' ∨ c = 't' ∨ c = ' ' then
        match time? more with
        | some afterTime => offset? afterTime
        | none => some rest
      else some rest

/-! ### Numbers -/

/-- Digits of a class with single underscores between them, and what follows them; `needed` says
that a digit must come next. -/
def digitTail? (isDigit : Char → Bool) : Bool → List Char → Option (List Char × List Char)
  | needed, [] => if needed then none else some ([], [])
  | needed, c :: rest =>
    if isDigit c then (digitTail? isDigit false rest).map fun (ds, tail) ↦ (c :: ds, tail)
    else if needed then none
    else if c = '_' then digitTail? isDigit true rest
    else some ([], c :: rest)

/-- One or more digits of a class with single underscores between them. -/
def digits? (isDigit : Char → Bool) (cs : List Char) : Option (List Char × List Char) :=
  digitTail? isDigit true cs

/-- Decimal digits of an integer: a zero stands alone. -/
def wholeDigits? : List Char → Option (List Char × List Char)
  | '0' :: rest => some (['0'], rest)
  | cs => digits? isDigit cs

/-- An optional sign at the start of a text. -/
def sign : List Char → Bool × List Char
  | '-' :: rest => (true, rest)
  | '+' :: rest => (false, rest)
  | cs => (false, cs)

/-- An integer that fits in a signed 64-bit word. -/
def fit? (n : Int) : Option Int :=
  if -0x8000000000000000 ≤ n ∧ n < 0x8000000000000000 then some n else none

/-- An integer in the base of a prefix. -/
def based? (base : Nat) (isDigit : Char → Bool) (cs : List Char) : Option (Int × List Char) := do
  let (ds, rest) ← digits? isDigit cs
  let n ← fit? (ds.foldl (fun n d ↦ base * n + (Json.hexValue? d).getD 0) 0 : Nat)
  some (n, rest)

/-- An integer. -/
def integer? : List Char → Option (Int × List Char)
  | '0' :: 'x' :: rest => based? 16 (fun c ↦ (Json.hexValue? c).isSome) rest
  | '0' :: 'o' :: rest => based? 8 (fun c ↦ '0' ≤ c && c ≤ '7') rest
  | '0' :: 'b' :: rest => based? 2 (fun c ↦ c == '0' || c == '1') rest
  | cs => do
    let (negative, cs) := sign cs
    let (ds, rest) ← wholeDigits? cs
    let n ← fit? (if negative then -(natOfDigits ds : Int) else natOfDigits ds)
    some (n, rest)

/-- The exponent of a float, if one starts here. -/
def exponent? : List Char → Option (Option Int × List Char)
  | [] => some (none, [])
  | c :: rest =>
    if c = 'e' ∨ c = 'E' then do
      let (negative, cs) := sign rest
      let (ds, more) ← digits? isDigit cs
      some (some (if negative then -(natOfDigits ds : Int) else natOfDigits ds), more)
    else some (none, c :: rest)

/-- The fraction of a float, if one starts here. -/
def fraction? : List Char → Option (Option (List Char) × List Char)
  | '.' :: rest => do
    let (ds, more) ← digits? isDigit rest
    some (some ds, more)
  | cs => some (none, cs)

/-- A float with digits. A magnitude beyond the format is refused above and infinite below. -/
def decimal? (cs : List Char) : Option (Binary64 × List Char) := do
  let (negative, cs) := sign cs
  let (whole, cs) ← wholeDigits? cs
  let (fraction, cs) ← fraction? cs
  let (exponent, cs) ← exponent? cs
  if fraction.isNone && exponent.isNone then none
  else
    let places := fraction.getD []
    let x := Binary64.ofDecimal negative (natOfDigits (whole ++ places))
      (exponent.getD 0 - places.length)
    if x = Binary64.infinity false then none else some (x, cs)

/-- A float. -/
def float? (cs : List Char) : Option (Binary64 × List Char) :=
  match decimal? cs with
  | some r => some r
  | none =>
    let (negative, rest) := sign cs
    match Json.expect? ['i', 'n', 'f'] rest with
    | some more => some (Binary64.infinity negative, more)
    | none =>
      (Json.expect? ['n', 'a', 'n'] rest).map fun more ↦
        (if negative then Binary64.nan.neg else Binary64.nan, more)

/-- A value that begins like a number: a date or time, a float or an integer. -/
def number? (cs : List Char) : Option (Value × List Char) :=
  match dateTime? cs with
  | some rest => some (.dateTime, rest)
  | none =>
    match float? cs with
    | some (x, rest) => some (.float x, rest)
    | none => (integer? cs).map fun (n, rest) ↦ (.integer n, rest)

/-! ### Values -/

mutual

/-- A value, over at most `fuel` steps and `depth` further levels. -/
def value? : Nat → Nat → List Char → Option (Value × List Char)
  | 0, _, _ => none
  | fuel + 1, depth, cs =>
    match cs with
    | [] => none
    | c :: rest =>
      if c = '"' ∨ c = '\'' then (string? fuel cs).map fun (s, t) ↦ (.string s, t)
      else if c = '[' then
        match depth with
        | 0 => none
        | depth + 1 =>
          match skipLines false rest with
          | ']' :: t => some (.array [], t)
          | start => items? fuel depth [] start
      else if c = '\x7b' then
        match depth with
        | 0 => none
        | depth + 1 =>
          match skipBlanks rest with
          | '\x7d' :: t => some (.table [], t)
          | start => members? fuel depth [] start
      else if c = 't' then (Json.expect? ['t', 'r', 'u', 'e'] cs).map fun t ↦ (.boolean true, t)
      else if c = 'f' then
        (Json.expect? ['f', 'a', 'l', 's', 'e'] cs).map fun t ↦ (.boolean false, t)
      else number? cs

/-- The items of an array from the next one on, the earlier ones in reverse. -/
def items? : Nat → Nat → List Value → List Char → Option (Value × List Char)
  | 0, _, _, _ => none
  | fuel + 1, depth, done, cs =>
    match value? fuel depth cs with
    | none => none
    | some (v, rest) =>
      match skipLines false rest with
      | ']' :: t => some (.array (v :: done).reverse, t)
      | ',' :: t =>
        match skipLines false t with
        | ']' :: more => some (.array (v :: done).reverse, more)
        | start => items? fuel depth (v :: done) start
      | _ => none

/-- The pairs of an inline table from the next one on, after the earlier ones. -/
def members? : Nat → Nat → Entries → List Char → Option (Value × List Char)
  | 0, _, _, _ => none
  | fuel + 1, depth, done, cs =>
    match key? fuel cs with
    | some (path, last, '=' :: afterEquals) =>
      match value? fuel depth (skipBlanks afterEquals) with
      | none => none
      | some (v, afterValue) =>
        match addPair path last v done with
        | none => none
        | some entries =>
          match skipBlanks afterValue with
          | ',' :: t => members? fuel depth entries t
          | '\x7d' :: t => some (.table (finishEntries entries), t)
          | _ => none
    | _ => none

end

/-! ### Documents -/

/-- A header, its first bracket taken. -/
def header? (fuel : Nat) (a : Assembly) (cs : List Char) : Option (Assembly × List Char) :=
  match cs with
  | '[' :: rest => do
    let (path, last, rest) ← key? fuel rest
    let rest ← symbol? ']' (← symbol? ']' rest)
    let rest ← lineEnd? rest
    some (← a.arrayHeader (path ++ [last]), rest)
  | _ => do
    let (path, last, rest) ← key? fuel cs
    let rest ← symbol? ']' rest
    let rest ← lineEnd? rest
    some (← a.header (path ++ [last]), rest)

/-- A pair and the end of its line. -/
def pair? (fuel : Nat) (a : Assembly) (cs : List Char) : Option (Assembly × List Char) := do
  let (path, last, rest) ← key? fuel cs
  let rest ← symbol? '=' rest
  let (v, rest) ← value? fuel (depthLimit - 1) (skipBlanks rest)
  let rest ← lineEnd? rest
  some (← a.pair path last v, rest)

/-- The lines of a document from the next one on, at most `lines` of them, none of which takes more
than `fuel` steps. -/
def document? (fuel : Nat) : Nat → Assembly → List Char → Option Table
  | 0, _, _ => none
  | lines + 1, a, cs =>
    match skipBlanks cs with
    | [] => a.finish
    | '#' :: rest =>
      match lineEnd? (rest.dropWhile isText) with
      | some more => document? fuel lines a more
      | none => none
    | '[' :: rest =>
      match header? fuel a rest with
      | some (b, more) => document? fuel lines b more
      | none => none
    | start =>
      match newline? start with
      | some more => document? fuel lines a more
      | none =>
        match pair? fuel a start with
        | some (b, more) => document? fuel lines b more
        | none => none

/-- The document a whole text stands for. A byte order mark at its start does not count. Every step
takes a character, and a value takes at most two steps for one. -/
def read? (text : String) : Option Table :=
  let cs := match text.toList with
    | '\ufeff' :: rest => rest
    | cs => cs
  let size := cs.length + 1
  document? (2 * size) size .start cs

end Logbook.Toml
