/-!
# Request targets

What a request is aimed at, in one of four forms: a path with an optional query, an asterisk, an
authority alone, or an absolute address. A text is read in one pass over its parts; a fragment is
cut off and does not count. Only the path decides which handler a request reaches (`Uri.path`).
-/

set_option autoImplicit false
set_option relaxedAutoImplicit false

namespace Logbook

/-- The target of a request. The path of the first form starts with a slash, and that of an absolute
address may be empty. -/
inductive Uri where
  | origin (path : String) (query : Option String)
  | asterisk
  | authority (authority : String)
  | absolute (scheme authority path : String) (query : Option String)
  deriving DecidableEq, Repr

namespace Uri

/-- The path of a target. An absolute address without one means the slash. -/
def path : Uri → String
  | origin path _ => path
  | asterisk => "*"
  | authority _ => ""
  | absolute _ _ path _ => if path.isEmpty then "/" else path

/-- A query behind its question mark. -/
def queryText : Option String → String
  | none => ""
  | some query => "?" ++ query

/-- The target as text. -/
def text (uri : Uri) : String :=
  match uri with
  | origin path query => path ++ queryText query
  | asterisk => "*"
  | authority a => a
  | absolute scheme a _ query => scheme ++ "://" ++ a ++ uri.path ++ queryText query

/-! ### Characters -/

/-- Whether a code point lies in one of several ranges. -/
def inRanges (ranges : List (Nat × Nat)) (c : Char) : Bool :=
  ranges.any fun r ↦ r.1 ≤ c.toNat && c.toNat ≤ r.2

/-- A character of a query. Everything beyond the ASCII range is one. -/
def isQueryChar (c : Char) : Bool :=
  inRanges [(0x21, 0x21), (0x24, 0x3B), (0x3D, 0x3D), (0x3F, 0x7E)] c || 0x80 ≤ c.toNat

/-- A character of a path. Everything beyond the ASCII range is one. -/
def isPathChar (c : Char) : Bool :=
  c == '"' || inRanges [(0x21, 0x21), (0x24, 0x3B), (0x3D, 0x3D), (0x40, 0x5F), (0x61, 0x7E)] c ||
    0x80 ≤ c.toNat

/-- A character of a scheme. -/
def isSchemeChar (c : Char) : Bool :=
  c.isAlphanum || ['+', '-', '.', '~'].contains c

/-- A character of an authority, apart from the percent sign. -/
def isAuthorityChar (c : Char) : Bool :=
  c.isAlphanum || "!$&'()*+,-.:;=@[]_~".toList.contains c

/-- A character that ends an authority. -/
def endsAuthority (c : Char) : Bool :=
  c == '/' || c == '?' || c == '#'

/-! ### Reading -/

/-- A path and a query, up to a fragment. -/
def pathAndQuery? (cs : List Char) : Option (String × Option String) :=
  let kept := cs.takeWhile (· != '#')
  let path := kept.takeWhile (· != '?')
  if !path.all isPathChar then none
  else match kept.drop path.length with
    | [] => some (String.ofList path, none)
    | _ :: query =>
      if query.all isQueryChar then some (String.ofList path, some (String.ofList query)) else none

/-- What is known of an authority whose characters have been read up to some place: the colons that
could stand before a port, whether a bracket has been opened and closed, whether a percent sign
belongs to the host so far, and whether an at sign came last. -/
structure AuthorityScan where
  colons : Nat := 0
  opened : Bool := false
  closed : Bool := false
  percent : Bool := false
  atEnd : Bool := false

namespace AuthorityScan

/-- One more character of an authority. What stood before an at sign or a closing bracket says
nothing about the port. -/
def step (s : AuthorityScan) (c : Char) : Option AuthorityScan :=
  if c = ':' then
    if s.colons < 8 then some { s with colons := s.colons + 1, atEnd := false } else none
  else if c = '[' then
    if s.percent || s.opened then none else some { s with opened := true, atEnd := false }
  else if c = ']' then
    if !s.opened || s.closed then none
    else some { s with closed := true, colons := 0, percent := false, atEnd := false }
  else if c = '@' then some { s with colons := 0, percent := false, atEnd := true }
  else if c = '%' then some { s with percent := true, atEnd := false }
  else if isAuthorityChar c then some { s with atEnd := false }
  else none

/-- Whether an authority may end here. -/
def isComplete (s : AuthorityScan) : Bool :=
  s.opened == s.closed && s.colons ≤ 1 && !s.atEnd && !s.percent

end AuthorityScan

/-- An authority, possibly an empty one, and what follows it. -/
def authority? (cs : List Char) : Option (String × List Char) := do
  let own := cs.takeWhile fun c ↦ !endsAuthority c
  let scan ← own.foldlM AuthorityScan.step {}
  if scan.isComplete then some (String.ofList own, cs.drop own.length) else none

/-- A scheme and what follows its `://`. The two common ones are taken in any letter case. Nothing
shorter than four characters has one. -/
def scheme? (cs : List Char) : Option (String × List Char) :=
  let name := cs.takeWhile isSchemeChar
  if cs.length ≤ 3 then none
  else match cs.drop name.length with
    | ':' :: '/' :: '/' :: rest =>
      let lower := String.ofList (name.map Char.toLower)
      some (if lower = "http" ∨ lower = "https" then lower else String.ofList name, rest)
    | _ => none

/-- The longest scheme. -/
def schemeLimit : Nat := 64

/-- The most bytes of a target. -/
def sizeLimit : Nat := 65534

/-- A target that begins with neither a slash nor is an asterisk. -/
def full? (cs : List Char) : Option Uri :=
  match scheme? cs with
  | none =>
    match authority? cs with
    | some (a, []) => if a.isEmpty then none else some (.authority a)
    | _ => none
  | some (scheme, rest) =>
    if schemeLimit < scheme.length then none
    else do
      let (a, rest) ← authority? rest
      if a.isEmpty then none
      else
        let (path, query) ← pathAndQuery? rest
        some (.absolute scheme a path query)

/-- The target a text stands for. -/
def read? (text : String) : Option Uri :=
  if sizeLimit < text.utf8ByteSize then none
  else match text.toList with
    | ['*'] => some .asterisk
    | '/' :: rest => (pathAndQuery? ('/' :: rest)).map fun (path, query) ↦ .origin path query
    | cs => full? cs

end Uri

end Logbook
