import Logbook.Json.Reader

/-!
# Socket addresses

An address and a port: four decimal octets without leading zeros, or eight hexadecimal groups in
brackets, of which one run of zeros may be left out (`::`) and the last two may be written as four
octets. An address in brackets may carry a numeric scope. Readers take their part off the front of a
text and return what is left.
-/

set_option autoImplicit false
set_option relaxedAutoImplicit false

namespace Logbook

/-- The address of a socket. -/
inductive SocketAddress where
  | v4 (octets : List Nat) (port : Nat)
  | v6 (groups : List Nat) (scope port : Nat)
  deriving DecidableEq, Repr

namespace SocketAddress

/-- What follows a character at the start of a text. -/
def char? (c : Char) : List Char → Option (List Char)
  | [] => none
  | d :: rest => if d = c then some rest else none

/-- A decimal number below a bound, with as many digits as there are. -/
def decimal? (bound : Nat) (cs : List Char) : Option (Nat × List Char) :=
  let (ds, rest) := Decimal.digitRun cs
  let n := Decimal.natOfDigits ds
  if ds.isEmpty || bound ≤ n then none else some (n, rest)

/-- An octet: one to three digits without a leading zero. -/
def octet? (cs : List Char) : Option (Nat × List Char) :=
  let (ds, rest) := Decimal.digitRun cs
  let n := Decimal.natOfDigits ds
  if ds.isEmpty || 3 < ds.length || (ds.head? == some '0' && 1 < ds.length) || 256 ≤ n then none
  else some (n, rest)

/-- Four octets with points between them. -/
def octets? (cs : List Char) : Option (List Nat × List Char) := do
  let (a, cs) ← octet? cs
  let (b, cs) ← octet? (← char? '.' cs)
  let (c, cs) ← octet? (← char? '.' cs)
  let (d, cs) ← octet? (← char? '.' cs)
  some ([a, b, c, d], cs)

/-- Whether a character is a hexadecimal digit. -/
def isHexDigit (c : Char) : Bool :=
  (Json.hexValue? c).isSome

/-- A group of one to four hexadecimal digits. -/
def group? (cs : List Char) : Option (Nat × List Char) :=
  let ds := cs.takeWhile isHexDigit
  if ds.isEmpty || 4 < ds.length then none
  else some (ds.foldl (fun n d ↦ 16 * n + (Json.hexValue? d).getD 0) 0, cs.drop ds.length)

/-- At most `limit` groups with colons between them, and whether they end in four octets, which
count as two groups. `first` says that no colon comes before the next group. -/
def groups (first : Bool) : Nat → List Char → List Nat × Bool × List Char
  | 0, cs => ([], false, cs)
  | limit + 1, cs =>
    match if first then some cs else char? ':' cs with
    | none => ([], false, cs)
    | some start =>
      match if limit = 0 then none else octets? start with
      | some ([a, b, c, d], rest) => ([a * 256 + b, c * 256 + d], true, rest)
      | _ =>
        match group? start with
        | none => ([], false, cs)
        | some (g, rest) =>
          let (gs, mixed, tail) := groups false limit rest
          (g :: gs, mixed, tail)

/-- Eight groups, of which a run of zeros may be left out. -/
def address6? (cs : List Char) : Option (List Nat × List Char) :=
  let (head, mixed, rest) := groups true 8 cs
  if head.length = 8 then some (head, rest)
  else if mixed then none
  else do
    let rest ← char? ':' (← char? ':' rest)
    let (tail, _, rest) := groups true (7 - head.length) rest
    some (head ++ List.replicate (8 - head.length - tail.length) 0 ++ tail, rest)

/-- A port behind a colon. -/
def port? (cs : List Char) : Option (Nat × List Char) := do
  decimal? UInt16.size (← char? ':' cs)

/-- A scope behind a percent sign, or zero. -/
def scope (cs : List Char) : Nat × List Char :=
  match (char? '%' cs).bind (decimal? UInt32.size) with
  | some (n, rest) => (n, rest)
  | none => (0, cs)

/-- An address of four octets and a port. -/
def v4? (cs : List Char) : Option (SocketAddress × List Char) := do
  let (octets, cs) ← octets? cs
  let (port, cs) ← port? cs
  some (.v4 octets port, cs)

/-- An address of eight groups and a port. -/
def v6? (cs : List Char) : Option (SocketAddress × List Char) := do
  let (groups, cs) ← address6? (← char? '[' cs)
  let (scope, cs) := scope cs
  let (port, cs) ← port? (← char? ']' cs)
  some (.v6 groups scope port, cs)

/-- The socket address a whole text stands for. -/
def read? (text : String) : Option SocketAddress :=
  let cs := text.toList
  match (v4? cs).or (v6? cs) with
  | some (a, []) => some a
  | _ => none

end SocketAddress

end Logbook
