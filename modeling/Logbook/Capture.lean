import Logbook.Json.Reader
import Logbook.Text.Utf8

/-!
# Captured output

Writers that keep what is written in memory. A writer is made fresh or from another one, with which
it then shares one buffer; what was written through any of them is read through all of them. Text
is decoded from all bytes of a buffer together, so a character may arrive in pieces.

A text is cut into lines behind every line feed. A line is shown without its line feed and without a
carriage return right before it; what follows the last line feed is a line of its own unless it is
empty.
-/

set_option autoImplicit false
set_option relaxedAutoImplicit false

namespace Logbook

/-! ### Lines -/

namespace Text

/-- A line, given in reverse, without a carriage return at its end. -/
def endLine : List Char → List Char
  | '\r' :: rest => rest.reverse
  | cs => cs.reverse

/-- The lines of a text, the current one given in reverse. -/
def linesFrom (current : List Char) (done : List (List Char)) : List Char → List (List Char)
  | [] => (if current.isEmpty then done else current.reverse :: done).reverse
  | '\n' :: rest => linesFrom [] (endLine current :: done) rest
  | c :: rest => linesFrom (c :: current) done rest

/-- The lines of a text. -/
def lines (text : List Char) : List (List Char) :=
  linesFrom [] [] text

end Text

/-! ### Writers in memory -/

/-- A group of writers in memory: for every writer its buffer, and the buffers. -/
structure Capture where
  owner : List Nat
  buffers : List ByteArray

namespace Capture

/-- One writer with an empty buffer. -/
def fresh : Capture := ⟨[0], [ByteArray.empty]⟩

/-- How many writers there are. -/
def size (c : Capture) : Nat := c.owner.length

/-- What happens to a group of writers. -/
inductive Action where
  /-- A writer with a buffer of its own joins. -/
  | new
  /-- A writer that shares the buffer of another joins. -/
  | share (writer : Nat)
  /-- Bytes are written through a writer. -/
  | write (writer : Nat) (bytes : ByteArray)

/-- The bytes written so far through a writer and all that share its buffer. -/
def bytes (c : Capture) (writer : Nat) : ByteArray :=
  match c.owner[writer]? with
  | some buffer => c.buffers.getD buffer ByteArray.empty
  | none => ByteArray.empty

/-- The group after an action. Actions through a writer that does not exist change nothing. -/
def step (c : Capture) : Action → Capture
  | .new => ⟨c.owner ++ [c.buffers.length], c.buffers ++ [ByteArray.empty]⟩
  | .share writer =>
    match c.owner[writer]? with
    | some buffer => { c with owner := c.owner ++ [buffer] }
    | none => c
  | .write writer bytes =>
    match c.owner[writer]? with
    | some buffer => { c with buffers := c.buffers.modify buffer (· ++ bytes) }
    | none => c

/-- The group after several actions. -/
def run (c : Capture) (actions : List Action) : Capture :=
  actions.foldl step c

/-- The text written so far through a writer and all that share its buffer. -/
def contents (c : Capture) (writer : Nat) : String :=
  Text.Utf8.lossy (c.bytes writer)

/-- The lines of what was written. -/
def lines (c : Capture) (writer : Nat) : List String :=
  (Text.lines (c.contents writer).toList).map String.ofList

/-- The lines that are JSON, as values; all others are skipped. -/
def jsonLines (c : Capture) (writer : Nat) : List Json.Value :=
  (c.lines writer).filterMap Json.read?

end Capture

end Logbook
