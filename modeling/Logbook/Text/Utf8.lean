/-!
# Reading UTF-8

Bytes are read as UTF-8 by what the lead byte promises (`Lead`): how many bytes follow it and in
which range the first of them must lie. Where a character breaks off, the longest part that could
have begun one is replaced by U+FFFD and reading goes on behind it (`lossy`); the strict
reading (`decode?`) has no such place.
-/

set_option autoImplicit false
set_option relaxedAutoImplicit false

namespace Logbook.Text.Utf8

/-- What a lead byte promises: its own bits of the code point, the bounds of the next byte, and how
many bytes follow after that one. -/
structure Lead where
  bits : Nat
  low : Nat
  high : Nat
  more : Nat

/-- The promise of a lead byte of a character of several bytes. -/
def lead? (b : UInt8) : Option Lead :=
  let n := b.toNat
  if 0xC2 ≤ n ∧ n ≤ 0xDF then some ⟨n - 0xC0, 0x80, 0xBF, 0⟩
  else if n = 0xE0 then some ⟨0, 0xA0, 0xBF, 1⟩
  else if n = 0xED then some ⟨13, 0x80, 0x9F, 1⟩
  else if 0xE1 ≤ n ∧ n ≤ 0xEF then some ⟨n - 0xE0, 0x80, 0xBF, 1⟩
  else if n = 0xF0 then some ⟨0, 0x90, 0xBF, 2⟩
  else if 0xF1 ≤ n ∧ n ≤ 0xF3 then some ⟨n - 0xF0, 0x80, 0xBF, 2⟩
  else if n = 0xF4 then some ⟨4, 0x80, 0x8F, 2⟩
  else none

/-- The character that stands for bytes that are none. -/
def replacement : Char := '\ufffd'

/-- What reading is in the middle of: nothing, or a character of which the code point so far, the
bounds of the next byte and the count of bytes after that one are known. -/
inductive Pending where
  | none
  | inside (bits : Nat) (low high : Nat) (more : Nat)

/-- What one byte adds: at most two characters (a replacement for what broke off, and a character
of its own), and what is pending afterwards. -/
def step : Pending → UInt8 → List Char × Pending
  | .none, b =>
    if b.toNat < 0x80 then ([Char.ofNat b.toNat], .none)
    else match lead? b with
      | some l => ([], .inside l.bits l.low l.high l.more)
      | none => ([replacement], .none)
  | .inside bits low high more, b =>
    if low ≤ b.toNat ∧ b.toNat ≤ high then
      let code := bits * 64 + b.toNat % 64
      match more with
      | 0 => ([Char.ofNat code], .none)
      | more + 1 => ([], .inside code 0x80 0xBF more)
    else if b.toNat < 0x80 then ([replacement, Char.ofNat b.toNat], .none)
    else match lead? b with
      | some l => ([replacement], .inside l.bits l.low l.high l.more)
      | none => ([replacement, replacement], .none)

/-- The characters read so far, in reverse, and what is pending. -/
abbrev State := List Char × Pending

/-- Reads one more byte. -/
def feed (s : State) (b : UInt8) : State :=
  let (cs, pending) := step s.2 b
  (cs.reverse ++ s.1, pending)

/-- The characters of a state whose bytes have come to their end. -/
def finish : State → List Char
  | (cs, .none) => cs.reverse
  | (cs, .inside ..) => (replacement :: cs).reverse

/-- The text bytes stand for, with a replacement for every part that stands for none. -/
def lossy (bytes : ByteArray) : String :=
  String.ofList (finish (bytes.foldl feed ([], .none)))

/-- The text bytes stand for, if all of them stand for one. -/
def decode? (bytes : ByteArray) : Option String :=
  String.fromUTF8? bytes

end Logbook.Text.Utf8
