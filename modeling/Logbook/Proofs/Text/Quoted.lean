import Logbook.Json.Reader
import Logbook.Text.CharClass
import Mathlib.Tactic

/-!
# Quoted text is read back

A reader of quoted text goes from character to character (`unquoteStep`): behind a backslash stands
a letter for a character or a code point in hexadecimal, and the first quote that is not behind a
backslash ends the text. What was quoted is read back as it was, whatever follows
(`unquote_quotedChars`).
-/

set_option autoImplicit false
set_option relaxedAutoImplicit false

namespace Logbook.Text

/-- Where a reader of quoted text stands: among characters, behind a backslash, or in a code point
of which some digits have been read. -/
inductive Mark where
  | plain
  | escape
  | codePoint (n : Nat)
  deriving DecidableEq, Repr

/-- The character that a letter behind a backslash stands for. -/
def unescape (c : Char) : Char :=
  if c = 'n' then '\n'
  else if c = 'r' then '\r'
  else if c = 't' then '\t'
  else if c = '0' then '\x00'
  else c

/-- What one character of a quoted text adds and where the reader stands then, unless the text
ends. -/
def unquoteStep : Mark → Char → Option (List Char × Mark)
  | .plain, c =>
    if c = '"' then none else if c = '\\' then some ([], .escape) else some ([c], .plain)
  | .escape, c => if c = 'u' then some ([], .codePoint 0) else some ([unescape c], .plain)
  | .codePoint n, c =>
    if c = '\x7b' then some ([], .codePoint n)
    else if c = '\x7d' then some ([Char.ofNat n], .plain)
    else some ([], .codePoint (16 * n + (Json.hexValue? c).getD 0))

/-- Reads quoted text behind its opening quote: the text and what follows its closing quote, if
there is one. -/
def unquote (mark : Mark) : List Char → Option (List Char × List Char)
  | [] => none
  | c :: rest =>
    match unquoteStep mark c with
    | none => some ([], rest)
    | some (read, next) => (unquote next rest).map fun p ↦ (read ++ p.1, p.2)

/-! ### Characters -/

theorem hexValue?_digitChar : ∀ n < 16, Json.hexValue? (Nat.digitChar n) = some n := by
  decide

/-- A digit is neither of the braces around a code point. -/
theorem digitChar_ne_brace : ∀ n < 16, Nat.digitChar n ≠ '\x7b' ∧ Nat.digitChar n ≠ '\x7d' := by
  decide

theorem unquote_digitChar {n d : Nat} (hd : d < 16) (rest : List Char) :
    unquote (.codePoint n) (Nat.digitChar d :: rest) = unquote (.codePoint (16 * n + d)) rest := by
  obtain ⟨hopen, hclose⟩ := digitChar_ne_brace d hd
  rw [unquote, unquoteStep, if_neg hopen, if_neg hclose, hexValue?_digitChar d hd]
  simp

/-- The digits of a number are read as the number. -/
theorem unquote_toDigits (n : Nat) (rest : List Char) :
    unquote (.codePoint 0) (Nat.toDigits 16 n ++ rest) = unquote (.codePoint n) rest := by
  induction n using Nat.strongRecOn generalizing rest with
  | _ n ih =>
    rw [Nat.toDigits_eq_if (by decide)]
    split_ifs with hsmall
    · rw [List.singleton_append, unquote_digitChar hsmall, Nat.mul_zero, Nat.zero_add]
    · have hlast : n % 16 < 16 := Nat.mod_lt n (by decide)
      rw [List.append_assoc, ih (n / 16) (by omega), List.singleton_append, unquote_digitChar hlast,
        Nat.div_add_mod]

/-- A letter behind a backslash is read as what it stands for. -/
theorem unquote_letter {letter c : Char} (hletter : letter ≠ 'u') (h : unescape letter = c)
    (rest : List Char) :
    unquote .plain (['\\', letter] ++ rest) =
      (unquote .plain rest).map fun p ↦ (c :: p.1, p.2) := by
  subst h
  simp [unquote, unquoteStep, hletter, Function.comp_def]

/-- One character is read back as itself. -/
theorem unquote_quoteChar (c : Char) (rest : List Char) :
    unquote .plain (quoteChar c ++ rest) = (unquote .plain rest).map fun p ↦ (c :: p.1, p.2) := by
  unfold quoteChar
  split_ifs with hquote hbackslash hfeed hreturn htab hnull hvisible
  · subst hquote
    exact unquote_letter (by decide) rfl rest
  · subst hbackslash
    exact unquote_letter (by decide) rfl rest
  · subst hfeed
    exact unquote_letter (by decide) rfl rest
  · subst hreturn
    exact unquote_letter (by decide) rfl rest
  · subst htab
    exact unquote_letter (by decide) rfl rest
  · subst hnull
    exact unquote_letter (by decide) rfl rest
  · rw [List.singleton_append, unquote, unquoteStep, if_neg hquote, if_neg hbackslash]
    rfl
  · have hopen : unquote .plain (codePointEscape c ++ rest) =
        unquote (.codePoint 0) (Nat.toDigits 16 c.toNat ++ '\x7d' :: rest) := by
      simp [codePointEscape, unquote, unquoteStep]
    rw [hopen, unquote_toDigits, unquote]
    simp [unquoteStep]

/-! ### Texts -/

/-- What was put between quotes is read back, whatever follows. -/
theorem unquote_quotedChars (s rest : List Char) :
    ∃ tail, quotedChars s ++ rest = '"' :: tail ∧ unquote .plain tail = some (s, rest) := by
  refine ⟨s.flatMap quoteChar ++ '"' :: rest, by simp [quotedChars], ?_⟩
  induction s with
  | nil => rfl
  | cons c s ih =>
    rw [List.flatMap_cons, List.append_assoc, unquote_quoteChar, ih]
    rfl

end Logbook.Text
