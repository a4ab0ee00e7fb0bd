import Logbook.Json.Writer
import Logbook.Proofs.Text.HexDigits

/-!
# Spellings of strings in JSON

A text has many spellings as a string literal (`SpelledText`): every character but a quote, a
backslash and a control character may stand for itself, eight have a letter behind a backslash, and
all of them can be written in UTF-16 code units of four hexadecimal digits, one for a character of
the basic plane and two for any other. Each spelling is read back as the text
(`stringTail?_spelled`). The literals of the writer are one way to spell it
(`spelledText_escaped`), so they are read back, too (`exists_stringChars`).
-/

set_option autoImplicit false
set_option relaxedAutoImplicit false

namespace Logbook.Json

/-! ### Spellings -/

/-- The characters that have a letter behind a backslash, with their letters. -/
def letterEscapes : List (Char × Char) :=
  [('"', '"'), ('\\', '\\'), ('/', '/'), ('\x08', 'b'), ('\x0c', 'f'), ('\n', 'n'), ('\r', 'r'),
    ('\t', 't')]

/-- The ways to write a code unit: four hexadecimal digits, each in either letter case. -/
structure SpelledUnit (n : Nat) (ds : List Char) : Prop where
  length : ds.length = 4
  digits : ds.map Char.toLower = (Nat.toDigits 16 n).leftpad 4 '0'

/-- The ways to write one character between the quotes of a string literal. -/
inductive SpelledChar (c : Char) : List Char → Prop
  | plain (hcontrol : 0x20 ≤ c.toNat) (hquote : c ≠ '"') (hbackslash : c ≠ '\\') : SpelledChar c [c]
  | letter {l : Char} (hletter : (c, l) ∈ letterEscapes) : SpelledChar c ['\\', l]
  | codeUnit {ds : List Char} (hunit : SpelledUnit c.toNat ds) : SpelledChar c ('\\' :: 'u' :: ds)
  | surrogates {high low : Nat} {ds es : List Char} (hhigh : 0xD800 ≤ high ∧ high < 0xDC00)
      (hlow : 0xDC00 ≤ low ∧ low < 0xE000)
      (hcode : c.toNat = 0x10000 + (high - 0xD800) * 0x400 + (low - 0xDC00))
      (hfirst : SpelledUnit high ds) (hsecond : SpelledUnit low es) :
      SpelledChar c ('\\' :: 'u' :: (ds ++ '\\' :: 'u' :: es))

/-- The ways to write a text between the quotes of a string literal. -/
inductive SpelledText : List Char → List Char → Prop
  | nil : SpelledText [] []
  | cons {c : Char} {s cs ds : List Char} (hc : SpelledChar c cs) (hs : SpelledText s ds) :
      SpelledText (c :: s) (cs ++ ds)

/-! ### Code units -/

/-- A code unit is read from any of its spellings. -/
theorem SpelledUnit.exists_hex4? {n : Nat} {ds : List Char} (h : SpelledUnit n ds) :
    ∃ a b c d, ds = [a, b, c, d] ∧ hex4? a b c d = some n := by
  obtain ⟨values, hvalues, hfold⟩ := Text.exists_hexValues_of_toLower h.digits
  obtain ⟨a, b, c, d, rfl⟩ : ∃ a b c d, ds = [a, b, c, d] := by
    have hlength := h.length
    match ds, hlength with
    | [a, b, c, d], _ => exact ⟨a, b, c, d, rfl⟩
  refine ⟨a, b, c, d, rfl, ?_⟩
  simp only [List.mapM_cons, List.mapM_nil, Option.bind_eq_bind, Option.pure_def,
    Option.bind_eq_some_iff, Option.some.injEq] at hvalues
  obtain ⟨va, ha, _, ⟨vb, hb, _, ⟨vc, hc, _, ⟨vd, hd, _, rfl, rfl⟩, rfl⟩, rfl⟩, rfl⟩ := hvalues
  rw [hex4?, ha, hb, hc, hd]
  simp only [List.foldl_cons, List.foldl_nil] at hfold
  simp only [Option.bind_eq_bind, Option.bind_some, Option.pure_def, Option.some.injEq]
  omega

/-! ### Strings -/

variable {c : Char} {s cs : List Char}

/-- A character is read off the front of a string, however it is spelled. -/
theorem stringTail?_spelledChar (h : SpelledChar c cs) (done rest : List Char) :
    stringTail? done (cs ++ rest) = stringTail? (c :: done) rest := by
  cases h with
  | plain hcontrol hquote hbackslash =>
    rw [List.singleton_append, stringTail?, if_neg (by simp [hcontrol, hbackslash])]
    · exact hquote
    · rintro a b d e r rfl
      exact absurd rfl hbackslash
    · rintro d r rfl
      exact absurd rfl hbackslash
  | letter hletter =>
    simp only [letterEscapes, List.mem_cons, Prod.mk.injEq, List.not_mem_nil, or_false] at hletter
    rcases hletter with ⟨rfl, rfl⟩ | ⟨rfl, rfl⟩ | ⟨rfl, rfl⟩ | ⟨rfl, rfl⟩ | ⟨rfl, rfl⟩ |
      ⟨rfl, rfl⟩ | ⟨rfl, rfl⟩ | ⟨rfl, rfl⟩ <;> simp [stringTail?, unescape?]
  | codeUnit hunit =>
    obtain ⟨a, b, d, e, rfl, hhex⟩ := hunit.exists_hex4?
    have hvalid : c.toNat < 0xD800 ∨ 0xDFFF < c.toNat ∧ c.toNat < 0x110000 := c.valid
    have hlow : ¬(0xDC00 ≤ c.toNat ∧ c.toNat < 0xE000) := by omega
    have hhigh : ¬(0xD800 ≤ c.toNat ∧ c.toNat < 0xDC00) := by omega
    simp only [List.cons_append, List.nil_append, stringTail?, hhex, if_neg hlow, if_neg hhigh,
      Char.ofNat_toNat]
  | @surrogates high low ds es hhigh hlow hcode hfirst hsecond =>
    obtain ⟨a, b, d, e, rfl, hhex⟩ := hfirst.exists_hex4?
    obtain ⟨a', b', d', e', rfl, hhex'⟩ := hsecond.exists_hex4?
    have hnotLow : ¬(0xDC00 ≤ high ∧ high < 0xE000) := by omega
    simp only [List.cons_append, List.nil_append, stringTail?, hhex, hhex', if_neg hnotLow,
      if_pos hhigh, if_pos hlow, ← hcode, Char.ofNat_toNat]

/-- A text is read back from any of its spellings, whatever follows its closing quote. -/
theorem stringTail?_spelled (h : SpelledText s cs) (done rest : List Char) :
    stringTail? done (cs ++ '"' :: rest) = some (done.reverse ++ s, rest) := by
  induction h generalizing done with
  | nil => simp [stringTail?]
  | cons hc _ ih =>
    rw [List.append_assoc, stringTail?_spelledChar hc, ih, List.reverse_cons, List.append_assoc,
      List.singleton_append]

/-! ### The writer's spelling -/

theorem spelledUnit_hexChar : ∀ n < 0x20, SpelledUnit n ['0', '0', hexChar (n / 16), hexChar n] := by
  have hdigits : ∀ n < 0x20, ['0', '0', hexChar (n / 16), hexChar n].map Char.toLower =
      (Nat.toDigits 16 n).leftpad 4 '0' := by
    decide
  exact fun n hn ↦ ⟨rfl, hdigits n hn⟩

theorem spelledChar_escapeChar (c : Char) : SpelledChar c (escapeChar c) := by
  unfold escapeChar
  split_ifs with hquote hbackslash hfeed hreturn htab hback hform hcontrol
  · exact .letter (l := '"') (by simp [hquote, letterEscapes])
  · exact .letter (l := '\\') (by simp [hbackslash, letterEscapes])
  · exact .letter (l := 'n') (by simp [hfeed, letterEscapes])
  · exact .letter (l := 'r') (by simp [hreturn, letterEscapes])
  · exact .letter (l := 't') (by simp [htab, letterEscapes])
  · exact .letter (l := 'b') (by simp [hback, letterEscapes])
  · exact .letter (l := 'f') (by simp [hform, letterEscapes])
  · exact .codeUnit (spelledUnit_hexChar c.toNat hcontrol)
  · exact .plain (Nat.le_of_not_lt hcontrol) hquote hbackslash

/-- What the writer puts between the quotes spells the text. -/
theorem spelledText_escaped (s : List Char) : SpelledText s (s.flatMap escapeChar) := by
  induction s with
  | nil => exact .nil
  | cons c s ih => exact .cons (spelledChar_escapeChar c) ih

/-- A string literal is its opening quote and what reads back as the string. -/
theorem exists_stringChars (s rest : List Char) : ∃ tail,
    stringChars s ++ rest = '"' :: tail ∧ stringTail? [] tail = some (s, rest) := by
  refine ⟨s.flatMap escapeChar ++ '"' :: rest, by simp [stringChars], ?_⟩
  exact stringTail?_spelled (spelledText_escaped s) [] rest

end Logbook.Json
