import Logbook.Proofs.Json.Numbers
import Logbook.Proofs.Text.HexDigits
import Logbook.Toml.Reader

/-!
# Spellings of values

A text has many spellings as a basic string (`SpelledText`): every character but a quote, a
backslash and a control character may stand for itself, some have a letter behind a backslash, and
all of them have a code point of four or eight hexadecimal digits in either letter case. Each
spelling is read back as the text (`basicTail?_spelled`). Naturals and truth values have one
spelling each, and a value that is spelled at the end of a line is read back (`value?_spelled`).
-/

set_option autoImplicit false
set_option relaxedAutoImplicit false

namespace Logbook.Toml

open Decimal (isDigit natOfDigits digitRun isDigit_of_mem_toDigits natOfDigits_toDigits)
open Json (hexValue?)

/-! ### Spellings -/

/-- The characters that have a letter behind a backslash, with their letters. -/
def letterEscapes : List (Char × Char) :=
  [('\x08', 'b'), ('\t', 't'), ('\n', 'n'), ('\x0c', 'f'), ('\r', 'r'), ('"', '"'), ('\\', '\\')]

/-- The letters that announce a code point behind a backslash, with the counts of its digits. -/
def codePointEscapes : List (Char × Nat) :=
  [('u', 4), ('U', 8)]

/-- The ways to write one character between the quotes of a basic string. -/
inductive SpelledChar (c : Char) : List Char → Prop
  | plain (htext : isText c = true) (hquote : c ≠ '"') (hbackslash : c ≠ '\\') : SpelledChar c [c]
  | letter {l : Char} (hletter : (c, l) ∈ letterEscapes) : SpelledChar c ['\\', l]
  | codePoint {l : Char} {width : Nat} {ds : List Char} (hletter : (l, width) ∈ codePointEscapes)
      (hlength : ds.length = width)
      (hdigits : ds.map Char.toLower = (Nat.toDigits 16 c.toNat).leftpad width '0') :
      SpelledChar c ('\\' :: l :: ds)

/-- The ways to write a text between the quotes of a basic string. -/
inductive SpelledText : List Char → List Char → Prop
  | nil : SpelledText [] []
  | cons {c : Char} {s cs ds : List Char} (hc : SpelledChar c cs) (hs : SpelledText s ds) :
      SpelledText (c :: s) (cs ++ ds)

/-- The ways to write a value on one line: a text as a basic string, a natural by its digits, a
truth value by its name. -/
inductive SpelledValue : Value → List Char → Prop
  | string {s : String} {cs : List Char} (hs : SpelledText s.toList cs) :
      SpelledValue (.string s) ('"' :: cs ++ ['"'])
  | natural (n : Nat) : SpelledValue (.integer n) (Nat.toDigits 10 n)
  | yes : SpelledValue (.boolean true) ['t', 'r', 'u', 'e']
  | no : SpelledValue (.boolean false) ['f', 'a', 'l', 's', 'e']

/-! ### Code points -/

/-- The digits of a character's code point, filled up with zeros and in either letter case, are read
as the character. -/
theorem unicode?_of_digits {c : Char} {width : Nat} {ds : List Char}
    (h : ds.map Char.toLower = (Nat.toDigits 16 c.toNat).leftpad width '0') :
    unicode? ds = some c := by
  obtain ⟨values, hvalues, hfold⟩ := Text.exists_hexValues_of_toLower h
  have hvalid : c.toNat.isValidChar := c.valid
  rw [unicode?, hvalues]
  simp only [Option.bind_eq_bind, Option.bind_some, hfold]
  rw [if_pos hvalid, Char.ofNat_toNat]

/-! ### Basic strings -/

/-- An escape is read as its character, whatever follows. -/
theorem escape?_letter {c l : Char} (h : (c, l) ∈ letterEscapes) (rest : List Char) :
    escape? (l :: rest) = some (c, rest) := by
  simp only [letterEscapes, List.mem_cons, Prod.mk.injEq, List.not_mem_nil, or_false] at h
  rcases h with ⟨rfl, rfl⟩ | ⟨rfl, rfl⟩ | ⟨rfl, rfl⟩ | ⟨rfl, rfl⟩ | ⟨rfl, rfl⟩ | ⟨rfl, rfl⟩ |
    ⟨rfl, rfl⟩ <;> rfl

theorem escape?_codePoint {c l : Char} {width : Nat} {ds : List Char}
    (hletter : (l, width) ∈ codePointEscapes) (hlength : ds.length = width)
    (hdigits : ds.map Char.toLower = (Nat.toDigits 16 c.toNat).leftpad width '0')
    (rest : List Char) : escape? (l :: (ds ++ rest)) = some (c, rest) := by
  have hunicode := unicode?_of_digits hdigits
  have hlong : ¬(ds ++ rest).length < width := by
    rw [List.length_append]
    omega
  have htake : (ds ++ rest).take width = ds := List.take_left' hlength
  have hdrop : (ds ++ rest).drop width = rest := List.drop_left' hlength
  simp only [codePointEscapes, List.mem_cons, Prod.mk.injEq, List.not_mem_nil, or_false] at hletter
  rcases hletter with ⟨rfl, rfl⟩ | ⟨rfl, rfl⟩ <;>
    rw [escape?, if_neg hlong, htake, hdrop, hunicode, Option.map_some]

variable {c : Char} {s cs : List Char}

/-- A character is read in one step, however it is spelled. -/
theorem basicTail?_spelledChar (h : SpelledChar c cs) (fuel : Nat) (done rest : List Char) :
    basicTail? (fuel + 1) done (cs ++ rest) = basicTail? fuel (c :: done) rest := by
  cases h with
  | plain htext hquote hbackslash =>
    rw [List.singleton_append, basicTail?, if_neg hquote, if_neg hbackslash, if_pos htext]
  | letter hletter =>
    rw [List.cons_append, List.singleton_append, basicTail?, if_neg (by decide), if_pos rfl,
      escape?_letter hletter]
  | codePoint hletter hlength hdigits =>
    rw [List.cons_append, List.cons_append, basicTail?, if_neg (by decide), if_pos rfl,
      escape?_codePoint hletter hlength hdigits]

/-- A text is read back from any of its spellings, whatever follows its closing quote. -/
theorem basicTail?_spelled (h : SpelledText s cs) {fuel : Nat} (hfuel : s.length < fuel)
    (done rest : List Char) :
    basicTail? fuel done (cs ++ '"' :: rest) =
      some (String.ofList (done.reverse ++ s), rest) := by
  induction h generalizing fuel done with
  | nil =>
    obtain ⟨fuel, rfl⟩ := Nat.exists_eq_succ_of_ne_zero (Nat.ne_zero_of_lt hfuel)
    rw [List.nil_append, basicTail?, if_pos rfl, List.append_nil]
  | @cons c s cs ds hc _ ih =>
    obtain ⟨fuel, rfl⟩ := Nat.exists_eq_succ_of_ne_zero (Nat.ne_zero_of_lt hfuel)
    rw [List.append_assoc, Nat.succ_eq_add_one, basicTail?_spelledChar hc,
      ih (Nat.lt_of_succ_lt_succ hfuel), List.reverse_cons, List.append_assoc,
      List.singleton_append]

theorem SpelledChar.length_pos (h : SpelledChar c cs) : 0 < cs.length := by
  cases h <;> exact Nat.succ_pos _

theorem SpelledText.length_le (h : SpelledText s cs) : s.length ≤ cs.length := by
  induction h with
  | nil => exact le_rfl
  | cons hc _ ih =>
    have := hc.length_pos
    rw [List.length_cons, List.length_append]
    omega

/-- No spelling begins with a quote. -/
theorem SpelledText.head?_ne (h : SpelledText s cs) : cs.head? ≠ some '"' := by
  cases h with
  | nil => simp
  | cons hc _ =>
    cases hc with
    | plain _ hquote _ => simpa using hquote
    | letter _ => simp
    | codePoint _ _ _ => simp

theorem string?_basic {s : String} (h : SpelledText s.toList cs) {fuel : Nat}
    (hfuel : s.toList.length < fuel) {rest : List Char} (hrest : rest.head? ≠ some '"') :
    string? fuel ('"' :: (cs ++ '"' :: rest)) = some (s, rest) := by
  have hhead := h.head?_ne
  rw [string?]
  · rw [basicTail?_spelled h hfuel, List.reverse_nil, List.nil_append, String.ofList_toList]
  · -- three quotes would be those of an empty text and one that follows
    intro more heq
    cases cs with
    | nil =>
      rw [List.nil_append, List.cons.injEq] at heq
      exact hrest (by rw [heq.2]; rfl)
    | cons d ds =>
      rw [List.cons_append, List.cons.injEq] at heq
      exact hhead (by rw [heq.1]; rfl)

/-! ### Naturals -/

variable {ds rest : List Char}

/-- A digit is no sign and no letter. -/
theorem ne_of_isDigit {d : Char} (hd : isDigit d = true) (hc : isDigit c = false) : d ≠ c := by
  rintro rfl
  rw [hd] at hc
  exact Bool.noConfusion hc

/-- Digits of a width are taken only off other digits. -/
theorem exists_of_fixed? (hds : ∀ d ∈ ds, isDigit d = true) {width low high n : Nat}
    {more : List Char} (h : fixed? width low high (ds ++ '\n' :: rest) = some (n, more)) :
    ∃ es, (∀ d ∈ es, isDigit d = true) ∧ more = es ++ '\n' :: rest := by
  unfold fixed? at h
  simp only [Bool.and_eq_true, decide_eq_true_eq, Option.ite_none_right_eq_some] at h
  obtain ⟨⟨⟨⟨hlength, hall⟩, -⟩, -⟩, hmore⟩ := h
  have hwidth : width ≤ ds.length := by
    by_contra hlong
    have hfeed : '\n' ∈ (ds ++ '\n' :: rest).take width := by
      rw [List.take_append, List.take_cons (by omega)]
      exact List.mem_append_right _ List.mem_cons_self
    exact Bool.noConfusion (List.all_eq_true.mp hall '\n' hfeed)
  refine ⟨ds.drop width, fun d hd ↦ hds d (List.mem_of_mem_drop hd), ?_⟩
  rw [← List.drop_append_of_le_length hwidth]
  exact (Prod.mk.inj (Option.some.inj hmore)).2.symm

/-- A mark between numbers does not stand after digits. -/
theorem symbol?_digits (hds : ∀ d ∈ ds, isDigit d = true) (hc : isDigit c = false)
    (hfeed : c ≠ '\n') : symbol? c (ds ++ '\n' :: rest) = none := by
  cases ds with
  | nil => exact if_neg hfeed.symm
  | cons d ds => exact if_neg (ne_of_isDigit (hds d List.mem_cons_self) hc)

theorem dateTime?_digits (hds : ∀ d ∈ ds, isDigit d = true) :
    dateTime? (ds ++ '\n' :: rest) = none := by
  have hdate : date? (ds ++ '\n' :: rest) = none := by
    unfold date?
    cases hyear : fixed? 4 0 9999 (ds ++ '\n' :: rest) with
    | none => rfl
    | some year =>
      obtain ⟨es, hes, hmore⟩ := exists_of_fixed? hds hyear
      simp [hmore, symbol?_digits (c := '-') hes rfl (by decide)]
  have htime : time? (ds ++ '\n' :: rest) = none := by
    unfold time?
    cases hhour : fixed? 2 0 23 (ds ++ '\n' :: rest) with
    | none => rfl
    | some hour =>
      obtain ⟨es, hes, hmore⟩ := exists_of_fixed? hds hhour
      simp [hmore, symbol?_digits (c := ':') hes rfl (by decide)]
  rw [dateTime?, hdate, htime]

theorem digitTail?_digits (hds : ∀ d ∈ ds, isDigit d = true) {needed : Bool}
    (hneeded : needed = true → ds ≠ []) :
    digitTail? isDigit needed (ds ++ '\n' :: rest) = some (ds, '\n' :: rest) := by
  induction ds generalizing needed with
  | nil =>
    cases needed with
    | false => rfl
    | true => exact absurd rfl (hneeded rfl)
  | cons d ds ih =>
    rw [List.forall_mem_cons] at hds
    rw [List.cons_append, digitTail?, if_pos hds.1, ih hds.2 (fun h ↦ Bool.noConfusion h)]
    rfl

/-- The digits of a natural begin with a digit. -/
theorem exists_toDigits (n : Nat) : ∃ d ds, Nat.toDigits 10 n = d :: ds ∧ isDigit d = true := by
  cases hdigits : Nat.toDigits 10 n with
  | nil => exact absurd hdigits Nat.toDigits_ne_nil
  | cons d ds =>
    exact ⟨d, ds, rfl, isDigit_of_mem_toDigits (n := n) (hdigits ▸ List.mem_cons_self)⟩

theorem sign_toDigits (n : Nat) :
    sign (Nat.toDigits 10 n ++ '\n' :: rest) = (false, Nat.toDigits 10 n ++ '\n' :: rest) := by
  obtain ⟨d, ds, hdigits, hd⟩ := exists_toDigits n
  rw [hdigits, List.cons_append]
  unfold sign
  split
  · next heq => exact absurd (List.cons.inj heq).1 (ne_of_isDigit hd rfl)
  · next heq => exact absurd (List.cons.inj heq).1 (ne_of_isDigit hd rfl)
  · rfl

/-- Only the digits of zero begin with a zero. -/
theorem toDigits_ne_zero_cons {n : Nat} (hn : 0 < n) (more : List Char) :
    Nat.toDigits 10 n ++ '\n' :: rest ≠ '0' :: more := by
  intro heq
  obtain ⟨d, ds, hdigits, -⟩ := exists_toDigits n
  have hhead := Json.Number.head?_toDigits hn
  rw [hdigits, List.cons_append, List.cons.injEq] at heq
  rw [hdigits, heq.1] at hhead
  exact hhead rfl

/-- The digits of a natural are taken as a whole. -/
theorem wholeDigits?_toDigits (n : Nat) :
    wholeDigits? (Nat.toDigits 10 n ++ '\n' :: rest) = some (Nat.toDigits 10 n, '\n' :: rest) := by
  rcases Nat.eq_zero_or_pos n with rfl | hn
  · rfl
  · rw [wholeDigits?]
    · exact digitTail?_digits (fun _ ↦ isDigit_of_mem_toDigits) fun _ ↦ Nat.toDigits_ne_nil
    · exact toDigits_ne_zero_cons hn

theorem float?_toDigits (n : Nat) : float? (Nat.toDigits 10 n ++ '\n' :: rest) = none := by
  obtain ⟨d, ds, hdigits, hd⟩ := exists_toDigits n
  have hdecimal : decimal? (Nat.toDigits 10 n ++ '\n' :: rest) = none := by
    rw [decimal?, sign_toDigits]
    simp [wholeDigits?_toDigits, fraction?, exponent?]
  rw [float?, hdecimal, sign_toDigits, hdigits, List.cons_append]
  simp [Json.expect?, (ne_of_isDigit hd (c := 'i') rfl).symm,
    (ne_of_isDigit hd (c := 'n') rfl).symm]

/-- A zero stands alone, so that no natural looks like the prefix of a base. -/
theorem toDigits_ne_prefix (n : Nat) {c : Char} (hc : c ≠ '\n') (more : List Char) :
    Nat.toDigits 10 n ++ '\n' :: rest ≠ '0' :: c :: more := by
  rcases Nat.eq_zero_or_pos n with rfl | hn
  · intro heq
    have hzero : Nat.toDigits 10 0 = ['0'] := rfl
    rw [hzero, List.singleton_append, List.cons.injEq, List.cons.injEq] at heq
    exact hc heq.2.1.symm
  · exact toDigits_ne_zero_cons hn _

theorem integer?_toDigits {n : Nat} (hn : (n : Int) < 2 ^ 63) :
    integer? (Nat.toDigits 10 n ++ '\n' :: rest) = some ((n : Int), '\n' :: rest) := by
  have hfit : fit? (n : Int) = some (n : Int) := by
    rw [fit?, if_pos (by omega)]
  rw [integer?]
  · rw [sign_toDigits]
    change (wholeDigits? _).bind (fun p ↦ (fit? (natOfDigits p.1)).bind fun m ↦ some (m, p.2)) = _
    rw [wholeDigits?_toDigits, Option.bind_some, natOfDigits_toDigits, hfit, Option.bind_some]
  · exact toDigits_ne_prefix n (by decide)
  · exact toDigits_ne_prefix n (by decide)
  · exact toDigits_ne_prefix n (by decide)

/-- A natural that fits in a signed 64-bit word is read back. -/
theorem number?_toDigits {n : Nat} (hn : (n : Int) < 2 ^ 63) (rest : List Char) :
    number? (Nat.toDigits 10 n ++ '\n' :: rest) = some (.integer n, '\n' :: rest) := by
  rw [number?, dateTime?_digits fun _ ↦ isDigit_of_mem_toDigits, float?_toDigits,
    integer?_toDigits hn, Option.map_some]

/-! ### Values at the end of a line -/

/-- The naturals among the values fit in a signed 64-bit word. -/
def Value.Fits : Value → Prop
  | .integer n => n < 2 ^ 63
  | _ => True

/-- No spelling begins with a blank. -/
theorem SpelledValue.skipBlanks {v : Value} (h : SpelledValue v cs) :
    skipBlanks (' ' :: (cs ++ rest)) = cs ++ rest := by
  cases h with
  | string _ => rfl
  | natural n =>
    obtain ⟨d, ds, hdigits, hd⟩ := exists_toDigits n
    have hblank : isBlank d = false := by
      rw [isBlank, Bool.or_eq_false_iff, beq_eq_false_iff_ne, beq_eq_false_iff_ne]
      exact ⟨ne_of_isDigit hd rfl, ne_of_isDigit hd rfl⟩
    rw [hdigits, List.cons_append, Toml.skipBlanks, List.dropWhile_cons_of_pos rfl,
      List.dropWhile_cons_of_neg]
    rw [hblank]
    exact Bool.false_ne_true
  | yes => rfl
  | no => rfl

/-- A value that is spelled at the end of a line is read back. -/
theorem value?_spelled {v : Value} (h : SpelledValue v cs) (hfits : v.Fits) {fuel : Nat}
    (hfuel : cs.length < fuel) (depth : Nat) (rest : List Char) :
    value? (fuel + 1) depth (cs ++ '\n' :: rest) = some (v, '\n' :: rest) := by
  cases h with
  | @string s cs hs =>
    have hlength := hs.length_le
    rw [List.length_append, List.length_cons] at hfuel
    have hstring : string? fuel ('"' :: (cs ++ '"' :: '\n' :: rest)) = some (s, '\n' :: rest) :=
      string?_basic hs (by omega) (by simp)
    simp [value?, hstring]
  | natural n =>
    obtain ⟨d, ds, hdigits, hd⟩ := exists_toDigits n
    have hnumber := number?_toDigits hfits rest
    rw [hdigits, List.cons_append] at hnumber ⊢
    simp [value?, hnumber, ne_of_isDigit hd (c := '"') rfl, ne_of_isDigit hd (c := '\'') rfl,
      ne_of_isDigit hd (c := '[') rfl, ne_of_isDigit hd (c := '\x7b') rfl,
      ne_of_isDigit hd (c := 't') rfl, ne_of_isDigit hd (c := 'f') rfl]
  | yes => rfl
  | no => rfl

end Logbook.Toml
