import Logbook.Text.Utf8
import Mathlib.Tactic

/-!
# Text survives its bytes

Every text is read back from its bytes as it was, with no replacement anywhere (`lossy_toUTF8`).
One character is read at a time (`foldl_feed_utf8EncodeChar`): its lead byte promises as many bytes
as follow, in a range that shuts out overlong forms, surrogates and code points that do not exist,
and each byte that follows adds six bits to the code point.
-/

set_option autoImplicit false
set_option relaxedAutoImplicit false

namespace Logbook.Text.Utf8

/-! ### Bytes as a list -/

/-- A fold over bytes is a fold over their list. -/
theorem foldl_eq {β : Type} (f : β → UInt8 → β) (init : β) (bytes : ByteArray) :
    bytes.foldl f init = bytes.data.toList.foldl f init := by
  have hloop : ∀ (left start : ℕ) (b : β), left + start = bytes.size →
      ByteArray.foldlM.loop (m := Id) (pure <| f · ·) bytes bytes.size le_rfl left start b =
        (bytes.data.toList.drop start).foldl f b := by
    intro left
    induction left with
    | zero =>
      intro start b hstart
      have hlength : bytes.data.toList.length ≤ start := by
        rw [Array.length_toList]
        exact Nat.le_of_eq (hstart.symm.trans (Nat.zero_add start))
      rw [ByteArray.foldlM.loop, dif_neg (by omega), List.drop_eq_nil_of_le hlength]
      rfl
    | succ left ih =>
      intro start b hstart
      have hlength : start < bytes.data.toList.length := by
        rw [Array.length_toList]
        exact Nat.lt_of_lt_of_eq (by omega) hstart
      rw [ByteArray.foldlM.loop, dif_pos (by omega), List.drop_eq_getElem_cons hlength,
        List.foldl_cons]
      exact ih (start + 1) _ (by omega)
  rw [ByteArray.foldl, ByteArray.foldlM, dif_pos le_rfl]
  exact hloop _ 0 init rfl

/-! ### Lead bytes -/

theorem toNat_ofNat {n : ℕ} (h : n < 256) : (UInt8.ofNat n).toNat = n :=
  UInt8.toNat_ofNat_of_lt h

/-- The lead byte of a character of two bytes. -/
theorem lead?_two {n : ℕ} (hlow : 2 ≤ n) (hhigh : n < 32) :
    lead? (UInt8.ofNat (n + 0xC0)) = some ⟨n, 0x80, 0xBF, 0⟩ := by
  rw [lead?, toNat_ofNat (by omega), if_pos (by omega), Nat.add_sub_cancel]

/-- The lead byte of a character of three bytes. -/
theorem lead?_three {n : ℕ} (h : n < 16) : lead? (UInt8.ofNat (n + 0xE0)) =
    some ⟨n, if n = 0 then 0xA0 else 0x80, if n = 13 then 0x9F else 0xBF, 1⟩ := by
  interval_cases n <;> rfl

/-- The lead byte of a character of four bytes. -/
theorem lead?_four {n : ℕ} (h : n < 5) : lead? (UInt8.ofNat (n + 0xF0)) =
    some ⟨n, if n = 0 then 0x90 else 0x80, if n = 4 then 0x8F else 0xBF, 2⟩ := by
  interval_cases n <;> rfl

/-! ### One byte -/

variable {cs : List Char} {bits low high more m : ℕ}

theorem feed_one (h : m < 0x80) :
    feed (cs, .none) (UInt8.ofNat m) = (Char.ofNat m :: cs, .none) := by
  simp [feed, step, Nat.mod_eq_of_lt (show m < 256 by omega), h]

theorem feed_lead {b : UInt8} (hb : 0x80 ≤ b.toNat) (h : lead? b = some ⟨bits, low, high, more⟩) :
    feed (cs, .none) b = (cs, .inside bits low high more) := by
  simp [feed, step, h, Nat.not_lt.mpr hb]

/-- The last byte of a character. -/
theorem feed_last (hm : m < 64) (hlow : low ≤ m + 0x80) (hhigh : m + 0x80 ≤ high) :
    feed (cs, .inside bits low high 0) (UInt8.ofNat (m + 0x80)) =
      (Char.ofNat (bits * 64 + m) :: cs, .none) := by
  have hbyte : (m + 0x80) % 64 = m := by omega
  rw [feed, step, toNat_ofNat (by omega), if_pos ⟨hlow, hhigh⟩, hbyte]
  rfl

/-- A byte after which others follow. -/
theorem feed_more (hm : m < 64) (hlow : low ≤ m + 0x80) (hhigh : m + 0x80 ≤ high) :
    feed (cs, .inside bits low high (more + 1)) (UInt8.ofNat (m + 0x80)) =
      (cs, .inside (bits * 64 + m) 0x80 0xBF more) := by
  have hbyte : (m + 0x80) % 64 = m := by omega
  rw [feed, step, toNat_ofNat (by omega), if_pos ⟨hlow, hhigh⟩, hbyte]
  rfl

/-! ### One character -/

/-- A code point is no surrogate, and below the end of the code space. -/
theorem toNat_cases (c : Char) :
    c.val.toNat < 0xD800 ∨ 0xDFFF < c.val.toNat ∧ c.val.toNat < 0x110000 :=
  c.valid

/-- The bytes of a character are read as that character. -/
theorem foldl_feed_utf8EncodeChar (c : Char) (cs : List Char) :
    (String.utf8EncodeChar c).foldl feed (cs, .none) = (c :: cs, .none) := by
  have hvalid := toNat_cases c
  have hchar : Char.ofNat c.val.toNat = c := Char.ofNat_toNat c
  rw [String.utf8EncodeChar]
  generalize c.val.toNat = n at hvalid hchar ⊢
  split_ifs with hone htwo hthree
  · rw [List.foldl_cons, feed_one (by omega), hchar]
    rfl
  · have hbits : n / 64 % 32 = n / 64 := by omega
    simp only [List.foldl_cons, List.foldl_nil]
    rw [hbits, feed_lead (by rw [toNat_ofNat (by omega)]; omega) (lead?_two (by omega) (by omega)),
      feed_last (by omega) (by omega) (by omega), show n / 64 * 64 + n % 64 = n by omega, hchar]
  · have hbits : n / 4096 % 16 = n / 4096 := by omega
    simp only [List.foldl_cons, List.foldl_nil]
    rw [hbits, feed_lead (by rw [toNat_ofNat (by omega)]; omega) (lead?_three (by omega)),
      feed_more (by omega) (by split_ifs <;> omega) (by split_ifs <;> omega),
      feed_last (by omega) (by omega) (by omega),
      show (n / 4096 * 64 + n / 64 % 64) * 64 + n % 64 = n by omega, hchar]
  · have hbits : n / 262144 % 8 = n / 262144 := by omega
    simp only [List.foldl_cons, List.foldl_nil]
    rw [hbits, feed_lead (by rw [toNat_ofNat (by omega)]; omega) (lead?_four (by omega)),
      feed_more (by omega) (by split_ifs <;> omega) (by split_ifs <;> omega),
      feed_more (by omega) (by omega) (by omega), feed_last (by omega) (by omega) (by omega),
      show ((n / 262144 * 64 + n / 4096 % 64) * 64 + n / 64 % 64) * 64 + n % 64 = n by omega, hchar]

/-! ### A whole text -/

theorem foldl_feed_flatMap (text cs : List Char) :
    (text.flatMap String.utf8EncodeChar).foldl feed (cs, .none) = (text.reverse ++ cs, .none) := by
  induction text generalizing cs with
  | nil => rfl
  | cons c text ih =>
    rw [List.flatMap_cons, List.foldl_append, foldl_feed_utf8EncodeChar, ih, List.reverse_cons,
      List.append_assoc]
    rfl

/-- The bytes of a text are read as that text. -/
theorem lossy_toUTF8 (s : String) : lossy s.toUTF8 = s := by
  have hbytes : s.toUTF8.data.toList = s.toList.flatMap String.utf8EncodeChar := by
    rw [String.toUTF8_eq_toByteArray, ← String.utf8Encode_toList, List.utf8Encode,
      List.toList_data_toByteArray]
  rw [lossy, foldl_eq, hbytes, foldl_feed_flatMap, finish, List.append_nil, List.reverse_reverse,
    String.ofList_toList]

/-- The strict reading takes every text back from its bytes, too. -/
theorem decode?_toUTF8 (text : String) : decode? text.toUTF8 = some text :=
  dif_pos text.isValidUTF8

end Logbook.Text.Utf8
