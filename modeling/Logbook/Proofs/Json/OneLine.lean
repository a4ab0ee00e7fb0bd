import Logbook.Json.Writer
import Logbook.Proofs.Decimal.Digits

/-!
# JSON text is on one line

The text of a value has no line feed in it, nor any other control character (`printable_chars`):
strings escape them, and everything else is written with letters, digits and marks.
-/

set_option autoImplicit false
set_option relaxedAutoImplicit false

namespace Logbook.Json

/-- No character is a control character below the space, so that the text is on one line. -/
def Printable (cs : List Char) : Prop :=
  ∀ c ∈ cs, ¬c.toNat < 0x20

instance (cs : List Char) : Decidable (Printable cs) :=
  show Decidable (∀ c ∈ cs, ¬c.toNat < 0x20) from
    List.decidableBAll (fun c : Char ↦ ¬c.toNat < 0x20) cs

@[simp] theorem printable_nil : Printable [] :=
  fun _ hc ↦ absurd hc List.not_mem_nil

@[simp] theorem printable_cons {c : Char} {cs : List Char} :
    Printable (c :: cs) ↔ ¬c.toNat < 0x20 ∧ Printable cs :=
  List.forall_mem_cons

@[simp] theorem printable_append {cs ds : List Char} :
    Printable (cs ++ ds) ↔ Printable cs ∧ Printable ds :=
  List.forall_mem_append

/-! ### Strings -/

theorem not_control_hexChar (n : Nat) : ¬(hexChar n).toNat < 0x20 := by
  have hdigit : ∀ m < 16, ¬(Nat.digitChar m).toNat < 0x20 := by decide
  exact hdigit _ (Nat.mod_lt n (by omega))

theorem printable_escapeChar (c : Char) : Printable (escapeChar c) := by
  unfold escapeChar
  split_ifs with hquote hbackslash hfeed hreturn htab hback hform hcontrol
  · decide
  · decide
  · decide
  · decide
  · decide
  · decide
  · decide
  · simp only [printable_cons, printable_nil, not_control_hexChar, not_false_iff, and_true]
    decide
  · exact List.forall_mem_singleton.mpr hcontrol

theorem printable_stringChars (s : List Char) : Printable (stringChars s) := by
  have hbody : Printable (s.flatMap escapeChar) := by
    intro d hd
    obtain ⟨c, -, hc⟩ := List.mem_flatMap.mp hd
    exact printable_escapeChar c d hc
  rw [stringChars, printable_cons, printable_append]
  exact ⟨by decide, hbody, by decide⟩

/-! ### Numbers -/

theorem printable_of_isDigit {cs : List Char} (h : ∀ c ∈ cs, Decimal.isDigit c = true) :
    Printable cs := by
  intro c hc hcontrol
  have hdigit := (Decimal.isDigit_iff c).mp (h c hc)
  have hzero : '0'.toNat = 0x30 := rfl
  omega

theorem printable_digitChars (n : Nat) : Printable (Decimal.digitChars n) :=
  printable_of_isDigit fun _ hc ↦ Decimal.isDigit_of_mem_toDigits hc

theorem printable_positionalChars (point : Bool) {ds : List Char} (h : Printable ds)
    (exponent : Int) : Printable (Decimal.positionalChars point ds exponent) := by
  have hzeros : ∀ n, Printable (List.replicate n '0') := by
    intro n c hc
    rw [List.eq_of_mem_replicate hc]
    decide
  have htake : ∀ n, Printable (ds.take n) := fun n c hc ↦ h c (List.mem_of_mem_take hc)
  have hdrop : ∀ n, Printable (ds.drop n) := fun n c hc ↦ h c (List.mem_of_mem_drop hc)
  unfold Decimal.positionalChars
  dsimp only
  split_ifs
  · simp only [printable_append, h, hzeros, true_and]
    decide
  · simp only [printable_append, h, hzeros, printable_nil, true_and]
  · simp only [printable_append, printable_cons, htake, hdrop, true_and, and_true]
    decide
  · simp only [printable_append, printable_cons, hzeros, h, and_true]
    decide

theorem printable_exponentChars {ds : List Char} (h : Printable ds) (lead : Int) :
    Printable (Decimal.exponentChars ds lead) := by
  have hsign : ¬(if 0 ≤ lead then '+' else '-').toNat < 0x20 := by
    split_ifs <;> decide
  unfold Decimal.exponentChars
  dsimp only
  rw [printable_append, printable_cons, printable_cons]
  refine ⟨?_, by decide, hsign, printable_digitChars _⟩
  split
  · exact printable_nil
  · exact h
  · rw [printable_cons] at h ⊢
    rw [printable_cons]
    exact ⟨h.1, by decide, h.2⟩

theorem printable_finiteChars (layout : Decimal.Layout) (x : Binary64) :
    Printable (Decimal.finiteChars layout x) := by
  have hunsigned : Printable (if x.isZero then
      Decimal.positionalChars layout.wholeWithPoint ['0'] 0
      else (Decimal.shortest layout.tie x).chars layout) := by
    split_ifs
    · exact printable_positionalChars _ (by decide) 0
    · unfold Decimal.Scaled.chars
      dsimp only
      split_ifs
      · exact printable_positionalChars _ (printable_digitChars _) _
      · exact printable_exponentChars (printable_digitChars _) _
  unfold Decimal.finiteChars
  dsimp only
  split
  · rw [printable_cons]
    exact ⟨by decide, hunsigned⟩
  · exact hunsigned

theorem Number.printable_chars (n : Number) : Printable n.chars := by
  cases n with
  | integer n =>
    rw [Number.chars, intChars]
    split_ifs
    · rw [printable_cons]
      exact ⟨by decide, printable_digitChars _⟩
    · exact printable_digitChars _
  | float x =>
    rw [Number.chars]
    split_ifs
    · exact printable_finiteChars _ x
    · decide

/-! ### Values -/

theorem printable_itemsChars {items : List Value} (h : ∀ v ∈ items, Printable v.chars) :
    Printable (itemsChars items) := by
  induction items with
  | nil => exact printable_nil
  | cons v rest ih =>
    rw [List.forall_mem_cons] at h
    cases rest with
    | nil => exact h.1
    | cons w rest =>
      rw [itemsChars, printable_append, printable_cons]
      exact ⟨h.1, by decide, ih h.2⟩

theorem printable_membersChars {members : List (String × Value)}
    (h : ∀ m ∈ members, Printable m.2.chars) : Printable (membersChars members) := by
  induction members with
  | nil => exact printable_nil
  | cons m rest ih =>
    obtain ⟨k, v⟩ := m
    rw [List.forall_mem_cons] at h
    cases rest with
    | nil =>
      rw [membersChars, printable_append, printable_cons]
      exact ⟨printable_stringChars _, by decide, h.1⟩
    | cons m rest =>
      rw [membersChars, printable_append, printable_cons, printable_append, printable_cons]
      exact ⟨printable_stringChars _, by decide, h.1, by decide, ih h.2⟩

/-- The text of a value is on one line. -/
theorem printable_chars : ∀ v : Value, Printable v.chars
  | .null => by decide
  | .bool true => by decide
  | .bool false => by decide
  | .number n => n.printable_chars
  | .string s => printable_stringChars s.toList
  | .array items => by
    rw [Value.chars, printable_cons, printable_append]
    exact ⟨by decide, printable_itemsChars fun v hv ↦ printable_chars v, by decide⟩
  | .object members => by
    rw [Value.chars, printable_cons, printable_append]
    exact ⟨by decide, printable_membersChars fun m hm ↦ printable_chars m.2, by decide⟩
termination_by v => sizeOf v
decreasing_by
  · have hless := List.sizeOf_lt_of_mem hv
    simp only [Value.array.sizeOf_spec]
    omega
  · have hless := List.sizeOf_lt_of_mem hm
    obtain ⟨k, w⟩ := m
    simp only [Value.object.sizeOf_spec, Prod.mk.sizeOf_spec] at hless ⊢
    omega

end Logbook.Json
