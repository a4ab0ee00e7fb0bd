import Logbook.Json.Reader
import Logbook.Json.Writer
import Logbook.Proofs.Decimal.Digits
import Logbook.Proofs.Decimal.Shortest

/-!
# Numbers in JSON text

An integer reads back as itself (`read?_integer`). The text of a finite float always reads back as
some float, though not always as the same one (`read?_float`): the digits of the shortest decimal
fit in a machine word, and where they are scaled up, the product stays finite. The product is
formed from two rounded factors and rounded once more, so it may exceed the decimal by three units;
only the last three floats before infinity are that close to it, and they are computed.
-/

set_option autoImplicit false
set_option relaxedAutoImplicit false

namespace Logbook.Json

open Decimal

/-- What may follow a number: nothing that would go on with it. -/
def Ends (rest : List Char) : Prop :=
  ∀ c ∈ rest.head?, isDigit c = false ∧ c ≠ '.' ∧ c ≠ 'e' ∧ c ≠ 'E'

namespace Number

/-! ### Digits that fit -/

theorem fitting_of_lt (n : Nat) (ds : List Char)
    (h : 10 ^ ds.length * n + natOfDigits ds < UInt64.size) :
    fitting n ds = (10 ^ ds.length * n + natOfDigits ds, ds.length) := by
  induction ds generalizing n with
  | nil => simp [fitting]
  | cons d ds ih =>
    have hsplit : 10 ^ (d :: ds).length * n + natOfDigits (d :: ds) =
        10 ^ ds.length * (10 * n + digitValue d) + natOfDigits ds := by
      rw [natOfDigits_cons, List.length_cons, pow_succ]
      ring
    rw [hsplit] at h ⊢
    have hnext : 10 * n + digitValue d < UInt64.size := by
      refine lt_of_le_of_lt ?_ h
      calc 10 * n + digitValue d ≤ 10 ^ ds.length * (10 * n + digitValue d) :=
            Nat.le_mul_of_pos_left _ (by positivity)
        _ ≤ _ := Nat.le_add_right _ _
    simp only [fitting, if_neg (not_le.mpr hnext), ih _ h, List.length_cons]

/-- At least the first of some digits is taken if it fits. -/
theorem fitting_pos {n : Nat} {d : Char} (ds : List Char)
    (h : 10 * n + digitValue d < UInt64.size) : 0 < (fitting n (d :: ds)).2 := by
  simp only [fitting, if_neg (not_le.mpr h)]
  exact Nat.succ_pos _

/-- No zero stands before other digits. -/
def NoLeadingZero (ds : List Char) : Prop :=
  ds.head? ≠ some '0' ∨ ds.length ≤ 1

theorem head?_toDigits {n : Nat} (hn : 0 < n) : (Nat.toDigits 10 n).head? ≠ some '0' := by
  intro hhead
  obtain ⟨ds, hds⟩ : ∃ ds, Nat.toDigits 10 n = '0' :: ds := by
    cases h : Nat.toDigits 10 n with
    | nil => simp [h] at hhead
    | cons d ds => exact ⟨ds, by simpa [h] using hhead⟩
  have hdigits : ∀ c ∈ ds, isDigit c = true := by
    intro c hc
    exact isDigit_of_mem_toDigits (n := n) (hds ▸ List.mem_cons_of_mem _ hc)
  have hvalue : natOfDigits ds = n := by
    have hall := natOfDigits_toDigits n
    rw [hds, natOfDigits_cons] at hall
    simpa [digitValue] using hall
  have hless : n < 10 ^ ds.length := hvalue ▸ natOfDigits_lt hdigits
  rcases Nat.eq_zero_or_pos ds.length with hnil | hpos
  · rw [hnil] at hless
    omega
  · have hlength := (Nat.length_toDigits_le_iff (b := 10) (by decide) hpos).mpr hless
    rw [hds, List.length_cons] at hlength
    omega

theorem noLeadingZero_toDigits (n : Nat) : NoLeadingZero (Nat.toDigits 10 n) := by
  rcases Nat.eq_zero_or_pos n with rfl | hn
  · exact Or.inr le_rfl
  · exact Or.inl (head?_toDigits hn)

/-! ### The parts of a number -/

variable {whole fraction tail : List Char}

theorem leadingZero_eq_false (h : NoLeadingZero whole) :
    (whole.head? == some '0' && decide (1 < whole.length)) = false := by
  rcases h with h | h
  · simp [h]
  · simp [Nat.not_lt.mpr h]

/-- A number without a point. -/
theorem unsigned?_whole (negative : Bool) (hdigits : ∀ d ∈ whole, isDigit d = true)
    (hne : whole ≠ []) (hzero : NoLeadingZero whole)
    (htail : ∀ c ∈ tail.head?, isDigit c = false ∧ c ≠ '.') :
    unsigned? negative (whole ++ tail) =
      match (if ((whole.length : Int) - (fitting 0 whole).2) ≠ 0 ||
          (tail.head? == some 'e' || tail.head? == some 'E') ||
          (negative && (fitting 0 whole).1 == 0) then none
        else Integer.ofInt? (if negative then -((fitting 0 whole).1 : Int) else (fitting 0 whole).1))
      with
      | some i => some (integer i, tail)
      | none => (withExponent? negative (fitting 0 whole).1
          ((whole.length : Int) - (fitting 0 whole).2) tail).map fun (x, t) ↦ (float x, t) := by
  have hrun := digitRun_append hdigits fun c hc ↦ (htail c hc).1
  have hempty : whole.isEmpty = false := by simpa using hne
  unfold unsigned?
  rw [hrun]
  dsimp only
  rw [hempty, leadingZero_eq_false hzero]
  simp only [Bool.or_self, Bool.false_eq_true, ↓reduceIte]
  split
  · next more => exact absurd rfl (htail '.' rfl).2
  · rfl

/-- A number with a point. -/
theorem unsigned?_point (negative : Bool) (hdigits : ∀ d ∈ whole, isDigit d = true)
    (hne : whole ≠ []) (hzero : NoLeadingZero whole)
    (hfraction : ∀ d ∈ fraction, isDigit d = true) (hsome : fraction ≠ [])
    (htail : ∀ c ∈ tail.head?, isDigit c = false) :
    unsigned? negative (whole ++ '.' :: (fraction ++ tail)) =
      (withExponent? negative (fitting (fitting 0 whole).1 fraction).1
        ((whole.length : Int) - (fitting 0 whole).2 - (fitting (fitting 0 whole).1 fraction).2)
        tail).map fun (x, t) ↦ (float x, t) := by
  have hrun : digitRun (whole ++ '.' :: (fraction ++ tail)) = (whole, '.' :: (fraction ++ tail)) :=
    digitRun_append hdigits (by
      rintro c ⟨⟩
      decide)
  have hempty : whole.isEmpty = false := by simpa using hne
  have hsome' : fraction.isEmpty = false := by simpa using hsome
  unfold unsigned?
  rw [hrun]
  dsimp only
  rw [hempty, leadingZero_eq_false hzero]
  simp only [digitRun_append hfraction htail, hsome', Bool.or_self, Bool.false_eq_true, ↓reduceIte]

/-- Without an exponent the digits are scaled as they are. -/
theorem withExponent?_ends (negative : Bool) (n : Nat) (start : Int) (h : Ends tail) :
    withExponent? negative n start tail = (scaled? negative n start).map fun x ↦ (x, tail) := by
  cases tail with
  | nil => rfl
  | cons c rest =>
    obtain ⟨-, -, he, hE⟩ := h c rfl
    rw [withExponent?, if_neg (by simp [he, hE])]

/-- An exponent is added to the one of the digits. -/
theorem withExponent?_exponent (negative shrinking : Bool) (n e : Nat) (start : Int)
    (h : Ends tail) (hsize : e < 0x80000000) :
    withExponent? negative n start
        ('e' :: (if shrinking then '-' else '+') :: (Nat.toDigits 10 e ++ tail)) =
      (scaled? negative n (if shrinking then start - e else start + e)).map fun x ↦ (x, tail) := by
  have hsigned : signed ((if shrinking then '-' else '+') :: (Nat.toDigits 10 e ++ tail)) =
      (shrinking, Nat.toDigits 10 e ++ tail) := by
    cases shrinking <;> rfl
  have hrun : digitRun (Nat.toDigits 10 e ++ tail) = (Nat.toDigits 10 e, tail) :=
    digitRun_append (fun _ hd ↦ isDigit_of_mem_toDigits hd) fun c hc ↦ (h c hc).1
  have hempty : (Nat.toDigits 10 e).isEmpty = false := by simp
  rw [withExponent?, if_pos (Or.inl rfl), hsigned]
  dsimp only
  rw [hrun]
  simp only [hempty, Bool.false_eq_true, ↓reduceIte, natOfDigits_toDigits,
    if_neg (not_le.mpr hsize)]

/-- A number that is scaled down is never refused. -/
theorem scaled?_of_neg (negative : Bool) (n : Nat) {exponent : Int} (h : exponent < 0) :
    (scaled? negative n exponent).isSome = true := by
  rw [scaled?]
  dsimp only
  rw [if_pos h]
  rfl

/-- A number that is scaled up is not refused if the product is finite. -/
theorem scaled?_of_isFinite (negative : Bool) (n : Nat) {exponent : Int} (h : 0 ≤ exponent)
    (hsmall : exponent ≤ 308)
    (hfinite : ((Binary64.ofNat n).mul (powerOfTen exponent.toNat)).isFinite = true) :
    (scaled? negative n exponent).isSome = true := by
  rw [scaled?]
  dsimp only
  rw [if_neg (by omega), if_neg (by omega), if_pos hfinite]
  rfl

/-- An exponent that shrinks a number is never refused. -/
theorem exists_withExponent?_shrinking (negative : Bool) (n e : Nat) {start : Int}
    (h : start - e < 0) : ∃ y, ∀ tail, Ends tail →
      withExponent? negative n start ('e' :: '-' :: (Nat.toDigits 10 e ++ tail)) =
        some (y, tail) := by
  rcases Nat.lt_or_ge e 0x80000000 with hsize | hsize
  · obtain ⟨y, hy⟩ := Option.isSome_iff_exists.mp (scaled?_of_neg negative n h)
    refine ⟨y, fun tail htail ↦ ?_⟩
    have hread := withExponent?_exponent negative true n e start htail hsize
    rw [if_pos rfl, if_pos rfl, hy] at hread
    exact hread
  · refine ⟨Binary64.ofMagnitudeBits negative 0, fun tail htail ↦ ?_⟩
    have hrun : digitRun (Nat.toDigits 10 e ++ tail) = (Nat.toDigits 10 e, tail) :=
      digitRun_append (fun _ hd ↦ isDigit_of_mem_toDigits hd) fun c hc ↦ (htail c hc).1
    have hempty : (Nat.toDigits 10 e).isEmpty = false := by simp
    rw [withExponent?, if_pos (Or.inl rfl)]
    simp only [signed, hrun, hempty, Bool.false_eq_true, ↓reduceIte, natOfDigits_toDigits,
      if_pos hsize, Bool.not_true, and_false]

/-! ### Integers -/

/-- An integer reads back as itself. -/
theorem read?_integer (n : Integer) {tail : List Char} (h : Ends tail) :
    read? (intChars n.val ++ tail) = some (integer n, tail) := by
  have hunsigned : ∀ negative : Bool, (if negative then -(n.val.natAbs : Int) else n.val.natAbs) =
      n.val → (negative && n.val.natAbs == 0) = false →
      unsigned? negative (digitChars n.val.natAbs ++ tail) = some (integer n, tail) := by
    intro negative hsign hzero
    have hsize : n.val.natAbs < UInt64.size := by
      have hlower := n.lower
      have hupper := n.upper
      have hword : UInt64.size = 18446744073709551616 := rfl
      omega
    have hfits : fitting 0 (Nat.toDigits 10 n.val.natAbs) =
        (n.val.natAbs, (Nat.toDigits 10 n.val.natAbs).length) := by
      have hall := fitting_of_lt 0 (Nat.toDigits 10 n.val.natAbs)
      rw [Nat.mul_zero, Nat.zero_add, natOfDigits_toDigits] at hall
      exact hall hsize
    have hexponent : (tail.head? == some 'e' || tail.head? == some 'E') = false := by
      cases hhead : tail.head? with
      | none => rfl
      | some c =>
        obtain ⟨-, -, he, hE⟩ := h c hhead
        simp [he, hE]
    have hinteger : Integer.ofInt? n.val = some n := by
      rw [Integer.ofInt?, dif_pos ⟨n.lower, n.upper⟩]
    rw [digitChars, unsigned?_whole negative (fun _ hd ↦ isDigit_of_mem_toDigits hd)
      Nat.toDigits_ne_nil (noLeadingZero_toDigits _) fun c hc ↦ ⟨(h c hc).1, (h c hc).2.1⟩, hfits]
    simp only [sub_self, ne_eq, not_true_eq_false, decide_false, hexponent, hzero, Bool.or_self,
      Bool.false_eq_true, ↓reduceIte, hsign, hinteger]
  unfold intChars
  split_ifs with hneg
  · rw [List.cons_append, read?]
    exact hunsigned true (by rw [if_pos rfl]; omega) (by simp; omega)
  · have hread : read? (digitChars n.val.natAbs ++ tail) =
        unsigned? false (digitChars n.val.natAbs ++ tail) := by
      rw [read?]
      rintro rest hrest
      cases hdigits : digitChars n.val.natAbs with
      | nil => exact absurd hdigits Nat.toDigits_ne_nil
      | cons d ds =>
        rw [hdigits, List.cons_append, List.cons.injEq] at hrest
        have hd := isDigit_of_mem_toDigits (hdigits ▸ List.mem_cons_self : d ∈ Nat.toDigits 10 _)
        rw [hrest.1] at hd
        exact absurd hd (by decide)
    rw [hread]
    exact hunsigned false (by rw [if_neg Bool.false_ne_true]; omega) rfl

/-! ### Decimals -/

/-- The text reads as a float, whatever follows it. -/
def ReadsAsFloat (negative : Bool) (cs : List Char) : Prop :=
  ∃ y, ∀ rest, Ends rest → unsigned? negative (cs ++ rest) = some (float y, rest)

theorem isDigit_of_mem_zero : ∀ d ∈ ['0'], isDigit d = true :=
  List.forall_mem_singleton.mpr rfl

/-- A number with a point and few digits before it is scaled down, so it is not refused. -/
theorem readsAsFloat_point (negative : Bool) (hdigits : ∀ d ∈ whole, isDigit d = true)
    (hne : whole ≠ []) (hzero : NoLeadingZero whole) (hshort : whole.length ≤ 16)
    (hfraction : ∀ d ∈ fraction, isDigit d = true) (hsome : fraction ≠ []) :
    ReadsAsFloat negative (whole ++ '.' :: fraction) := by
  have hvalue : natOfDigits whole < 10 ^ 16 :=
    (natOfDigits_lt hdigits).trans_le (Nat.pow_le_pow_right (by norm_num) hshort)
  have hword : UInt64.size = 18446744073709551616 := rfl
  have hwhole : fitting 0 whole = (natOfDigits whole, whole.length) := by
    have hfits := fitting_of_lt 0 whole
    rw [Nat.mul_zero, Nat.zero_add] at hfits
    exact hfits (by omega)
  have hplaces : 0 < (fitting (natOfDigits whole) fraction).2 := by
    cases fraction with
    | nil => exact absurd rfl hsome
    | cons d ds =>
      have hd := digitValue_lt (hfraction d List.mem_cons_self)
      exact fitting_pos ds (by omega)
  obtain ⟨y, hy⟩ := Option.isSome_iff_exists.mp (scaled?_of_neg negative
    (fitting (natOfDigits whole) fraction).1
    (show (whole.length : Int) - whole.length - (fitting (natOfDigits whole) fraction).2 < 0 by
      omega))
  refine ⟨y, fun rest hrest ↦ ?_⟩
  rw [List.append_assoc, List.cons_append,
    unsigned?_point negative hdigits hne hzero hfraction hsome fun c hc ↦ (hrest c hc).1, hwhole]
  dsimp only
  rw [withExponent?_ends negative _ _ hrest, hy]
  rfl

/-- A decimal in positional form. -/
theorem readsAsFloat_positional (negative : Bool) {n : Nat} (hn : 0 < n) {exponent : Int}
    (hlead : exponent + ((digitChars n).length : Int) - 1 < 16) :
    ReadsAsFloat negative (positionalChars true (digitChars n) exponent) := by
  have hdigits : ∀ d ∈ digitChars n, isDigit d = true := fun _ hd ↦ isDigit_of_mem_toDigits hd
  have hne : digitChars n ≠ [] := Nat.toDigits_ne_nil
  have hhead : (digitChars n).head? ≠ some '0' := head?_toDigits hn
  generalize digitChars n = ds at *
  have hlength : 0 < ds.length := List.length_pos_of_ne_nil hne
  unfold positionalChars
  simp only [↓reduceIte]
  split_ifs with hexponent hplaces
  · have hall : ∀ d ∈ ds ++ List.replicate exponent.toNat '0', isDigit d = true := by
      intro d hd
      rcases List.mem_append.mp hd with hd | hd
      · exact hdigits d hd
      · rw [List.eq_of_mem_replicate hd]
        decide
    refine readsAsFloat_point negative hall (by simp [hne]) (Or.inl ?_) ?_ isDigit_of_mem_zero
      (by simp)
    · rwa [List.head?_append_of_ne_nil _ hne]
    · rw [List.length_append, List.length_replicate]
      omega
  · refine readsAsFloat_point negative (fun d hd ↦ hdigits d (List.mem_of_mem_take hd)) ?_
      (Or.inl ?_) ?_ (fun d hd ↦ hdigits d (List.mem_of_mem_drop hd)) ?_
    · exact List.ne_nil_of_length_pos (by rw [List.length_take]; omega)
    · rwa [List.head?_take, if_neg (by omega)]
    · rw [List.length_take]
      omega
    · exact List.ne_nil_of_length_pos (by rw [List.length_drop]; omega)
  · have hall : ∀ d ∈ List.replicate ((-exponent).toNat - ds.length) '0' ++ ds,
        isDigit d = true := by
      intro d hd
      rcases List.mem_append.mp hd with hd | hd
      · rw [List.eq_of_mem_replicate hd]
        decide
      · exact hdigits d hd
    have hread : ReadsAsFloat negative
        (['0'] ++ '.' :: (List.replicate ((-exponent).toNat - ds.length) '0' ++ ds)) :=
      readsAsFloat_point negative isDigit_of_mem_zero (by simp) (Or.inr le_rfl) (by norm_num) hall
        (by simp [hne])
    exact hread

/-- The digits of a number in exponent form are taken as one integer, and the places behind the
point are taken off the exponent. -/
theorem unsigned?_exponentChars (negative : Bool) {n : Nat} (hsize : n < UInt64.size) (lead : Int)
    (rest : List Char) :
    unsigned? negative (exponentChars (digitChars n) lead ++ rest) =
      (withExponent? negative n (0 - (((digitChars n).length - 1 : Nat) : Int))
        ('e' :: (if 0 ≤ lead then '+' else '-') :: (digitChars lead.natAbs ++ rest))).map
          fun p ↦ (float p.1, p.2) := by
  have hdigits : ∀ c ∈ digitChars n, isDigit c = true := fun _ hc ↦ isDigit_of_mem_toDigits hc
  have hvalue : natOfDigits (digitChars n) = n := natOfDigits_toDigits n
  have hne : digitChars n ≠ [] := Nat.toDigits_ne_nil
  cases hcase : digitChars n with
  | nil => exact absurd hcase hne
  | cons c cs =>
    rw [hcase] at hdigits hvalue
    have hc : digitValue c < 10 := digitValue_lt (hdigits c List.mem_cons_self)
    have hone : natOfDigits [c] = digitValue c := by
      rw [natOfDigits_cons]
      simp
    have hfirst : fitting 0 [c] = (digitValue c, 1) := by
      have hfits := fitting_of_lt 0 [c]
      rw [hone] at hfits
      have hword : UInt64.size = 18446744073709551616 := rfl
      simpa using hfits (by simp; omega)
    have hmark : ∀ (more : List Char), ∀ c ∈ ('e' :: more).head?, isDigit c = false ∧ c ≠ '.' := by
      intro more e he
      obtain rfl : 'e' = e := by simpa using he
      decide
    have hcDigit : ∀ e ∈ [c], isDigit e = true := by simpa using hdigits c List.mem_cons_self
    cases cs with
    | nil =>
      have hn : digitValue c = n := hone.symm.trans hvalue
      have htext : exponentChars [c] lead ++ rest = [c] ++ 'e' ::
          (if 0 ≤ lead then '+' else '-') :: (digitChars lead.natAbs ++ rest) := by
        simp [exponentChars]
      rw [htext, unsigned?_whole negative hcDigit (by simp) (Or.inr le_rfl) (hmark _), hfirst, hn]
      have hstart : (([c].length : Nat) : Int) - ((1 : Nat) : Int) =
          0 - (([c].length - 1 : Nat) : Int) := by simp
      simp only [List.head?_cons, BEq.rfl, Bool.true_or, Bool.or_true, ↓reduceIte]
      rw [hstart]
    | cons b cs =>
      have hrest' : ∀ e ∈ b :: cs, isDigit e = true :=
        fun e he ↦ hdigits e (List.mem_cons_of_mem c he)
      have hfits : fitting (digitValue c) (b :: cs) = (n, (b :: cs).length) := by
        have hsplit : 10 ^ (b :: cs).length * digitValue c + natOfDigits (b :: cs) = n := by
          rw [← hvalue, natOfDigits_cons c]
        have hall := fitting_of_lt (digitValue c) (b :: cs)
        rw [hsplit] at hall
        exact hall hsize
      have htext : exponentChars (c :: b :: cs) lead ++ rest = [c] ++ '.' :: (b :: cs ++ 'e' ::
          (if 0 ≤ lead then '+' else '-') :: (digitChars lead.natAbs ++ rest)) := by
        simp [exponentChars]
      rw [htext, unsigned?_point negative hcDigit (by simp) (Or.inr le_rfl) hrest' (by simp)
        fun e he ↦ (hmark _ e he).1, hfirst]
      dsimp only
      rw [hfits]
      have hstart : (([c].length : Nat) : Int) - ((1 : Nat) : Int) - (((b :: cs).length : Nat) : Int) =
          0 - (((c :: b :: cs).length - 1 : Nat) : Int) := by simp
      rw [hstart]

/-- An exponent of few digits gives the digits of the text back their exponent. -/
theorem withExponent?_lead (negative : Bool) {d : Scaled}
    (hlead : (d.exponent + ((digitChars d.digits).length : Int) - 1).natAbs < 0x80000000)
    {rest : List Char} (hrest : Ends rest) :
    withExponent? negative d.digits (0 - (((digitChars d.digits).length - 1 : Nat) : Int))
        ('e' :: (if 0 ≤ d.exponent + ((digitChars d.digits).length : Int) - 1 then '+' else '-') ::
          (digitChars (d.exponent + ((digitChars d.digits).length : Int) - 1).natAbs ++ rest)) =
      (scaled? negative d.digits d.exponent).map fun y ↦ (y, rest) := by
  have hlength : 0 < (digitChars d.digits).length := List.length_pos_of_ne_nil Nat.toDigits_ne_nil
  generalize hlen : (digitChars d.digits).length = length at hlead hlength ⊢
  set lead := d.exponent + (length : Int) - 1 with hleadEq
  have hread := withExponent?_exponent negative (decide (lead < 0)) d.digits lead.natAbs
    (0 - ((length - 1 : Nat) : Int)) hrest hlead
  rcases lt_or_ge lead 0 with hneg | hpos
  · rw [decide_eq_true hneg, if_pos rfl, if_pos rfl,
      show 0 - ((length - 1 : Nat) : Int) - lead.natAbs = d.exponent by omega] at hread
    rw [if_neg (not_le.mpr hneg)]
    exact hread
  · rw [decide_eq_false (not_lt.mpr hpos), if_neg Bool.false_ne_true, if_neg Bool.false_ne_true,
      show 0 - ((length - 1 : Nat) : Int) + lead.natAbs = d.exponent by omega] at hread
    rw [if_pos hpos]
    exact hread

/-- A decimal whose digits are scaled up stays finite. -/
def StaysFinite (d : Scaled) : Prop :=
  0 ≤ d.exponent → d.exponent ≤ 308 ∧
    ((Binary64.ofNat d.digits).mul (powerOfTen d.exponent.toNat)).isFinite = true

instance (d : Scaled) : Decidable (StaysFinite d) :=
  inferInstanceAs (Decidable (_ → _))

/-- A decimal in exponent form. -/
theorem readsAsFloat_exponent (negative : Bool) {d : Scaled} (hsize : d.digits < UInt64.size)
    (hfinite : StaysFinite d) :
    ReadsAsFloat negative (exponentChars (digitChars d.digits)
      (d.exponent + ((digitChars d.digits).length : Int) - 1)) := by
  have hlong : (digitChars d.digits).length ≤ 20 :=
    (Nat.length_toDigits_le_iff (by decide) (by decide)).mpr (hsize.trans (by decide))
  have hlength : 0 < (digitChars d.digits).length := List.length_pos_of_ne_nil Nat.toDigits_ne_nil
  obtain ⟨y, hy⟩ : ∃ y, ∀ rest, Ends rest → withExponent? negative d.digits
      (0 - (((digitChars d.digits).length - 1 : Nat) : Int))
      ('e' :: (if 0 ≤ d.exponent + ((digitChars d.digits).length : Int) - 1 then '+' else '-') ::
        (digitChars (d.exponent + ((digitChars d.digits).length : Int) - 1).natAbs ++ rest)) =
          some (y, rest) := by
    rcases lt_or_ge d.exponent 0 with hdown | hup
    · by_cases hneg : d.exponent + ((digitChars d.digits).length : Int) - 1 < 0
      · rw [if_neg (not_le.mpr hneg)]
        exact exists_withExponent?_shrinking negative d.digits _ (by omega)
      · obtain ⟨y, hy⟩ := Option.isSome_iff_exists.mp (scaled?_of_neg negative d.digits hdown)
        refine ⟨y, fun rest hrest ↦ ?_⟩
        rw [withExponent?_lead negative (by omega) hrest, hy]
        rfl
    · obtain ⟨hsmall, hproduct⟩ := hfinite hup
      obtain ⟨y, hy⟩ := Option.isSome_iff_exists.mp
        (scaled?_of_isFinite negative d.digits hup hsmall hproduct)
      refine ⟨y, fun rest hrest ↦ ?_⟩
      rw [withExponent?_lead negative (by omega) hrest, hy]
      rfl
  refine ⟨y, fun rest hrest ↦ ?_⟩
  rw [unsigned?_exponentChars negative hsize, hy rest hrest]
  rfl

/-! ### Floats -/

/-- Below a power of ten that a float can hold, the power is rounded once. -/
theorem powerOfTen_eq {k : Nat} (hk : k ≤ 308) :
    powerOfTen k = Binary64.ofRatio false (10 ^ k) 1 := by
  have hlog : Nat.log2 1 = 0 := by decide
  have hlow : ¬((k : Int) + ((0 : Nat) : Int) / 3 < -330) := by omega
  rw [powerOfTen, Binary64.ofDecimal, if_neg one_ne_zero, if_neg (by omega), hlog, if_neg hlow,
    if_pos (Int.natCast_nonneg k), Int.toNat_natCast, Nat.one_mul]
  rfl

/-- The powers of ten on either side of the largest finite float. -/
theorem ten_pow_308_lt : 2 * 10 ^ 308 < 0x3FFFFFFFFFFFFF * 2 ^ 971 := by
  decide +kernel

theorem lt_ten_pow_309 : 0x3FFFFFFFFFFFFF * 2 ^ 970 < 10 ^ 309 := by
  decide +kernel

/-- A machine word is far below the largest finite float. -/
theorem lt_midpoint_of_lt_size {n : Nat} (hword : n < UInt64.size) :
    ((n : ℕ) / (1 : ℕ) : ℚ) < (2 ^ 53 - 1 / 2) * 2 ^ (971 : ℤ) := by
  have hsize : UInt64.size = 2 ^ 64 := rfl
  have hless : (n : ℚ) < 2 ^ 64 := by
    rw [hsize] at hword
    exact_mod_cast hword
  have hpow : (2 : ℚ) ^ (64 : ℤ) ≤ 2 ^ (971 : ℤ) := zpow_le_zpow_right₀ one_le_two (by norm_num)
  have hpow' : (2 : ℚ) ^ (64 : ℤ) = 2 ^ 64 := zpow_natCast 2 64
  rw [hpow'] at hpow
  rw [Nat.cast_one, div_one]
  generalize (2 : ℚ) ^ (971 : ℤ) = p at hpow ⊢
  linarith

/-- A product of rounded factors stays finite if the exact one is a little below the limit. -/
theorem isFinite_mul {n k : Nat} (hn : 0 < n) (hword : n < UInt64.size) (hk : k ≤ 308)
    (h : (n * 10 ^ k : ℚ) ≤ (2 ^ 54 - 7) * 2 ^ (970 : ℤ)) :
    ((Binary64.ofNat n).mul (powerOfTen k)).isFinite = true := by
  have hone : (1 : ℚ) ≤ (n : ℕ) / (1 : ℕ) := by
    rw [Nat.cast_one, div_one]
    exact_mod_cast hn
  have hsmall := lt_midpoint_of_lt_size hword
  have hten : (1 : ℚ) ≤ ((10 ^ k : ℕ) : ℚ) / (1 : ℕ) := by
    rw [Nat.cast_one, div_one]
    exact_mod_cast Nat.one_le_pow k 10 (by norm_num)
  have htenSmall : (((10 ^ k : ℕ) : ℚ) / (1 : ℕ)) < (2 ^ 53 - 1 / 2) * 2 ^ (971 : ℤ) := by
    have hle : ((10 ^ k : ℕ) : ℚ) ≤ 10 ^ 308 := by
      rw [Nat.cast_pow, Nat.cast_ofNat]
      exact pow_le_pow_right₀ (by norm_num) hk
    have hlimit : (2 * 10 ^ 308 : ℚ) < 0x3FFFFFFFFFFFFF * 2 ^ 971 := by
      exact_mod_cast ten_pow_308_lt
    have hpow : (2 : ℚ) ^ (971 : ℤ) = 2 ^ 971 := zpow_natCast 2 971
    rw [Nat.cast_one, div_one, hpow]
    generalize (2 : ℚ) ^ 971 = p at hlimit ⊢
    generalize (10 : ℚ) ^ 308 = q at hle hlimit
    linarith
  have hx := (Binary64.value_ofRatio_le false Nat.one_pos hone hsmall).2
  have hy := (Binary64.value_ofRatio_le false Nat.one_pos hten htenSmall).2
  rw [← powerOfTen_eq hk, Nat.cast_one, div_one, Nat.cast_pow] at hy
  rw [Nat.cast_one, div_one] at hx
  obtain ⟨num, den, hmul, hden, hvalue⟩ :=
    Binary64.mul_eq_ofRatio (Binary64.ofNat n) (powerOfTen k)
  have hyNonneg : 0 ≤ (powerOfTen k).value := by
    unfold Binary64.value
    positivity
  rw [hmul]
  rcases Nat.eq_zero_or_pos num with rfl | hnum
  · rw [Binary64.ofRatio, if_pos rfl]
    exact Binary64.isFinite_ofMagnitudeBits _ (by decide)
  · refine (Binary64.value_ofRatio _ hnum hden ?_).1
    have htop : (2 : ℚ) ^ (971 : ℤ) = 2 * 2 ^ (970 : ℤ) := by
      rw [show (971 : ℤ) = 970 + 1 by norm_num, zpow_add_one₀ two_ne_zero, mul_comm]
    have hp : (0 : ℚ) < 2 ^ (970 : ℤ) := by positivity
    calc (num / den : ℚ) = (Binary64.ofNat n).value * (powerOfTen k).value := hvalue
      _ ≤ n * (1 + 1 / 2 ^ 53) * ((10 : ℕ) ^ k * (1 + 1 / 2 ^ 53)) :=
          mul_le_mul hx hy hyNonneg (by positivity)
      _ = n * 10 ^ k * (1 + 1 / 2 ^ 53) ^ 2 := by
          push_cast
          ring
      _ ≤ (2 ^ 54 - 7) * 2 ^ (970 : ℤ) * (1 + 1 / 2 ^ 53) ^ 2 :=
          mul_le_mul_of_nonneg_right h (by positivity)
      _ = (2 ^ 54 - 7) * (1 + 1 / 2 ^ 53) ^ 2 * 2 ^ (970 : ℤ) := by ring
      _ < (2 ^ 54 - 1) * 2 ^ (970 : ℤ) := mul_lt_mul_of_pos_right (by norm_num) hp
      _ = (2 ^ 53 - 1 / 2) * 2 ^ (971 : ℤ) := by
          rw [htop]
          ring

/-- The decimals of the last three floats before infinity are scaled up to finite numbers. -/
theorem staysFinite_last {x : Binary64} (h : x.magnitude = (2 ^ 53 - 1, 2045) ∨
    x.magnitude = (2 ^ 53 - 2, 2045) ∨ x.magnitude = (2 ^ 53 - 3, 2045)) :
    StaysFinite (shortest .toEven x) := by
  unfold shortest
  rcases h with h | h | h <;> rw [h] <;> decide +kernel

theorem digits_shortest_pos {x : Binary64} (hfinite : x.isFinite = true)
    (hzero : x.isZero = false) : 0 < (shortest .toEven x).digits := by
  have hpositive := (shortest_bounds .toEven hfinite hzero).1
  rw [Scaled.value] at hpositive
  have hcast := (mul_pos_iff_of_pos_right (by positivity)).mp hpositive
  exact_mod_cast hcast

/-- The shortest decimal of a finite float is scaled up to a finite number. -/
theorem staysFinite_shortest {x : Binary64} (hfinite : x.isFinite = true)
    (hzero : x.isZero = false) : StaysFinite (shortest .toEven x) := by
  by_cases hlast : x.magnitude = (2 ^ 53 - 1, 2045) ∨ x.magnitude = (2 ^ 53 - 2, 2045) ∨
      x.magnitude = (2 ^ 53 - 3, 2045)
  · exact staysFinite_last hlast
  obtain ⟨-, hclose, hword⟩ := shortest_bounds .toEven hfinite hzero
  obtain ⟨hm, hmHigh, he⟩ := magnitude_bounds hfinite hzero
  have hbound : (2 * x.magnitude.1 + 1 : ℚ) * 2 ^ ((x.magnitude.2 : ℤ) - 1075) ≤
      (2 ^ 54 - 7) * 2 ^ (970 : ℤ) := by
    have hcase : x.magnitude.1 ≤ 2 ^ 53 - 4 ∨ x.magnitude.2 ≤ 2044 := by
      by_contra hneither
      refine hlast ?_
      simp only [Prod.ext_iff]
      omega
    rcases hcase with hsmall | hlower
    · have hm' : (x.magnitude.1 : ℚ) ≤ 2 ^ 53 - 4 := by
        have hcast : x.magnitude.1 + 4 ≤ 2 ^ 53 := by omega
        have hcast' : (x.magnitude.1 : ℚ) + 4 ≤ 2 ^ 53 := by exact_mod_cast hcast
        linarith
      refine mul_le_mul (by linarith) (zpow_le_zpow_right₀ one_le_two (by omega)) (by positivity)
        (by norm_num)
    · have hm' : (x.magnitude.1 : ℚ) ≤ 2 ^ 53 := by exact_mod_cast hmHigh.le
      have hhalf : (2 : ℚ) ^ (970 : ℤ) = 2 ^ (969 : ℤ) * 2 := by
        rw [show (970 : ℤ) = 969 + 1 by norm_num, zpow_add_one₀ two_ne_zero]
      rw [hhalf, ← mul_assoc, mul_right_comm]
      refine mul_le_mul (by linarith) (zpow_le_zpow_right₀ one_le_two (by omega)) (by positivity)
        (by norm_num)
  intro hexponent
  obtain ⟨k, hk⟩ := Int.eq_ofNat_of_zero_le hexponent
  have hdecimal : ((shortest .toEven x).digits * 10 ^ k : ℚ) ≤ (2 ^ 54 - 7) * 2 ^ (970 : ℤ) := by
    have hle := hclose.trans hbound
    rwa [Scaled.value, hk, zpow_natCast] at hle
  have hdigits := digits_shortest_pos hfinite hzero
  have hk308 : k ≤ 308 := by
    by_contra hlarge
    have hpow : (10 : ℚ) ^ 309 ≤ 10 ^ k := pow_le_pow_right₀ (by norm_num) (by omega)
    have hone : (1 : ℚ) ≤ (shortest .toEven x).digits := by exact_mod_cast hdigits
    have hle : (10 : ℚ) ^ k ≤ (shortest .toEven x).digits * 10 ^ k :=
      le_mul_of_one_le_left (by positivity) hone
    have hcontra : (10 : ℚ) ^ 309 ≤ (2 ^ 54 - 7) * 2 ^ (970 : ℤ) := hpow.trans (hle.trans hdecimal)
    have hlimit : (0x3FFFFFFFFFFFFF * 2 ^ 970 : ℚ) < 10 ^ 309 := by exact_mod_cast lt_ten_pow_309
    have htwo : (2 : ℚ) ^ (970 : ℤ) = 2 ^ 970 := zpow_natCast 2 970
    have hpos : (0 : ℚ) < 2 ^ 970 := by positivity
    rw [htwo] at hcontra
    generalize (2 : ℚ) ^ 970 = p at hcontra hlimit hpos
    generalize (10 : ℚ) ^ 309 = q at hcontra hlimit
    linarith only [hcontra, hlimit, hpos]
  rw [hk]
  refine ⟨by omega, ?_⟩
  rw [Int.toNat_natCast]
  exact isFinite_mul hdigits hword hk308 hdecimal

/-- The decimal of a finite float without its sign. -/
def magnitudeChars (x : Binary64) : List Char :=
  if x.isZero then positionalChars Layout.structured.wholeWithPoint ['0'] 0
  else (shortest Layout.structured.tie x).chars .structured

/-- A float is read as its decimal is, with the sign before it. -/
theorem read?_of_magnitudeChars {x y : Binary64} (hfinite : x.isFinite = true) {rest : List Char}
    (h : unsigned? x.isNegative (magnitudeChars x ++ rest) = some (float y, rest)) :
    read? ((float x).chars ++ rest) = some (float y, rest) := by
  rw [chars, if_pos hfinite, finiteChars, ← magnitudeChars]
  by_cases hnegative : x.isNegative = true
  · rw [hnegative] at h
    rwa [if_pos hnegative, List.cons_append, read?]
  · rw [Bool.eq_false_of_not_eq_true hnegative] at h
    rw [if_neg hnegative, read?]
    · exact h
    · rintro tail htail
      rw [htail] at h
      simp [unsigned?, digitRun, isDigit] at h

/-- The text of a finite float reads back as some float. -/
theorem read?_float {x : Binary64} (hfinite : x.isFinite = true) :
    ∃ y, ∀ rest, Ends rest → read? ((float x).chars ++ rest) = some (float y, rest) := by
  have hunsigned : ReadsAsFloat x.isNegative (magnitudeChars x) := by
    unfold magnitudeChars
    split_ifs with hzero
    · exact readsAsFloat_point _ isDigit_of_mem_zero (by simp) (Or.inr le_rfl) (by norm_num)
        isDigit_of_mem_zero (by simp)
    · have hzero' : x.isZero = false := by simpa using hzero
      obtain ⟨-, -, hword⟩ := shortest_bounds .toEven hfinite hzero'
      simp only [Scaled.chars]
      split_ifs with hpositional
      · refine readsAsFloat_positional _ (digits_shortest_pos hfinite hzero') ?_
        have hrange := of_decide_eq_true hpositional
        exact hrange.2
      · exact readsAsFloat_exponent _ hword (staysFinite_shortest hfinite hzero')
  obtain ⟨y, hy⟩ := hunsigned
  exact ⟨y, fun rest hrest ↦ read?_of_magnitudeChars hfinite (hy rest hrest)⟩

end Number

end Logbook.Json
