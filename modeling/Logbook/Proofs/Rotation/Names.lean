import Logbook.Proofs.Decimal.Digits
import Logbook.Rotation.BackupName
import Mathlib.Data.List.TakeWhile

/-!
# Names of backups, read back and in order

A timestamp whose year has four digits (`Timestamp.IsReading`, what a clock shows) is read back from
its text (`Timestamp.read?_text`), and the texts of two such timestamps are ordered as the
timestamps are in the calendar (`Timestamp.text_lt_text`).

A backup with a date (`BackupName.IsDated`) is recognized by the name of its file
(`BackupName.ofFileName?_of_isDated`). Names are read leniently, so a backup may stand under another
name than its own; but its own is again the name of a backup
(`BackupName.ofFileName?_fileName_of_ofFileName?`). The log file is no backup of itself
(`BackupName.ofFileName?_self`).

The backups made in one second are numbered from the second one on (`BackupName.nth`). The order in
which backups are compared (`BackupName.newer`) is irreflexive and transitive, and a later second or
a greater number makes a backup newer (`BackupName.nth_newer`).
-/

set_option autoImplicit false
set_option relaxedAutoImplicit false

namespace Logbook

open Decimal

/-! ### Timestamps -/

namespace Timestamp

/-- A date and time as a clock shows it: one of the calendar, in a year of four digits. -/
def IsReading (t : Timestamp) : Prop :=
  t.isValid = true ∧ 0 ≤ t.year ∧ t.year ≤ 9999

instance (t : Timestamp) : Decidable t.IsReading :=
  inferInstanceAs (Decidable (_ ∧ _ ∧ _))

/-- The parts of a timestamp from the year down to the second. -/
def parts (t : Timestamp) : List Int :=
  [t.year, t.month, t.day, t.hour, t.minute, t.second]

/-- The order of the calendar. -/
instance : LE Timestamp := ⟨fun t u ↦ t.parts ≤ u.parts⟩

instance : LT Timestamp := ⟨fun t u ↦ t.parts < u.parts⟩

instance (t u : Timestamp) : Decidable (t ≤ u) := inferInstanceAs (Decidable (t.parts ≤ u.parts))

theorem parts_injective {t u : Timestamp} (h : t.parts = u.parts) : t = u := by
  obtain ⟨year, month, day, hour, minute, second⟩ := t
  obtain ⟨year', month', day', hour', minute', second'⟩ := u
  simpa [parts] using h

theorem lt_or_eq {t u : Timestamp} (h : t ≤ u) : t < u ∨ t = u := by
  have hparts : t.parts ≤ u.parts := h
  exact (lt_or_eq_of_le hparts).imp_right parts_injective

theorem daysInMonth_le (year : Int) (month : Nat) : daysInMonth year month ≤ 31 := by
  unfold daysInMonth
  split <;> (try split) <;> omega

theorem month_le_of_daysInMonth_pos {year : Int} {month : Nat} (h : 0 < daysInMonth year month) :
    month ≤ 12 := by
  by_contra hmonth
  unfold daysInMonth at h
  split at h <;> omega

/-- What the parts of a reading are bounded by. -/
theorem IsReading.bounds {t : Timestamp} (h : t.IsReading) :
    t.year.toNat < 10 ^ 4 ∧ t.month < 10 ^ 2 ∧ t.day < 10 ^ 2 ∧ t.hour < 10 ^ 2 ∧
      t.minute < 10 ^ 2 ∧ t.second < 10 ^ 2 := by
  obtain ⟨hvalid, hlow, hhigh⟩ := h
  simp only [isValid, decide_eq_true_eq] at hvalid
  obtain ⟨-, -, hone, hday, hhour, hminute, hsecond⟩ := hvalid
  have hlength := daysInMonth_le t.year t.month
  have hmonth := month_le_of_daysInMonth_pos (hone.trans hday)
  refine ⟨?_, ?_, ?_, ?_, ?_, ?_⟩ <;> norm_num <;> omega

/-! ### Timestamps from their text -/

theorem number?_padded {width n : Nat} (hwidth : 0 < width) (hn : n < 10 ^ width)
    (rest : List Char) : number? width ((padded width n).toList ++ rest) = some (n, rest) := by
  have hlength := length_padded hwidth hn
  have hdigits : ∀ c ∈ (padded width n).toList, isDigit c = true :=
    fun _ hc ↦ isDigit_of_mem_padded hc
  have hvalue : natOfDigits (padded width n).toList = n := natOfDigits_padded
  generalize (padded width n).toList = ds at hlength hdigits hvalue
  cases ds with
  | nil => simp at hlength; omega
  | cons d ds =>
    have hhead := isBlank_digit (hdigits d List.mem_cons_self)
    have hfront : ((d :: ds ++ rest).take width).takeWhile isDigit = d :: ds := by
      rw [List.take_left' hlength]
      exact List.takeWhile_eq_self_iff.mpr hdigits
    unfold number?
    simp only [List.cons_append, List.dropWhile_cons, hhead, Bool.false_eq_true,
      ↓reduceIte] at hfront ⊢
    rw [hfront]
    simp [hvalue]

theorem year?_padded {n : Nat} (hn : n < 10 ^ 4) (rest : List Char) :
    year? ((padded 4 n).toList ++ rest) = some ((n : Int), rest) := by
  have hnumber := number?_padded (by decide) hn rest
  have hlength := length_padded (by decide) hn
  have hdigits : ∀ c ∈ (padded 4 n).toList, isDigit c = true :=
    fun _ hc ↦ isDigit_of_mem_padded hc
  generalize (padded 4 n).toList = ds at hnumber hlength hdigits
  cases ds with
  | nil => simp at hlength
  | cons d ds =>
    have hdigit := hdigits d List.mem_cons_self
    have hhead := isBlank_digit hdigit
    have hminus : d ≠ '-' := by rintro rfl; exact absurd hdigit (by decide)
    have hplus : d ≠ '+' := by rintro rfl; exact absurd hdigit (by decide)
    have hcs : (d :: ds ++ rest).dropWhile Text.isBlank = d :: ds ++ rest := by
      simp [hhead]
    unfold year?
    rw [hcs]
    simp only [List.cons_append] at hnumber ⊢
    split
    · next h => exact absurd (List.cons.inj h).1 hminus
    · next h => exact absurd (List.cons.inj h).1 hplus
    · rw [hnumber]
      rfl

/-- A reading is read back from its text. -/
theorem read?_text {t : Timestamp} (h : t.IsReading) : read? t.text.toList = some t := by
  obtain ⟨hyear, hmonth, hday, hhour, hminute, hsecond⟩ := h.bounds
  have hcast : ((t.year.toNat : Nat) : Int) = t.year := Int.toNat_of_nonneg h.2.1
  have hlast := number?_padded (by decide) hsecond []
  rw [List.append_nil] at hlast
  simp only [text, String.toList_append, List.append_assoc, read?]
  rw [year?_padded hyear]
  simp only [bind, Option.bind]
  rw [number?_padded (by decide) hmonth]
  simp only
  rw [number?_padded (by decide) hday]
  have hmark : "T".toList = ['T'] := rfl
  simp only [hmark, List.cons_append, List.nil_append]
  rw [number?_padded (by decide) hhour]
  simp only
  rw [number?_padded (by decide) hminute]
  simp only
  rw [hlast]
  simp [hcast]

/-! ### Timestamps in order -/

theorem append_lt_append {as bs cs ds : List Char} (hlength : as.length = bs.length)
    (h : as < bs) : as ++ cs < bs ++ ds := by
  induction as generalizing bs with
  | nil =>
    cases bs with
    | nil => exact absurd h (List.lt_irrefl [])
    | cons b bs => simp at hlength
  | cons a as ih =>
    cases bs with
    | nil => simp at hlength
    | cons b bs =>
      rw [List.cons_lt_cons_iff] at h
      rw [List.cons_append, List.cons_append, List.cons_lt_cons_iff]
      rcases h with h | ⟨rfl, h⟩
      · exact Or.inl h
      · exact Or.inr ⟨rfl, ih (by simpa using hlength) h⟩

/-- Texts that begin with two numbers of one width are ordered by these first. -/
theorem padded_append_lt {width n m : Nat} {cs ds : List Char} (hwidth : 0 < width)
    (hn : n < 10 ^ width) (hm : m < 10 ^ width) (h : n < m ∨ n = m ∧ cs < ds) :
    (padded width n).toList ++ cs < (padded width m).toList ++ ds := by
  rcases h with h | ⟨rfl, h⟩
  · exact append_lt_append (by rw [length_padded hwidth hn, length_padded hwidth hm])
      (padded_lt_padded hwidth hm h)
  · exact List.append_left_lt h

/-- The texts of readings are ordered as the readings are in the calendar. -/
theorem text_lt_text {t u : Timestamp} (ht : t.IsReading) (hu : u.IsReading) (h : t < u) :
    t.text < u.text := by
  obtain ⟨hyear, hmonth, hday, hhour, hminute, hsecond⟩ := ht.bounds
  obtain ⟨hyear', hmonth', hday', hhour', hminute', hsecond'⟩ := hu.bounds
  have hparts : t.parts < u.parts := h
  simp only [parts, List.cons_lt_cons_iff, Nat.cast_lt, Nat.cast_inj] at hparts
  rw [String.lt_iff]
  simp only [text, String.toList_append, List.append_assoc]
  have hfirst : t.year.toNat < u.year.toNat ∨ t.year.toNat = u.year.toNat ∧ _ :=
    hparts.imp (fun hlt ↦ by have := ht.2.1; omega) fun heq ↦ ⟨by rw [heq.1], heq.2⟩
  refine padded_append_lt (by decide) hyear hyear' (hfirst.imp_right fun hrest ↦ ⟨hrest.1, ?_⟩)
  refine padded_append_lt (by decide) hmonth hmonth' (hrest.2.imp_right fun hrest ↦ ⟨hrest.1, ?_⟩)
  refine padded_append_lt (by decide) hday hday' (hrest.2.imp_right fun hrest ↦ ⟨hrest.1, ?_⟩)
  refine List.append_left_lt ?_
  refine padded_append_lt (by decide) hhour hhour' (hrest.2.imp_right fun hrest ↦ ⟨hrest.1, ?_⟩)
  refine padded_append_lt (by decide) hminute hminute'
    (hrest.2.imp_right fun hrest ↦ ⟨hrest.1, ?_⟩)
  rcases hrest.2 with hlt | ⟨-, hnil⟩
  · exact padded_lt_padded (by decide) hsecond' hlt
  · exact absurd hnil (List.lt_irrefl [])

/-- A timestamp is written with digits and one mark. -/
theorem isDigit_or_mark_of_mem_text {t : Timestamp} {c : Char} (h : c ∈ t.text.toList) :
    isDigit c = true ∨ c = 'T' := by
  have hmark : "T".toList = ['T'] := rfl
  simp only [text, String.toList_append, List.mem_append, hmark, List.mem_singleton] at h
  rcases h with (((((h | h) | h) | h) | h) | h) | h
  · exact Or.inl (isDigit_of_mem_padded h)
  · exact Or.inl (isDigit_of_mem_padded h)
  · exact Or.inl (isDigit_of_mem_padded h)
  · exact Or.inr h
  · exact Or.inl (isDigit_of_mem_padded h)
  · exact Or.inl (isDigit_of_mem_padded h)
  · exact Or.inl (isDigit_of_mem_padded h)

end Timestamp

/-! ### Backups by their names -/

namespace BackupName

variable {base name : String} {b : BackupName} {t : Timestamp} {n : Nat}

/-- A backup whose timestamp is one of the calendar and ends where the name of the backup goes
on. -/
structure IsDated (b : BackupName) : Prop where
  point : '.' ∉ b.stamp.toList
  valid : ((Timestamp.read? b.stamp.toList).map Timestamp.isValid).getD false = true

/-- What follows the timestamp in the name of a backup, up to the ending. -/
def numberChars : Option Nat → List Char
  | none => []
  | some n => '.' :: Nat.toDigits 10 n

theorem toList_fileName (b : BackupName) (base : String) :
    (b.fileName base).toList = (base ++ ".").toList ++
      (b.stamp.toList ++ numberChars b.number ++ if b.packed then ".gz".toList else []) := by
  have hpoint : ".".toList = ['.'] := rfl
  unfold fileName numberChars
  cases b.number <;> cases b.packed <;> simp [hpoint, List.append_assoc]

theorem number?_toDigits (h : n < UInt64.size) : number? (Nat.toDigits 10 n) = some n := by
  have hdigits : ∀ c ∈ Nat.toDigits 10 n, isDigit c = true := fun _ hc ↦ isDigit_of_mem_toDigits hc
  have hnonempty : Nat.toDigits 10 n ≠ [] := Nat.toDigits_ne_nil
  have hvalue := natOfDigits_toDigits n
  generalize Nat.toDigits 10 n = ds at hdigits hnonempty hvalue
  have hall : ds.all isDigit = true := List.all_eq_true.mpr hdigits
  have hplus : ∀ rest, ds ≠ '+' :: rest := by
    rintro rest rfl
    exact absurd (hdigits '+' List.mem_cons_self) (by decide)
  unfold number?
  split
  · next rest => exact absurd rfl (hplus rest)
  · simp [hnonempty, hall, hvalue, h]

/-- What follows the name of the log file in the name of a backup stands for that backup. -/
theorem ofSuffix?_of_isDated (h : b.IsDated) (hn : ∀ n ∈ b.number, n < UInt64.size) :
    ofSuffix? (b.stamp.toList ++ numberChars b.number) b.packed = some b := by
  have hstamp : (b.stamp.toList ++ numberChars b.number).takeWhile (· ≠ '.') = b.stamp.toList := by
    have hno : ∀ c ∈ b.stamp.toList, decide (c ≠ '.') = true := by
      intro c hc
      refine decide_eq_true ?_
      rintro rfl
      exact h.point hc
    rw [List.takeWhile_append_of_pos hno]
    unfold numberChars
    cases b.number <;> simp
  unfold ofSuffix?
  simp only [hstamp, h.valid, Bool.not_true, Bool.false_eq_true, ↓reduceIte, List.drop_left,
    String.ofList_toList]
  obtain ⟨stamp, number, packed⟩ := b
  cases number with
  | none => rfl
  | some n => simp [numberChars, number?_toDigits (hn n rfl)]

/-- The only text behind the last point of a name that has the ending is that of the ending. -/
theorem eq_of_isSuffix_ending (front : List Char) {rest : List Char} (hrest : '.' ∉ rest)
    (h : ".gz".toList <:+ front ++ '.' :: rest) : rest = ['g', 'z'] := by
  have hending : ".gz".toList = ['.', 'g', 'z'] := rfl
  rw [hending] at h
  rcases List.suffix_or_suffix_of_suffix h (List.suffix_append front ('.' :: rest)) with h | h
  · rcases List.suffix_cons_iff.mp h with h | h
    · exact (List.cons.inj h).2.symm
    · exact absurd (h.subset List.mem_cons_self) hrest
  · rcases List.suffix_cons_iff.mp h with h | h
    · exact (List.cons.inj h).2
    · exact absurd (h.subset List.mem_cons_self) (by decide)

/-- A backup without the ending is not taken for one with it. -/
theorem dropEnding?_fileName (base : String) (h : b.IsDated) (hpacked : b.packed = false) :
    dropEnding? ".gz".toList (b.fileName base).toList = none := by
  have hpoint : (base ++ ".").toList = base.toList ++ ['.'] := by simp
  refine if_neg fun hending ↦ ?_
  have hsuffix := List.isSuffixOf_iff_suffix.mp hending
  rw [toList_fileName, hpacked, hpoint] at hsuffix
  cases hnumber : b.number with
  | none =>
    have heq : b.stamp.toList = ['g', 'z'] :=
      eq_of_isSuffix_ending base.toList h.point (by simpa [hnumber, numberChars] using hsuffix)
    have hvalid := h.valid
    rw [heq] at hvalid
    exact absurd hvalid (by decide)
  | some n =>
    have hdigits : ∀ c ∈ Nat.toDigits 10 n, isDigit c = true :=
      fun _ hc ↦ isDigit_of_mem_toDigits hc
    have heq : Nat.toDigits 10 n = ['g', 'z'] := by
      refine eq_of_isSuffix_ending (base.toList ++ '.' :: b.stamp.toList)
        (fun hmem ↦ absurd (hdigits _ hmem) (by decide)) ?_
      simpa [hnumber, numberChars] using hsuffix
    rw [heq] at hdigits
    exact absurd (hdigits 'g' List.mem_cons_self) (by decide)

/-- A backup is recognized by the name of its file. -/
theorem ofFileName?_of_isDated (base : String) (h : b.IsDated)
    (hn : ∀ n ∈ b.number, n < UInt64.size) : ofFileName? base (b.fileName base) = some b := by
  have hstart : ∀ rest, (base ++ ".").toList.isPrefixOf ((base ++ ".").toList ++ rest) = true :=
    fun rest ↦ List.isPrefixOf_iff_prefix.mpr (List.prefix_append _ rest)
  have hsuffix := ofSuffix?_of_isDated h hn
  cases hpacked : b.packed with
  | false =>
    have hending := dropEnding?_fileName base h hpacked
    rw [hpacked] at hsuffix
    unfold ofFileName?
    simp only [hending]
    simp only [toList_fileName, hpacked, Bool.false_eq_true, ↓reduceIte, List.append_nil, hstart,
      List.drop_left, hsuffix]
  | true =>
    have hending : dropEnding? ".gz".toList (b.fileName base).toList =
        some ((base ++ ".").toList ++ (b.stamp.toList ++ numberChars b.number)) := by
      rw [toList_fileName, hpacked, if_pos rfl, ← List.append_assoc]
      refine (if_pos (List.isSuffixOf_iff_suffix.mpr (List.suffix_append _ _))).trans ?_
      rw [List.length_append, Nat.add_sub_cancel, List.take_left]
    rw [hpacked] at hsuffix
    unfold ofFileName?
    simp only [hending, hstart, ↓reduceIte, List.drop_left, hsuffix]

theorem lt_of_number? {cs : List Char} (h : number? cs = some n) : n < UInt64.size := by
  unfold number? at h
  simp only at h
  split_ifs at h with hdigits hword
  rw [← Option.some.inj h]
  exact hword

/-- What a name stands for has a date, and a number that fits in a machine word. -/
theorem isDated_of_ofFileName? (h : ofFileName? base name = some b) :
    b.IsDated ∧ ∀ n ∈ b.number, n < UInt64.size := by
  have hsuffix : ∀ {cs : List Char} {packed : Bool}, ofSuffix? cs packed = some b →
      b.IsDated ∧ ∀ n ∈ b.number, n < UInt64.size := by
    intro cs packed hb
    unfold ofSuffix? at hb
    simp only at hb
    split_ifs at hb with hinvalid
    have hpoint : '.' ∉ cs.takeWhile (· ≠ '.') := by
      intro hmem
      simpa using List.mem_takeWhile_imp hmem
    have hdated : ∀ number, IsDated ⟨String.ofList (cs.takeWhile (· ≠ '.')), number, packed⟩ :=
      fun number ↦ ⟨by rwa [String.toList_ofList], by rw [String.toList_ofList]; simpa using hinvalid⟩
    split at hb
    · rw [← Option.some.inj hb]
      exact ⟨hdated none, fun n hn ↦ absurd hn (Option.not_mem_none n)⟩
    · obtain ⟨n, hn, rfl⟩ := Option.map_eq_some_iff.mp hb
      refine ⟨hdated (some n), fun m hm ↦ ?_⟩
      rw [← Option.some.inj hm]
      exact lt_of_number? hn
  unfold ofFileName? at h
  simp only at h
  split at h
  all_goals
    split_ifs at h
    exact hsuffix h

/-- The name of a backup that a name stands for is again the name of that backup, also where the two
names are not the same. -/
theorem ofFileName?_fileName_of_ofFileName? (h : ofFileName? base name = some b) :
    ofFileName? base (b.fileName base) = some b :=
  ofFileName?_of_isDated base (isDated_of_ofFileName? h).1 (isDated_of_ofFileName? h).2

/-! ### Backups of one second -/

/-- The backups made in one second, counted from zero: the first one has no number. -/
def nth (stamp : String) (n : Nat) : BackupName :=
  ⟨stamp, if n = 0 then none else some n, false⟩

@[simp] theorem nth_stamp (stamp : String) (n : Nat) : (nth stamp n).stamp = stamp := rfl

@[simp] theorem nth_number (stamp : String) (n : Nat) : (nth stamp n).number.getD 0 = n := by
  unfold nth
  by_cases hn : n = 0 <;> simp [hn]

theorem fitsWord_nth (stamp : String) {n : Nat} (h : n < UInt64.size) :
    (nth stamp n).fitsWord = true := by
  unfold nth fitsWord
  by_cases hn : n = 0
  · simp [hn]
  · simpa [hn] using h

/-- A backup made at a reading of the clock has that date. -/
theorem isDated_of_reading (ht : t.IsReading) (number : Option Nat) (packed : Bool) :
    IsDated ⟨t.text, number, packed⟩ := by
  refine ⟨fun hpoint ↦ ?_, ?_⟩
  · rcases Timestamp.isDigit_or_mark_of_mem_text hpoint with hdigit | hmark
    · exact absurd hdigit (by decide)
    · exact absurd hmark (by decide)
  · rw [Timestamp.read?_text ht, Option.map_some, Option.getD_some]
    exact ht.1

theorem ofFileName?_fileName (base : String) (ht : t.IsReading) (hn : n < UInt64.size) :
    ofFileName? base ((nth t.text n).fileName base) = some (nth t.text n) := by
  refine ofFileName?_of_isDated base (isDated_of_reading ht _ false) fun m hm ↦ ?_
  unfold nth at hm
  simp only [Option.mem_def, Option.ite_none_left_eq_some, Option.some.injEq] at hm
  exact hm.2 ▸ hn

/-- A log file is no backup of itself. -/
theorem ofFileName?_self (base : String) : ofFileName? base base = none := by
  have hshort : ∀ cs : List Char, cs.length ≤ base.toList.length →
      (base ++ ".").toList.isPrefixOf cs = false := by
    intro cs hcs
    refine Bool.eq_false_iff.mpr fun hstart ↦ ?_
    have hlength := (List.isPrefixOf_iff_prefix.mp hstart).length_le
    simp at hlength
    omega
  unfold ofFileName?
  cases hending : dropEnding? ".gz".toList base.toList with
  | none => simp only [hending, hshort _ le_rfl, Bool.false_eq_true, ↓reduceIte]
  | some shorter =>
    have hlength : shorter.length ≤ base.toList.length := by
      simp only [dropEnding?, Option.ite_none_right_eq_some, Option.some.injEq] at hending
      rw [← hending.2]
      exact List.length_take_le' _ _
    simp only [hending, hshort _ hlength, Bool.false_eq_true, ↓reduceIte]

/-! ### Backups in order -/

theorem newer_iff (a b : BackupName) : a.newer b = true ↔ b.stamp < a.stamp ∨ a.stamp = b.stamp ∧
    ∃ n, a.number = some n ∧ ∀ m ∈ b.number, m < n := by
  unfold newer
  cases ha : a.number <;> cases hb : b.number <;> simp

theorem newer_trans {a b c : BackupName} (hab : a.newer b = true) (hbc : b.newer c = true) :
    a.newer c = true := by
  rw [newer_iff] at hab hbc ⊢
  rcases hab with hab | ⟨hab, n, hn, hmore⟩
  · rcases hbc with hbc | ⟨hbc, -⟩
    · exact Or.inl (String.lt_trans hbc hab)
    · exact Or.inl (hbc ▸ hab)
  · rcases hbc with hbc | ⟨hbc, m, hm, hless⟩
    · exact Or.inl (hab ▸ hbc)
    · exact Or.inr ⟨hab.trans hbc, n, hn, fun k hk ↦ (hless k hk).trans (hmore m hm)⟩

theorem same_comm (a b : BackupName) : a.same b = b.same a := by
  rw [same, same, BEq.comm (a := a.stamp), BEq.comm (a := a.number)]

/-- A newer backup is another one, also where endings do not count. -/
theorem not_same_of_newer {a b : BackupName} (h : a.newer b = true) : a.same b = false := by
  rw [newer_iff] at h
  refine Bool.eq_false_iff.mpr fun hsame ↦ ?_
  simp only [same, Bool.and_eq_true, beq_iff_eq] at hsame
  rcases h with h | ⟨-, n, hn, hless⟩
  · exact String.lt_irrefl _ (hsame.1 ▸ h)
  · exact absurd (hless n (by rw [← hsame.2, hn]; rfl)) (Nat.lt_irrefl n)

/-- The next backup of a second is newer than the one before. -/
theorem nth_succ_newer (stamp : String) (n : Nat) :
    (nth stamp (n + 1)).newer (nth stamp n) = true := by
  rw [newer_iff]
  refine Or.inr ⟨rfl, n + 1, by simp [nth], fun m hm ↦ ?_⟩
  unfold nth at hm
  by_cases hn : n = 0 <;> simp_all

/-- A backup of a later second is newer. -/
theorem nth_newer_of_lt {stamp later : String} (h : stamp < later) (n m : Nat) :
    (nth later n).newer (nth stamp m) = true :=
  (newer_iff _ _).mpr (Or.inl h)

end BackupName

end Logbook
