import Logbook.Clock
import Mathlib.Tactic.SplitIfs

/-!
# Milliseconds of instants

The milliseconds of an instant can be counted in signed 64-bit words (`millisInWords?`): no step of
the count overflows on any day of the calendar (`millisInWords?_eq`), although the nanoseconds of
most moments do not fit in a word. Those that fit are found, because before 1970 they are counted
back from the end of the second (`nanosInWords?_eq`). The exception is one second that reaches the
words only if it goes on for another one, as leap seconds do; it is not the last of a minute
(`fromFirst_iff`).

From the first moment on whose nanoseconds are found (`FromFirst`), milliseconds are truncated
toward zero, behind the last of these moments too (`counted_of_fromFirst`). Before the first, where
whole milliseconds are added to negative seconds, they are rounded down
(`counted_of_not_fromFirst`).
-/

set_option autoImplicit false
set_option relaxedAutoImplicit false

namespace Logbook.Instant

/-! ### Counting in words -/

/-- A number, if it fits in a signed 64-bit word. -/
def word? (n : Int) : Option Int :=
  if -0x8000000000000000 ≤ n ∧ n < 0x8000000000000000 then some n else none

/-- The nanoseconds of an instant, if every step of their count fits in a word. Before 1970 a second
that has begun counts as a whole one, less what is missing of it. -/
def nanosInWords? (t : Instant) : Option Int :=
  if t.seconds < 0 then
    (word? ((t.seconds + 1) * 1000000000)).bind fun whole ↦
      word? (whole + ((t.nanos : Int) - 1000000000))
  else
    (word? (t.seconds * 1000000000)).bind fun whole ↦ word? (whole + t.nanos)

/-- The milliseconds of an instant, if every step of their count fits in a word. -/
def millisInWords? (t : Instant) : Option Int :=
  match t.nanosInWords? with
  | some n => word? (n.tdiv 1000000)
  | none =>
    (word? (t.seconds * 1000)).bind fun whole ↦ word? (whole + (t.nanos / 1000000 : Nat))

/-- A moment on a day of the calendar. Any second may go on for another one, as a leap second
does. -/
structure InCalendar (t : Instant) : Prop where
  first : daysToYear firstYear ≤ t.seconds / 86400
  last : t.seconds / 86400 < daysToYear (lastYear + 1)
  nanos : t.nanos < 2000000000

/-- In the order of the clock, a moment is not before the first one whose nanoseconds fit in a word:
0.145224192 seconds into 1677-09-21 00:12:43. -/
def FromFirst (t : Instant) : Prop :=
  -9223372037 < t.seconds ∨ t.seconds = -9223372037 ∧ 145224192 ≤ t.nanos

instance (t : Instant) : Decidable t.FromFirst :=
  inferInstanceAs (Decidable (_ ∨ _))

variable {t : Instant}

theorem word?_of_fits {n : Int} (h : -0x8000000000000000 ≤ n ∧ n < 0x8000000000000000) :
    word? n = some n :=
  if_pos h

theorem word?_of_not_fits {n : Int} (h : ¬(-0x8000000000000000 ≤ n ∧ n < 0x8000000000000000)) :
    word? n = none :=
  if_neg h

/-- The seconds of the calendar. -/
theorem InCalendar.seconds (h : t.InCalendar) :
    -8334601228800 ≤ t.seconds ∧ t.seconds < 8210266876800 := by
  have hfirst : daysToYear firstYear = -96465292 := by decide
  have hlast : daysToYear (lastYear + 1) = 95026237 := by decide
  have hbefore := h.first
  have hbehind := h.last
  omega

/-- The moments the calendar has itself: only the last second of a minute goes on. -/
theorem isValid_iff : t.isValid = true ↔
    t.InCalendar ∧ (1000000000 ≤ t.nanos → t.seconds % 60 = 59) := by
  simp only [isValid, Bool.and_eq_true, Bool.or_eq_true, decide_eq_true_eq, beq_iff_eq]
  constructor
  · rintro ⟨⟨hfirst, hlast⟩, hnanos⟩
    exact ⟨⟨hfirst, hlast, by omega⟩, by omega⟩
  · rintro ⟨⟨hfirst, hlast, hnanos⟩, hleap⟩
    exact ⟨⟨hfirst, hlast⟩, by omega⟩

theorem FromFirst.le_totalNanos (h : t.FromFirst) : -0x8000000000000000 ≤ t.totalNanos := by
  unfold FromFirst at h
  unfold totalNanos
  omega

/-- Of the moments the calendar has itself, these are the ones whose nanoseconds are no less than
those of the first. The one second before it that could reach it is not the last of a minute. -/
theorem fromFirst_iff (h : t.isValid = true) :
    t.FromFirst ↔ -0x8000000000000000 ≤ t.totalNanos := by
  obtain ⟨hcalendar, hleap⟩ := isValid_iff.mp h
  have hnanos := hcalendar.nanos
  refine ⟨FromFirst.le_totalNanos, fun hle ↦ ?_⟩
  unfold totalNanos at hle
  unfold FromFirst
  omega

/-- From the first moment on, the nanoseconds are counted wherever they fit in a word. -/
theorem nanosInWords?_eq (h : t.InCalendar) :
    t.nanosInWords? =
      if t.FromFirst ∧ t.totalNanos < 0x8000000000000000 then some t.totalNanos else none := by
  have hnanos := h.nanos
  unfold nanosInWords? totalNanos FromFirst
  split_ifs with hsign hcounted hcounted
  · have hsum : (t.seconds + 1) * 1000000000 + ((t.nanos : Int) - 1000000000) =
        t.seconds * 1000000000 + t.nanos := by omega
    rw [word?_of_fits (by omega), Option.bind_some, hsum, word?_of_fits (by omega)]
  · by_cases hwhole : -0x8000000000000000 ≤ (t.seconds + 1) * 1000000000
    · rw [word?_of_fits (by omega), Option.bind_some, word?_of_not_fits (by omega)]
    · rw [word?_of_not_fits (by omega), Option.bind_none]
  · rw [word?_of_fits (by omega), Option.bind_some, word?_of_fits (by omega)]
  · by_cases hwhole : t.seconds * 1000000000 < 0x8000000000000000
    · rw [word?_of_fits (by omega), Option.bind_some, word?_of_not_fits (by omega)]
    · rw [word?_of_not_fits (by omega), Option.bind_none]

/-- The milliseconds that are counted: the nanoseconds truncated toward zero where they are counted
themselves, and else the milliseconds of the second and of its fraction. -/
def counted (t : Instant) : Int :=
  if t.FromFirst ∧ t.totalNanos < 0x8000000000000000 then t.totalNanos.tdiv 1000000
  else t.seconds * 1000 + (t.nanos / 1000000 : Nat)

/-- No step overflows. -/
theorem millisInWords?_eq (h : t.InCalendar) : t.millisInWords? = some t.counted := by
  obtain ⟨hfirst, hlast⟩ := h.seconds
  have hnanos := h.nanos
  rw [millisInWords?, nanosInWords?_eq h, counted]
  split_ifs with hcounted
  · have hle := hcounted.1.le_totalNanos
    have hquotient : -0x8000000000000000 ≤ t.totalNanos.tdiv 1000000 ∧
        t.totalNanos.tdiv 1000000 < 0x8000000000000000 := by
      rw [Int.tdiv_eq_ediv, Int.sign_eq_one_of_pos (by decide)]
      split_ifs <;> omega
    exact word?_of_fits hquotient
  · dsimp only
    rw [word?_of_fits (by omega), Option.bind_some, word?_of_fits (by omega)]

/-- For the moments the calendar has itself, milliseconds are what is counted. -/
theorem millis_eq_counted (h : t.isValid = true) : t.millis = t.counted := by
  simp only [millis, counted, fromFirst_iff h]

/-! ### Rounding -/

/-- From the first moment on, milliseconds are truncated toward zero. -/
theorem counted_of_fromFirst (h : t.FromFirst) : t.counted = t.totalNanos.tdiv 1000000 := by
  have hle := h.le_totalNanos
  rw [counted]
  split_ifs with hcounted
  · rfl
  · have hbeyond : 0x8000000000000000 ≤ t.totalNanos :=
      Int.not_lt.mp fun hlt ↦ hcounted ⟨h, hlt⟩
    rw [Int.tdiv_eq_ediv_of_nonneg (by omega), totalNanos]
    omega

/-- Before that moment they are rounded down. -/
theorem counted_of_not_fromFirst (h : ¬t.FromFirst) :
    t.counted = t.totalNanos.fdiv 1000000 := by
  rw [counted, if_neg fun hcounted ↦ h hcounted.1, Int.fdiv_eq_ediv_of_nonneg _ (by decide),
    totalNanos]
  omega

/-- The milliseconds of every moment of the calendar are counted without overflow. They are the
nanoseconds divided by a million and truncated toward zero, or rounded down before the first moment
whose nanoseconds fit in a word; so they are truncated everywhere but there, and there just where no
fraction of a millisecond is left. For the moments the calendar has itself, these are the ones whose
nanoseconds lie below all words. -/
theorem millis_truncates (h : t.InCalendar) :
    ∃ m, t.millisInWords? = some m ∧
      m = (if t.FromFirst then t.totalNanos.tdiv 1000000 else t.totalNanos.fdiv 1000000) ∧
      (m = t.totalNanos.tdiv 1000000 ↔ t.FromFirst ∨ 1000000 ∣ t.totalNanos) ∧
      (t.isValid = true →
        t.millis = m ∧ (t.FromFirst ↔ -0x8000000000000000 ≤ t.totalNanos)) := by
  have hnanos := h.nanos
  refine ⟨t.counted, millisInWords?_eq h, ?_, ?_, fun hvalid ↦
    ⟨millis_eq_counted hvalid, fromFirst_iff hvalid⟩⟩
  · split_ifs with hfrom
    · exact counted_of_fromFirst hfrom
    · exact counted_of_not_fromFirst hfrom
  · by_cases hfrom : t.FromFirst
    · exact iff_of_true (counted_of_fromFirst hfrom) (Or.inl hfrom)
    · -- before the first moment the two quotients differ by one unless nothing is left over
      have hneg : t.totalNanos < 0 := by
        unfold FromFirst at hfrom
        unfold totalNanos
        omega
      rw [counted_of_not_fromFirst hfrom, Int.fdiv_eq_ediv_of_nonneg _ (by decide),
        Int.tdiv_eq_ediv, Int.sign_eq_one_of_pos (by decide)]
      split_ifs <;> simp only [hfrom, false_or] <;> omega

/-- A leap second in 1969, counted back from 1970. -/
theorem millis_truncates_leap :
    (Instant.mk (-1) 1999999999).InCalendar ∧ (Instant.mk (-1) 1999999999).isValid = true ∧
      (Instant.mk (-1) 1999999999).millisInWords? = some 999 ∧
      (Instant.mk (-1) 1999999999).millis = 999 := by
  have hvalid : (Instant.mk (-1) 1999999999).isValid = true := by decide
  have hcalendar := (isValid_iff.mp hvalid).1
  obtain ⟨m, hwords, hvalue, -, hmillis⟩ := millis_truncates hcalendar
  obtain rfl : m = 999 := hvalue.trans (by decide)
  exact ⟨hcalendar, hvalid, hwords, (hmillis hvalid).1⟩

/-- In the year 1653 a fraction of a millisecond is rounded down, away from zero. -/
theorem millis_floors :
    (Instant.mk (-10000000000) 1).isValid = true ∧
      (Instant.mk (-10000000000) 1).totalNanos.tdiv 1000000 = -9999999999999 ∧
      (Instant.mk (-10000000000) 1).millis = -10000000000000 := by
  decide

end Logbook.Instant
