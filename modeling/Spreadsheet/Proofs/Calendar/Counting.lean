import Spreadsheet.Proofs.Calendar.Printing

/-! Days counted one by one. From each day of the calendar to the next its number goes up by one, so
the numbers measure how many days lie between two dates, forwards and backwards, and every day
that can be represented is a date. -/

namespace Spreadsheet.Calendar

namespace Civil

/-- The day after: the next one of the month, else the first of the next month, else of the next
year. -/
def next (c : Civil) : Civil :=
  if c.day < monthLength c.year c.month then { c with day := c.day + 1 }
  else if c.month < 12 then ⟨c.year, c.month + 1, 1⟩
  else ⟨c.year + 1, 1, 1⟩

/-- So many steps from `start`, each to the day after, lead to `c`; for a negative number, the
steps lead from `c` to `start`. -/
def IsDaysAfter (c start : Civil) (days : Int) : Prop :=
  next^[(-days).toNat] c = next^[days.toNat] start

instance (c start : Civil) (days : Int) : Decidable (c.IsDaysAfter start days) :=
  inferInstanceAs (Decidable (_ = _))

/-- The first day of the month that comes so many months after January of the year 0. -/
structure IsFirstOf (c : Civil) (months : Int) : Prop where
  january : 1 ≤ c.month
  december : c.month ≤ 12
  months : 12 * c.year + (c.month - 1) = months
  day : c.day = 1

end Civil

/-! ## The day after -/

theorem monthLength_pos (year : Int) (month : Nat) : 1 ≤ monthLength year month := by
  unfold monthLength
  split_ifs <;> decide

/-- A year is longer than 365 days by the leap day of its February. -/
theorem daysBefore_leap (year : Int) :
    365 * year + year / 4 - year / 100 + year / 400 =
      365 * (year - 1) + (year - 1) / 4 - (year - 1) / 100 + (year - 1) / 400 +
        (337 + monthLength year 2) := by
  have hleap : isLeapYear year = true ↔ year % 4 = 0 ∧ (year % 100 ≠ 0 ∨ year % 400 = 0) := by
    simp [isLeapYear]
  simp only [monthLength, beq_self_eq_true, if_true, hleap]
  split <;> omega

namespace Civil.InCalendar

variable {c c' : Civil}

theorem next (h : c.InCalendar) : c.next.InCalendar := by
  unfold Civil.next
  split
  · next hday => exact ⟨h.january, h.december, Nat.le_add_left .., hday⟩
  · split
    · next hmonth => exact ⟨Nat.le_add_left .., hmonth, le_refl 1, monthLength_pos ..⟩
    · exact ⟨le_refl 1, show 1 ≤ 12 by decide, le_refl 1, monthLength_pos ..⟩

theorem dayNumber_next (h : c.InCalendar) : c.next.dayNumber = c.dayNumber + 1 := by
  obtain ⟨year, month, day⟩ := c
  obtain ⟨hjanuary, hdecember, hfirst, hlast⟩ := h
  have hleap := daysBefore_leap year
  dsimp only at hjanuary hdecember hfirst hlast
  unfold Civil.next
  dsimp only
  split
  · unfold dayNumber
    dsimp only
    omega
  · have hday : day = monthLength year month := by omega
    subst hday
    split
    · -- years are counted from March, so the number knows February's length only by the year
      unfold dayNumber
      dsimp only
      interval_cases month <;> simp [monthLength] at hleap ⊢ <;> omega
    · obtain rfl : month = 12 := by omega
      unfold dayNumber
      simp [monthLength]
      omega

theorem iterate_next (h : c.InCalendar) (n : Nat) :
    (Civil.next^[n] c).InCalendar ∧ (Civil.next^[n] c).dayNumber = c.dayNumber + n := by
  induction n with
  | zero => exact ⟨h, (Int.add_zero _).symm⟩
  | succ n ih =>
    rw [Function.iterate_succ_apply']
    refine ⟨ih.1.next, ?_⟩
    rw [ih.1.dayNumber_next, ih.2]
    omega

theorem eq_of_dayNumber (h : c.InCalendar) (h' : c'.InCalendar)
    (hnumber : c.dayNumber = c'.dayNumber) : c = c' := by
  rw [← h.ofDayNumber_dayNumber, hnumber, h'.ofDayNumber_dayNumber]

/-- The numbers of days tell how far they are apart. -/
theorem isDaysAfter_iff (h : c.InCalendar) (h' : c'.InCalendar) (days : Int) :
    c.IsDaysAfter c' days ↔ c.dayNumber = c'.dayNumber + days := by
  obtain ⟨hback, hbackNumber⟩ := h.iterate_next (-days).toNat
  obtain ⟨hforth, hforthNumber⟩ := h'.iterate_next days.toNat
  constructor
  · intro hdays
    rw [hdays, hforthNumber] at hbackNumber
    omega
  · intro hnumber
    exact hback.eq_of_dayNumber hforth (by omega)

/-- Days are numbered year after year. -/
theorem dayNumber_bounds (h : c.InCalendar) :
    dayNumber ⟨c.year, 1, 1⟩ ≤ c.dayNumber ∧ c.dayNumber < dayNumber ⟨c.year + 1, 1, 1⟩ := by
  obtain ⟨year, month, day⟩ := c
  obtain ⟨hjanuary, hdecember, hfirst, hlast⟩ := h
  have hleap := daysBefore_leap year
  have hfebruary : 28 ≤ monthLength year 2 := by
    change 28 ≤ if isLeapYear year then 29 else 28
    split <;> decide
  have hlength := monthLength_le year month
  dsimp only at hjanuary hdecember hfirst hlast
  unfold dayNumber
  dsimp only
  split <;> omega

end Civil.InCalendar

theorem dayNumber_newYear_mono {y z : Int} (h : y ≤ z) :
    Civil.dayNumber ⟨y, 1, 1⟩ ≤ Civil.dayNumber ⟨z, 1, 1⟩ := by
  have hmono := daysBefore_mono (show y - 1 ≤ z - 1 by omega)
  unfold Civil.dayNumber
  dsimp only
  omega

/-- A day that can be represented is a date. -/
theorem exists_of_isDay {n : Int} (h : isDay n = true) :
    ∃ c : Civil, c.isValid = true ∧ c.dayNumber = n := by
  -- the day is met on the way from the first one, and its number keeps it within the years
  have hstart : Civil.InCalendar ⟨firstYear, 1, 1⟩ := ⟨by decide, by decide, by decide, by decide⟩
  obtain ⟨hcalendar, hnumber⟩ := hstart.iterate_next (n - firstDay).toNat
  have hrange : firstDay ≤ n ∧ n ≤ lastDay := by simpa [isDay] using h
  have hn : (Civil.next^[(n - firstDay).toNat] ⟨firstYear, 1, 1⟩).dayNumber = n := by
    change _ = firstDay + _ at hnumber
    omega
  generalize Civil.next^[(n - firstDay).toNat] ⟨firstYear, 1, 1⟩ = c at hcalendar hn
  obtain ⟨hlow, hhigh⟩ := hcalendar.dayNumber_bounds
  refine ⟨c, (Civil.isValid_iff c).mpr ⟨?_, ?_, hcalendar⟩, hn⟩
  · by_contra hyear
    have hmono := dayNumber_newYear_mono (show c.year + 1 ≤ firstYear by omega)
    change _ ≤ firstDay at hmono
    omega
  · by_contra hyear
    have hmono := dayNumber_newYear_mono (show lastYear + 1 ≤ c.year by omega)
    rw [show Civil.dayNumber ⟨lastYear + 1, 1, 1⟩ = lastDay + 1 by decide] at hmono
    omega

/-! ## Months -/

theorem Civil.IsFirstOf.eq {c : Civil} {months : Int} (h : c.IsFirstOf months) :
    c = ⟨months / 12, (months % 12).toNat + 1, 1⟩ := by
  obtain ⟨year, month, day⟩ := c
  obtain ⟨hjanuary, hdecember, hmonths, rfl⟩ := h
  dsimp only at hjanuary hdecember hmonths
  rw [Civil.mk.injEq]
  omega

theorem Civil.IsFirstOf.inCalendar {c : Civil} {months : Int} (h : c.IsFirstOf months) :
    c.InCalendar :=
  ⟨h.january, h.december, h.day.ge, h.day.trans_le (monthLength_pos ..)⟩

end Spreadsheet.Calendar
