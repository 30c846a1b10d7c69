import Spreadsheet.Builtin.Temporal
import Spreadsheet.Proofs.Calendar.Counting
import Spreadsheet.Proofs.Number.Whole

/-! DATE makes a date of whole numbers by counting: months from January of the year 0, then days
from the first of that month. The parts are so small that nothing is rounded. -/

namespace Spreadsheet

open Calendar

/-- The value is this date, at midnight. -/
def Value.IsDate (v : Value) (c : Civil) : Prop :=
  ∃ day, v = .date (.midnight day) ∧ Civil.ofDayNumber day = c

namespace Builtin

open Number

/-- A number of years, months or days for which the arithmetic is exact. -/
def IsPart (n : Int) : Prop := n.natAbs ≤ 10 ^ 9

instance (n : Int) : Decidable (IsPart n) := inferInstanceAs (Decidable (_ ≤ _))

theorem isWhole_part {n : Int} (h : IsPart n) : IsWhole (.ofInt n) n :=
  isWhole_ofInt (by unfold IsPart at h; omega)

theorem isWhole_months {x y : Float} {year month : Int} (hyear : IsPart year)
    (hmonth : IsPart month) (hx : IsWhole x year) (hy : IsWhole y month) :
    IsWhole (truncated x * 12 + truncated y - 1) (12 * year + (month - 1)) := by
  unfold IsPart at hyear hmonth
  have htwelve : IsWhole 12 (12 : Nat) := isWhole_ofNat (by decide)
  have hone : IsWhole 1 (1 : Nat) := isWhole_ofNat (by decide)
  have hyears := (hx.truncated (by omega)).mul htwelve (by omega)
  have hsum := hyears.add (hy.truncated (by omega)) (by omega)
  have hmonths : 12 * year + (month - 1) = year * (12 : Nat) + month - (1 : Nat) := by omega
  rw [hmonths]
  exact hsum.sub hone (by omega)

/-- Whole parts are counted as whole numbers. -/
theorem date_eq {year month day : Int} (hyear : IsPart year) (hmonth : IsPart month)
    (hday : IsPart day) :
    date [.number (.ofInt year), .number (.ofInt month), .number (.ofInt day)] =
      let months := 12 * year + (month - 1)
      if months < 0 ∨ 12 * 9999 < months then .error .badNumber
      else
        match dayOfMonth? months day with
        | some n => .date (.midnight n)
        | none => .error .badNumber := by
  have hmonths := isWhole_months hyear hmonth (isWhole_part hyear) (isWhole_part hmonth)
  have hdays := isWhole_part hday
  change Value.ofResult id
    (if (!(truncated (.ofInt year) * 12 + truncated (.ofInt month) - 1).isFinite ||
      (Float.ofInt day).isInf) = true then .error .badNumber else _) = _
  simp only [hmonths.isFinite, hdays.isInf, hdays.isNaN, hmonths.wholePart, hdays.wholePart,
    Bool.not_true, Bool.or_false, Bool.false_eq_true, if_false, Bool.or_eq_true, decide_eq_true_eq,
    show lastMonth = 12 * 9999 from rfl]
  split
  · rfl
  · cases dayOfMonth? (12 * year + (month - 1)) day <;> rfl

/-! ## Months and days -/

section Counting

variable {start : Civil} {months : Int} (hstart : start.IsFirstOf months)
include hstart

theorem dayOfMonth?_eq (day : Int) :
    dayOfMonth? months day =
      let n := start.dayNumber + (day - 1)
      if isDay n then some n else none := by
  unfold dayOfMonth?
  rw [hstart.eq]

theorem dayOfMonth?_of_isDaysAfter {c : Civil} {day : Int} (hc : c.isValid = true)
    (h : c.IsDaysAfter start (day - 1)) : dayOfMonth? months day = some c.dayNumber := by
  have hcalendar := ((Civil.isValid_iff c).mp hc).2.2
  have hnumber := (hcalendar.isDaysAfter_iff hstart.inCalendar _).mp h
  rw [dayOfMonth?_eq hstart, ← hnumber]
  exact if_pos (isDay_dayNumber hc)

theorem dayOfMonth?_eq_none {day : Int}
    (h : ∀ c : Civil, c.isValid = true → ¬ c.IsDaysAfter start (day - 1)) :
    dayOfMonth? months day = none := by
  rw [dayOfMonth?_eq hstart]
  refine if_neg fun hday => ?_
  obtain ⟨c, hc, hnumber⟩ := exists_of_isDay hday
  have hcalendar := ((Civil.isValid_iff c).mp hc).2.2
  exact h c hc ((hcalendar.isDaysAfter_iff hstart.inCalendar _).mpr hnumber)

end Counting

/-- The first of the month, and how far a day of it is from there. -/
theorem isFirstOf_month {c : Civil} (h : c.InCalendar) :
    Civil.IsFirstOf ⟨c.year, c.month, 1⟩ (12 * c.year + (c.month - 1)) :=
  ⟨h.january, h.december, rfl, rfl⟩

theorem isDaysAfter_first {c : Civil} (h : c.InCalendar) :
    c.IsDaysAfter ⟨c.year, c.month, 1⟩ (c.day - 1) := by
  refine (h.isDaysAfter_iff (isFirstOf_month h).inCalendar _).mpr ?_
  unfold Civil.dayNumber
  dsimp only
  omega

/-- DATE counts months from January of the year 0 and days from the first of the month, either way,
and answers the date it comes to. The months it counts to are those of the years 0 to 9998 and
January 9999; for any other, and where the days lead to no date, it answers #NUM!. So the years 0
to 9998 and January 9999 are dates as they are written. -/
theorem date_counted {year month day : Int} (hyear : IsPart year) (hmonth : IsPart month)
    (hday : IsPart day) :
    let made := date [.number (.ofInt year), .number (.ofInt month), .number (.ofInt day)]
    let months := 12 * year + (month - 1)
    (0 ≤ months → months ≤ 12 * 9999 →
      ∃ start : Civil, start.IsFirstOf months ∧
        (∀ c : Civil, c.isValid = true → c.IsDaysAfter start (day - 1) → made.IsDate c) ∧
        ((∀ c : Civil, c.isValid = true → ¬ c.IsDaysAfter start (day - 1)) →
          made = .error .badNumber)) ∧
    (months < 0 ∨ 12 * 9999 < months → made = .error .badNumber) ∧
    (∀ c : Civil, c.InCalendar → c.year = year → c.month = month → c.day = day →
      0 ≤ year → year < 9999 ∨ year = 9999 ∧ month = 1 → made.IsDate c) := by
  intro made months
  have hmade : made = _ := date_eq hyear hmonth hday
  dsimp only at hmade
  have hcounted (hlow : 0 ≤ months) (hhigh : months ≤ 12 * 9999) {start : Civil}
      (hstart : start.IsFirstOf months) {c : Civil} (hc : c.isValid = true)
      (hdays : c.IsDaysAfter start (day - 1)) : made.IsDate c := by
    rw [if_neg (by omega), dayOfMonth?_of_isDaysAfter hstart hc hdays] at hmade
    exact ⟨c.dayNumber, hmade, ofDayNumber_dayNumber hc⟩
  refine ⟨fun hlow hhigh => ?_, fun hout => ?_, ?_⟩
  · have hstart : Civil.IsFirstOf ⟨months / 12, (months % 12).toNat + 1, 1⟩ months :=
      ⟨by simp, by dsimp only; omega, by dsimp only; omega, rfl⟩
    refine ⟨_, hstart, fun c hc hdays => hcounted hlow hhigh hstart hc hdays, fun hnone => ?_⟩
    rw [if_neg (by omega), dayOfMonth?_eq_none hstart hnone] at hmade
    exact hmade
  · rwa [if_pos (by omega)] at hmade
  · rintro c hc rfl rfl rfl hfirst hlast
    have hjanuary := hc.january
    have hdecember := hc.december
    have hvalid : c.isValid = true :=
      (Civil.isValid_iff c).mpr ⟨by unfold firstYear; omega, by unfold lastYear; omega, hc⟩
    exact hcounted (by omega) (by omega) (isFirstOf_month hc) hvalid (isDaysAfter_first hc)

/-- From January 2023 thirteen months and twenty-nine days lead over a leap day. -/
theorem date_counted_over_leap_day :
    IsPart 2023 ∧ IsPart 14 ∧ IsPart 30 ∧
      (date [.number (.ofInt 2023), .number (.ofInt 14), .number (.ofInt 30)]).IsDate
        ⟨2024, 3, 1⟩ := by
  refine ⟨by decide, by decide, by decide, ?_⟩
  obtain ⟨hcounted, -, -⟩ := date_counted (show IsPart 2023 by decide)
    (show IsPart 14 by decide) (show IsPart 30 by decide)
  obtain ⟨start, hstart, hdate, -⟩ := hcounted (by decide) (by decide)
  refine hdate _ (by decide) ?_
  rw [hstart.eq]
  decide +kernel

/-- The last month of the year 9999 is refused. -/
theorem december_9999_refused :
    Civil.isValid ⟨9999, 12, 31⟩ = true ∧ 12 * 9999 + (12 - 1) < 12 * 10000 ∧
      date [.number (.ofInt 9999), .number (.ofInt 12), .number (.ofInt 31)] =
        .error .badNumber := by
  refine ⟨by decide, by decide, ?_⟩
  have hmade := date_eq (show IsPart 9999 by decide) (show IsPart 12 by decide)
    (show IsPart 31 by decide)
  rwa [if_pos (by decide)] at hmade

end Builtin

end Spreadsheet
