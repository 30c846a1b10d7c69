import Spreadsheet.Calendar.Pattern
import Spreadsheet.Proofs.Number.Finite

/-! Moments that exist: those on a day that can be represented. Every date that is read is one, and
so few days exist that the serial number of each is finite. -/

namespace Spreadsheet.Calendar

/-- The day can be represented, and the time is one of that day; a leap second has up to two
thousand million nanoseconds. -/
structure Moment.Exists (m : Moment) : Prop where
  day : isDay m.day = true
  second : m.second < 86400
  nanosecond : m.nanosecond < 2000000000

instance (m : Moment) : Decidable m.Exists :=
  decidable_of_iff (_ ∧ _ ∧ _)
    ⟨fun h => ⟨h.1, h.2.1, h.2.2⟩, fun h => ⟨h.day, h.second, h.nanosecond⟩⟩

theorem firstDay_eq : firstDay = -96439723 := by decide
theorem lastDay_eq : lastDay = 95051805 := by decide

theorem isDay_iff (n : Int) : isDay n = true ↔ -96439723 ≤ n ∧ n ≤ 95051805 := by
  simp [isDay, firstDay_eq, lastDay_eq]

theorem exists_midnight {day : Int} (h : isDay day = true) : (Moment.midnight day).Exists :=
  ⟨h, show 0 < 86400 by decide, show 0 < 2000000000 by decide⟩

/-! ## Serial numbers -/

theorem natAbs_milliseconds_lt {m : Moment} (h : m.Exists) : m.milliseconds.natAbs < 2 ^ 64 := by
  have hday := (isDay_iff _).mp h.day
  have hsecond := h.second
  have hnanosecond := h.nanosecond
  rw [Moment.milliseconds, Int.natAbs_tdiv]
  change _ / 1000000 < _
  omega

theorem isFinite_serial {m : Moment} (h : m.Exists) : m.serial.isFinite = true := by
  have hunpacked : Number.unpacked 86400000.0 =
      .finite .positive (86400000 * 2 ^ 26) (-26) (by decide) := rfl
  have hserial : Number.IsWithin 39 m.serial :=
    Number.isWithin_div (Number.isWithin_ofInt (natAbs_milliseconds_lt h)) hunpacked (by decide)
      (by decide) (by decide)
  exact hserial.isFinite

/-! ## Dates -/

theorem monthLength_le (year : Int) (month : Nat) : monthLength year month ≤ 31 := by
  unfold monthLength
  split_ifs <;> decide

/-- The calendar has the day, whatever its year. -/
structure Civil.InCalendar (c : Civil) : Prop where
  january : 1 ≤ c.month
  december : c.month ≤ 12
  first : 1 ≤ c.day
  last : c.day ≤ monthLength c.year c.month

theorem Civil.isValid_iff (c : Civil) :
    c.isValid = true ↔ firstYear ≤ c.year ∧ c.year ≤ lastYear ∧ c.InCalendar := by
  simp only [Civil.isValid, Bool.and_eq_true, decide_eq_true_eq]
  constructor
  · rintro ⟨⟨⟨⟨⟨hfirst, hlast⟩, hjanuary⟩, hdecember⟩, hday⟩, hend⟩
    exact ⟨hfirst, hlast, hjanuary, hdecember, hday, hend⟩
  · rintro ⟨hfirst, hlast, hjanuary, hdecember, hday, hend⟩
    exact ⟨⟨⟨⟨⟨hfirst, hlast⟩, hjanuary⟩, hdecember⟩, hday⟩, hend⟩

/-- Days before a year that starts in March, as `Civil.dayNumber` counts them. -/
theorem daysBefore_mono {y z : Int} (h : y ≤ z) :
    365 * y + y / 4 - y / 100 + y / 400 ≤ 365 * z + z / 4 - z / 100 + z / 400 := by
  have hfour : y / 4 ≤ z / 4 := by omega
  have hhundred : z / 100 ≤ y / 100 + (z - y) := by omega
  have hfourHundred : y / 400 ≤ z / 400 := by omega
  omega

theorem isDay_dayNumber {c : Civil} (h : c.isValid = true) : isDay c.dayNumber = true := by
  obtain ⟨hfirst, hlast, hjanuary, hdecember, hday, hend⟩ := (Civil.isValid_iff c).mp h
  change -262143 ≤ c.year at hfirst
  change c.year ≤ 262142 at hlast
  have hlength := monthLength_le c.year c.month
  rw [isDay_iff]
  unfold Civil.dayNumber dayZero
  dsimp only
  -- January and February belong to the year before, which starts in March
  split
  · have hafter := daysBefore_mono (show -262144 ≤ c.year - 1 by omega)
    have hbefore := daysBefore_mono (show c.year - 1 ≤ 262141 by omega)
    omega
  · have hafter := daysBefore_mono (show -262143 ≤ c.year by omega)
    have hbefore := daysBefore_mono (show c.year ≤ 262142 by omega)
    omega

theorem isDay_of_dayNumber? {c : Civil} {n : Int} (h : dayNumber? c = some n) :
    isDay n = true := by
  unfold dayNumber? at h
  split at h
  · next hvalid =>
    cases h
    exact isDay_dayNumber hvalid
  · cases h

/-! ## Reading -/

/-- Each field has a value that it can have. -/
def Fields.Admitted (fields : Fields) : Prop :=
  ∀ f value, (f, value) ∈ fields → f.admits value = true

namespace Fields.Admitted

variable {fields fields' : Fields}

theorem of_lookup (h : fields.Admitted) {f : Field} {value : Int}
    (hf : fields.lookup f = some value) : f.admits value = true := by
  obtain ⟨before, after, rfl, -⟩ := List.lookup_eq_some_iff.mp hf
  exact h f value (List.mem_append_right _ List.mem_cons_self)

theorem put? (h : fields.Admitted) {f : Field} {value : Int}
    (hp : fields.put? f value = some fields') : fields'.Admitted := by
  unfold Fields.put? at hp
  split at hp
  · next hadmits =>
    split at hp
    · cases hp
      intro g w hg
      obtain hg | hg := List.mem_cons.mp hg
      · cases hg
        exact hadmits
      · exact h g w hg
    · split at hp
      · cases hp
        exact h
      · cases hp
  · cases hp

theorem matchItems? (h : fields.Admitted) {items : List PatternItem} {cs : List Char}
    (hm : Calendar.matchItems? items cs fields = some fields') : fields'.Admitted := by
  induction items generalizing cs fields with
  | nil =>
    cases cs with
    | nil =>
      cases hm
      exact h
    | cons c cs => cases hm
  | cons item items ih =>
    cases item with
    | blanks => exact ih h hm
    | literal c =>
      cases cs with
      | nil => cases hm
      | cons d cs =>
        simp only [Calendar.matchItems?] at hm
        split at hm
        · exact ih h hm
        · cases hm
    | field f =>
      simp only [Calendar.matchItems?, Option.bind_eq_bind, Option.bind_eq_some_iff] at hm
      obtain ⟨read, -, put, hput, hrest⟩ := hm
      exact ih (h.put? hput) hrest
    | unknown => cases hm

/-- The time of day ends before the day does. -/
theorem clock? (h : fields.Admitted) {second nanosecond : Nat}
    (hc : fields.clock? = some (second, nanosecond)) :
    second < 86400 ∧ nanosecond < 2000000000 := by
  simp only [Fields.clock?, Option.bind_eq_bind, Option.bind_eq_some_iff] at hc
  obtain ⟨hour, hhour, minute, hminute, last, hsecond, hc⟩ := hc
  have hhours := h.of_lookup hhour
  have hminutes := h.of_lookup hminute
  have hseconds := h.of_lookup hsecond
  simp only [Field.admits, Bool.and_eq_true, decide_eq_true_eq] at hhours hminutes hseconds
  split at hc <;> cases hc <;> omega

end Fields.Admitted

theorem admitted_of_readFields? {pattern text : String} {fields : Fields}
    (h : readFields? pattern text = some fields) : fields.Admitted := by
  have hnone : Fields.Admitted [] := nofun
  exact hnone.matchItems? h

theorem isDay_of_day? {fields : Fields} {day : Int} (h : fields.day? = some day) :
    isDay day = true := by
  simp only [Fields.day?, Option.bind_eq_bind, Option.bind_eq_some_iff] at h
  obtain ⟨year, -, month, -, day, -, hday⟩ := h
  exact isDay_of_dayNumber? hday

theorem exists_of_readMoment? {pattern text : String} {m : Moment}
    (h : readMoment? pattern text = some m) : m.Exists := by
  simp only [readMoment?, Option.bind_eq_bind, Option.bind_eq_some_iff] at h
  obtain ⟨fields, hfields, day, hday, ⟨second, nanosecond⟩, hclock, hm⟩ := h
  cases hm
  obtain ⟨hsecond, hnanosecond⟩ := (admitted_of_readFields? hfields).clock? hclock
  exact ⟨isDay_of_day? hday, hsecond, hnanosecond⟩

theorem isDay_of_readDay? {pattern text : String} {day : Int}
    (h : readDay? pattern text = some day) : isDay day = true := by
  obtain ⟨fields, -, hday⟩ := Option.bind_eq_some_iff.mp h
  exact isDay_of_day? hday

/-- A date that is read exists, whatever the patterns. -/
theorem exists_of_read? {patterns : List String} {text : String} {m : Moment}
    (h : read? patterns text = some m) : m.Exists := by
  obtain h | ⟨-, h⟩ := Option.or_eq_some_iff.mp h
  · obtain ⟨pattern, -, hread⟩ := List.exists_of_findSome?_eq_some h
    exact exists_of_readMoment? hread
  · obtain ⟨day, hday, rfl⟩ := Option.map_eq_some_iff.mp h
    obtain ⟨pattern, -, hread⟩ := List.exists_of_findSome?_eq_some hday
    exact exists_midnight (isDay_of_readDay? hread)

end Spreadsheet.Calendar
