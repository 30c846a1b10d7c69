import Spreadsheet.Proofs.Calendar.Existing

/-! Dates print as they are read. A day is found again from its number, and its text, read by the
pattern that has its parts in the same order, names that day; a text with a time of day is found
under the patterns for moments, whatever the settings are. -/

namespace Spreadsheet.Calendar

/-! ## Days and their numbers -/

/-- The year of a day within 400 years, of which each century, each group of four years in it and
each year of the group but the last is one day short. -/
theorem yearInEra_eq {century cycle year day : Nat} (hcentury : century < 4) (hcycle : cycle < 25)
    (hyear : year < 4) (hday : day < 365 ∨ day = 365 ∧ year = 3 ∧ (cycle < 24 ∨ century = 3))
    {n : Nat} (hn : n = 36524 * century + 1461 * cycle + 365 * year + day) :
    (n - n / 1460 + n / 36524 - n / 146096) / 365 = 100 * century + 4 * cycle + year := by
  have hcenturies : n / 36524 = century + n / 146096 := by
    by_cases hlast : n = 146096
    · omega
    · have : n / 146096 = 0 := by omega
      omega
  by_cases hcarry : 24 * century + cycle + 365 * year + day < 1460
  · have hcycles : n / 1460 = 25 * century + cycle := by omega
    omega
  · have hcycles : n / 1460 = 25 * century + cycle + 1 := by omega
    omega

/-- The date on day `day`, counted from zero, of a year that starts in March. -/
theorem ofDayNumber_eq {year : Int} {day : Nat}
    (hday : day < 365 ∨ day = 365 ∧ isLeapYear (year + 1) = true) :
    Civil.ofDayNumber (365 * year + year / 4 - year / 100 + year / 400 + day - dayZero) =
      let month := (5 * day + 2) / 153
      ⟨if month < 10 then year else year + 1, if month < 10 then month + 3 else month - 9,
        day - (153 * month + 2) / 5 + 1⟩ := by
  obtain ⟨era, y, hy, rfl⟩ : ∃ (era : Int) (y : Nat), y < 400 ∧ year = 400 * era + y :=
    ⟨year / 400, (year % 400).toNat, by omega, by omega⟩
  have hleap : day < 365 ∨ day = 365 ∧ y % 4 = 3 ∧ (y % 100 / 4 < 24 ∨ y / 100 = 3) := by
    simp only [isLeapYear, Bool.and_eq_true, Bool.or_eq_true, beq_iff_eq, bne_iff_ne] at hday
    omega
  obtain ⟨n, hn⟩ : ∃ n, n = 365 * y + y / 4 - y / 100 + day := ⟨_, rfl⟩
  have hdays : 365 * (400 * era + y) + (400 * era + y) / 4 - (400 * era + y) / 100 +
      (400 * era + y) / 400 + day - dayZero + dayZero = 146097 * era + n := by omega
  have hera : (146097 * era + (n : Int)) / 146097 = era := by omega
  have hinEra : ((146097 * era + (n : Int)) % 146097).toNat = n := by omega
  have hyear : (n - n / 1460 + n / 36524 - n / 146096) / 365 = y := by
    have hparts : n = 36524 * (y / 100) + 1461 * (y % 100 / 4) + 365 * (y % 4) + day := by omega
    rw [yearInEra_eq (by omega) (by omega) (by omega) hleap hparts]
    omega
  have hinYear : n - (365 * y + y / 4 - y / 100) = day := by omega
  unfold Civil.ofDayNumber
  simp only [hdays, hera, hinEra, hyear, hinYear]
  split_ifs <;> simp <;> omega

/-- Where a date lies in a year that starts in March. -/
theorem dayInYear_eq {year : Int} {month day n : Nat} (hjanuary : 1 ≤ month)
    (hdecember : month ≤ 12) (hfirst : 1 ≤ day) (hlast : day ≤ monthLength year month)
    (hn : n = (153 * ((month + 9) % 12) + 2) / 5 + day - 1) :
    (n < 365 ∨ n = 365 ∧ month = 2 ∧ isLeapYear year = true) ∧
      (5 * n + 2) / 153 = (month + 9) % 12 := by
  have hleap : month = 2 → day = 29 → isLeapYear year = true := by
    rintro rfl rfl
    by_contra h
    simp [monthLength, h] at hlast
  have hfebruary : month = 2 → day ≤ 29 := by
    rintro rfl
    change day ≤ if isLeapYear year then 29 else 28 at hlast
    split_ifs at hlast <;> omega
  have hshort : month = 4 ∨ month = 6 ∨ month = 9 ∨ month = 11 → day ≤ 30 := by
    rintro (rfl | rfl | rfl | rfl) <;> exact hlast
  have hlong := hlast.trans (monthLength_le year month)
  have hday : n < 365 ∨ n = 365 ∧ month = 2 ∧ day = 29 := by
    clear hleap hlast
    interval_cases month <;> omega
  refine ⟨hday.imp_right fun ⟨hn, hm, hd⟩ => ⟨hn, hm, hleap hm hd⟩, ?_⟩
  clear hleap hlast hday
  interval_cases month <;> omega

theorem Civil.InCalendar.ofDayNumber_dayNumber {c : Civil} (h : c.InCalendar) :
    Civil.ofDayNumber c.dayNumber = c := by
  obtain ⟨year, month, day⟩ := c
  obtain ⟨hjanuary, hdecember, hfirst, hlast⟩ := h
  dsimp only at hjanuary hdecember hfirst hlast
  obtain ⟨n, hn⟩ : ∃ n, n = (153 * ((month + 9) % 12) + 2) / 5 + day - 1 := ⟨_, rfl⟩
  obtain ⟨hday, hmonth⟩ := dayInYear_eq hjanuary hdecember hfirst hlast hn
  have hnumber : Civil.dayNumber ⟨year, month, day⟩ =
      let march := if month ≤ 2 then year - 1 else year
      365 * march + march / 4 - march / 100 + march / 400 + n - dayZero := by
    unfold Civil.dayNumber
    dsimp only
    omega
  rw [hnumber, ofDayNumber_eq]
  · have hmarch : (month + 9) % 12 = if month ≤ 2 then month + 9 else month - 3 := by
      split_ifs <;> omega
    simp only [hmonth, Civil.mk.injEq]
    split_ifs at hmarch ⊢ <;> omega
  · rcases hday with hday | ⟨hday, rfl, hleap⟩
    · exact .inl hday
    · exact .inr ⟨hday, by simpa using hleap⟩

theorem ofDayNumber_dayNumber {c : Civil} (h : c.isValid = true) :
    Civil.ofDayNumber c.dayNumber = c :=
  ((Civil.isValid_iff c).mp h).2.2.ofDayNumber_dayNumber

/-! ## Padded numbers -/

section Padded

variable {width n : Nat}

theorem isDigit_of_mem_padded {c : Char} (h : c ∈ padded width n) : c.isDigit = true := by
  obtain h | h := List.mem_append.mp h
  · obtain rfl := List.eq_of_mem_replicate h
    decide
  · exact Nat.isDigit_of_mem_toDigits (by decide) (by decide) h

theorem padded_ne_nil : padded width n ≠ [] :=
  List.append_ne_nil_of_right_ne_nil _ Nat.toDigits_ne_nil

theorem exists_cons_padded (width n : Nat) :
    ∃ c ds, padded width n = c :: ds ∧ c.isDigit = true := by
  have hne : padded width n ≠ [] := padded_ne_nil
  obtain ⟨c, ds, hc⟩ := List.exists_cons_of_ne_nil hne
  exact ⟨c, ds, hc, isDigit_of_mem_padded (hc ▸ List.mem_cons_self)⟩

theorem length_padded_le (hwidth : 0 < width) (h : n < 10 ^ width) :
    (padded width n).length ≤ width := by
  have hdigits := (Nat.length_toDigits_le_iff (by decide) hwidth).mpr h
  simp only [padded, List.length_append, List.length_replicate]
  omega

theorem digitsValue_padded : Number.digitsValue (padded width n) = n := by
  have hvalue : Number.digitsValue (Nat.toDigits 10 n) = n :=
    Nat.ofDigitChars_toDigits (by decide) (by decide)
  have hzeros (k : Nat) (cs : List Char) :
      Number.digitsValue (List.replicate k '0' ++ cs) = Number.digitsValue cs := by
    induction k with
    | zero => rfl
    | succ k ih => exact ih
  exact (hzeros _ _).trans hvalue

end Padded

/-! ## Reading what is printed -/

/-- No digit comes next. -/
def Ends (cs : List Char) : Prop := ∀ c ∈ cs.head?, c.isDigit = false

theorem ends_nil : Ends [] := nofun

theorem ends_cons {c : Char} (h : c.isDigit = false) (cs : List Char) : Ends (c :: cs) := by
  rintro d hd
  cases hd
  exact h

theorem readDigits?_append {width : Option Nat} {ds rest : List Char} (hne : ds ≠ [])
    (hds : ∀ c ∈ ds, c.isDigit = true) (hrest : Ends rest) (hwidth : ∀ w ∈ width, ds.length ≤ w) :
    readDigits? width (ds ++ rest) = some ((Number.digitsValue ds : Int), rest) := by
  have hrun : (ds ++ rest).takeWhile Char.isDigit = ds := by
    rw [List.takeWhile_append_of_pos hds]
    cases rest with
    | nil => simp
    | cons c rest => simp [hrest c rfl]
  have hdigits : (width.map fun w => ds.take w).getD ds = ds := by
    cases width with
    | none => rfl
    | some w => exact List.take_of_length_le (hwidth w rfl)
  have hvalue (ds : List Char) (n : Nat) :
      ds.foldl (fun (n : Int) c => 10 * n + (c.toNat - 48 : Nat)) n =
        (ds.foldl (fun n c => 10 * n + (c.toNat - 48)) n : Nat) := by
    induction ds generalizing n with
    | nil => rfl
    | cons c ds ih =>
      rw [List.foldl_cons, List.foldl_cons, ← ih]
      push_cast
      rfl
  have hempty : ds.isEmpty = false := List.isEmpty_eq_false_iff.mpr hne
  unfold readDigits?
  simp only [hrun, hdigits, hempty, Bool.false_eq_true, if_false, List.drop_left]
  exact congrArg (fun n => some (n, rest)) (hvalue ds 0)

theorem readDigits?_padded {width : Option Nat} {k n : Nat} {rest : List Char} (hrest : Ends rest)
    (hwidth : ∀ w ∈ width, (padded k n).length ≤ w) :
    readDigits? width (padded k n ++ rest) = some ((n : Int), rest) := by
  have hread := readDigits?_append padded_ne_nil (fun c hc => isDigit_of_mem_padded hc) hrest hwidth
  rwa [digitsValue_padded] at hread

theorem dropBlanks_padded (width n : Nat) (rest : List Char) :
    Text.dropBlanks (padded width n ++ rest) = padded width n ++ rest := by
  obtain ⟨c, ds, hc, hdigit⟩ := exists_cons_padded width n
  refine Text.dropBlanks_eq_self fun d hd => ?_
  rw [hc] at hd
  cases hd
  exact Text.isBlank_of_isDigit hdigit

theorem readField?_padded {f : Field} (hf : f ≠ .year) {n : Nat} (hn : n < 100) {rest : List Char}
    (hrest : Ends rest) : readField? f (padded 2 n ++ rest) = some ((n : Int), rest) := by
  have hread : readDigits? (some 2) (padded 2 n ++ rest) = some ((n : Int), rest) :=
    readDigits?_padded hrest fun w hw => by
      cases hw
      exact length_padded_le (by decide) hn
  unfold readField?
  dsimp only
  rw [dropBlanks_padded, if_neg hf, hread]

theorem readField?_yearText (year : Int) {rest : List Char} (hrest : Ends rest) :
    readField? .year (yearText year ++ rest) = some (year, rest) := by
  have hsigned (n : Nat) : readDigits? none (padded 4 n ++ rest) = some ((n : Int), rest) :=
    readDigits?_padded hrest nofun
  unfold readField? yearText
  dsimp only
  rw [if_pos rfl]
  split_ifs with hplain hnegative
  · have hread : readDigits? (some 4) (padded 4 year.toNat ++ rest) =
        some ((year.toNat : Int), rest) :=
      readDigits?_padded hrest fun w hw => by
        cases hw
        exact length_padded_le (by decide) (by omega)
    rw [Int.toNat_of_nonneg hplain.1] at hread
    rw [dropBlanks_padded]
    obtain ⟨c, ds, hc, hdigit⟩ := exists_cons_padded 4 year.toNat
    split
    · next heq =>
      rw [hc] at heq
      cases heq
      cases hdigit
    · next heq =>
      rw [hc] at heq
      cases heq
      cases hdigit
    · exact hread
  · have hblank : Text.dropBlanks ('-' :: padded 4 year.natAbs ++ rest) =
        '-' :: (padded 4 year.natAbs ++ rest) :=
      Text.dropBlanks_eq_self fun c hc => by cases hc; decide
    rw [hblank]
    simp only [hsigned, Option.map_some, Option.some.injEq, Prod.mk.injEq, and_true]
    omega
  · have hblank : Text.dropBlanks ('+' :: padded 4 year.natAbs ++ rest) =
        '+' :: (padded 4 year.natAbs ++ rest) :=
      Text.dropBlanks_eq_self fun c hc => by cases hc; decide
    rw [hblank]
    simp only [hsigned, Option.some.injEq, Prod.mk.injEq, and_true]
    omega

theorem put?_new {fields : Fields} {f : Field} {value : Int} (hadmits : f.admits value = true)
    (hnew : fields.lookup f = none) : fields.put? f value = some ((f, value) :: fields) := by
  rw [Fields.put?, if_pos hadmits, hnew]

/-- The fields of a date. -/
def Civil.fields (c : Civil) : Fields := [(.day, c.day), (.month, c.month), (.year, c.year)]

/-- The fields of a date with a time of day. -/
def Moment.fields (m : Moment) (c : Civil) : Fields :=
  (.second, (m.second % 60 + m.nanosecond / 1000000000 : Nat)) ::
    (.minute, (m.second / 60 % 60 : Nat)) :: (.hour, (m.second / 3600 : Nat)) :: c.fields

theorem matchItems?_literal (c : Char) (items : List PatternItem) (rest : List Char)
    (fields : Fields) :
    matchItems? (.literal c :: items) (c :: rest) fields = matchItems? items rest fields :=
  if_pos rfl

theorem matchItems?_yearText (year : Int) (items : List PatternItem) {rest : List Char}
    (hrest : Ends rest) :
    matchItems? (.field .year :: items) (yearText year ++ rest) [] =
      matchItems? items rest [(.year, year)] := by
  rw [matchItems?, readField?_yearText year hrest]
  rfl

/-- A field in two digits is matched, where the field has that value and none before. -/
theorem matchItems?_padded {f : Field} (hf : f ≠ .year) {n : Nat} (hn : n < 100)
    (hadmits : f.admits n = true) (items : List PatternItem) {rest : List Char} (hrest : Ends rest)
    {fields : Fields} (hnew : fields.lookup f = none) :
    matchItems? (.field f :: items) (padded 2 n ++ rest) fields =
      matchItems? items rest ((f, (n : Int)) :: fields) := by
  simp only [matchItems?, readField?_padded hf hn hrest, Option.bind_eq_bind, Option.bind_some,
    put?_new hadmits hnew]

theorem matchItems?_dayText {c : Civil} (h : c.isValid = true) (items : List PatternItem)
    {rest : List Char} (hrest : Ends rest) :
    matchItems? (.field .year :: .literal '-' :: .field .month :: .literal '-' :: .field .day ::
        items) (dayText c.dayNumber ++ rest) [] =
      matchItems? items rest c.fields := by
  have hvalid := h
  simp only [Civil.isValid, Bool.and_eq_true, decide_eq_true_eq] at hvalid
  obtain ⟨⟨⟨⟨-, hjanuary⟩, hdecember⟩, hfirst⟩, hlast⟩ := hvalid
  have hlength := hlast.trans (monthLength_le c.year c.month)
  have hdash (cs : List Char) : Ends ('-' :: cs) := ends_cons (by decide) cs
  have hmonth : Field.month.admits c.month = true := by simp [Field.admits]; omega
  have hday : Field.day.admits c.day = true := by simp [Field.admits]; omega
  unfold dayText
  simp only [ofDayNumber_dayNumber h, List.append_assoc, List.cons_append]
  rw [matchItems?_yearText _ _ (hdash _), matchItems?_literal,
    matchItems?_padded (by decide) (by omega) hmonth _ (hdash _) rfl, matchItems?_literal,
    matchItems?_padded (by decide) (by omega) hday _ hrest rfl]
  rfl

theorem matchItems?_clockText {m : Moment} (hsecond : m.second < 86400)
    (hnanosecond : m.nanosecond < 2000000000) (c : Civil) :
    matchItems? [.blanks, .field .hour, .literal ':', .field .minute, .literal ':', .field .second]
      (' ' :: m.clockText) c.fields = some (m.fields c) := by
  have hcolon (cs : List Char) : Ends (':' :: cs) := ends_cons (by decide) cs
  have hblanks (items : List PatternItem) (cs : List Char) (fields : Fields) :
      matchItems? (.blanks :: items) (' ' :: cs) fields =
        matchItems? items (Text.dropBlanks cs) fields := rfl
  have hhour : Field.hour.admits (m.second / 3600 : Nat) = true := by simp [Field.admits]; omega
  have hminute : Field.minute.admits (m.second / 60 % 60 : Nat) = true := by
    simp [Field.admits]; omega
  have hlast : Field.second.admits (m.second % 60 + m.nanosecond / 1000000000 : Nat) = true := by
    simp [Field.admits]; omega
  unfold Moment.clockText
  simp only [List.append_assoc, List.cons_append]
  rw [← List.append_nil (padded 2 (m.second % 60 + m.nanosecond / 1000000000)), hblanks,
    dropBlanks_padded,
    matchItems?_padded (by decide) (by omega) hhour _ (hcolon _) rfl, matchItems?_literal,
    matchItems?_padded (by decide) (by omega) hminute _ (hcolon _) rfl, matchItems?_literal,
    matchItems?_padded (by decide) (by omega) hlast _ ends_nil rfl]
  rfl

theorem day?_fields {c : Civil} (h : c.isValid = true) : c.fields.day? = some c.dayNumber :=
  if_pos h

/-! ## Moments that are read -/

/-- A text can write the moment: its day has a date, and its time is in whole seconds, the last of
which may be a leap second. -/
structure Moment.Written (m : Moment) : Prop where
  date : ∃ c : Civil, c.isValid = true ∧ c.dayNumber = m.day
  second : m.second < 86400
  whole : m.nanosecond = 0 ∨ m.nanosecond = 1000000000 ∧ m.second % 60 = 59

/-- The moment is the start of its day. -/
def Moment.IsMidnight (m : Moment) : Prop := m.second = 0 ∧ m.nanosecond = 0

instance (m : Moment) : Decidable m.IsMidnight := inferInstanceAs (Decidable (_ ∧ _))

theorem exists_of_day? {fields : Fields} {day : Int} (h : fields.day? = some day) :
    ∃ c : Civil, c.isValid = true ∧ c.dayNumber = day := by
  simp only [Fields.day?, Option.bind_eq_bind, Option.bind_eq_some_iff, dayNumber?] at h
  obtain ⟨year, -, month, -, day, -, h⟩ := h
  split at h
  · next hvalid =>
    cases h
    exact ⟨_, hvalid, rfl⟩
  · cases h

theorem clock?_whole {fields : Fields} (h : fields.Admitted) {second nanosecond : Nat}
    (hc : fields.clock? = some (second, nanosecond)) :
    nanosecond = 0 ∨ nanosecond = 1000000000 ∧ second % 60 = 59 := by
  simp only [Fields.clock?, Option.bind_eq_bind, Option.bind_eq_some_iff] at hc
  obtain ⟨hour, hhour, minute, hminute, last, -, hc⟩ := hc
  have hhours := h.of_lookup hhour
  have hminutes := h.of_lookup hminute
  simp only [Field.admits, Bool.and_eq_true, decide_eq_true_eq] at hhours hminutes
  split at hc <;> cases hc <;> omega

theorem written_of_readMoment? {pattern text : String} {m : Moment}
    (h : readMoment? pattern text = some m) : m.Written := by
  simp only [readMoment?, Option.bind_eq_bind, Option.bind_eq_some_iff] at h
  obtain ⟨fields, hfields, day, hday, ⟨second, nanosecond⟩, hclock, hm⟩ := h
  cases hm
  have hadmitted := admitted_of_readFields? hfields
  exact ⟨exists_of_day? hday, (hadmitted.clock? hclock).1, clock?_whole hadmitted hclock⟩

theorem exists_of_readDay? {pattern text : String} {day : Int}
    (h : readDay? pattern text = some day) : ∃ c : Civil, c.isValid = true ∧ c.dayNumber = day := by
  obtain ⟨fields, -, hday⟩ := Option.bind_eq_some_iff.mp h
  exact exists_of_day? hday

theorem Moment.text_of_isMidnight {m : Moment} (hmidnight : m.IsMidnight) :
    m.text.toList = dayText m.day ++ [] := by
  rw [text, String.toList_ofList, List.append_nil]
  exact if_pos hmidnight

theorem Moment.text_of_not_isMidnight {m : Moment} (hclock : ¬ m.IsMidnight) :
    m.text.toList = dayText m.day ++ ' ' :: m.clockText := by
  rw [text, String.toList_ofList]
  exact if_neg hclock

/-! ## No other kind of text -/

/-- A sign, or none. -/
def IsSign (cs : List Char) : Prop := cs = [] ∨ cs = ['-'] ∨ cs = ['+']

theorem yearText_eq (year : Int) : ∃ sign n, IsSign sign ∧ yearText year = sign ++ padded 4 n := by
  unfold yearText
  split_ifs
  · exact ⟨[], _, .inl rfl, rfl⟩
  · exact ⟨['-'], _, .inr (.inl rfl), rfl⟩
  · exact ⟨['+'], _, .inr (.inr rfl), rfl⟩

theorem readSign_append {sign ds : List Char} (h : IsSign sign) {c : Char}
    (hc : c.isDigit = true) : (Number.readSign (sign ++ c :: ds)).2 = c :: ds := by
  obtain rfl | rfl | rfl := h
  · rw [List.nil_append, Number.readSign.eq_def]
    split
    · next heq =>
      cases heq
      cases hc
    · next heq =>
      cases heq
      cases hc
    · rfl
  · rfl
  · rfl

/-- Digits that a dash follows are no number. -/
theorem Numeral.read?_eq_none {sign : List Char} (h : IsSign sign) (n : Nat) (cs : List Char) :
    Number.Numeral.read? (sign ++ (padded 4 n ++ '-' :: cs)) = none := by
  have hsign : (Number.readSign (sign ++ (padded 4 n ++ '-' :: cs))).2 =
      padded 4 n ++ '-' :: cs := by
    obtain ⟨c, ds, hc, hdigit⟩ := exists_cons_padded 4 n
    rw [hc]
    exact readSign_append h hdigit
  have hwhole : (padded 4 n ++ '-' :: cs).takeWhile Char.isDigit = padded 4 n := by
    rw [List.takeWhile_append_of_pos fun c hc => isDigit_of_mem_padded hc]
    simp
  have hrest : (padded 4 n ++ '-' :: cs).dropWhile Char.isDigit = '-' :: cs := by
    rw [List.dropWhile_append_of_pos fun c hc => isDigit_of_mem_padded hc]
    simp
  simp only [Number.Numeral.read?, hsign, hwhole, hrest]
  simp [padded_ne_nil, Number.readPower?]

theorem dayText_eq (day : Int) : ∃ sign n cs, IsSign sign ∧
    dayText day = sign ++ (padded 4 n ++ '-' :: cs) := by
  let c := Civil.ofDayNumber day
  obtain ⟨sign, n, hsign, hyear⟩ := yearText_eq c.year
  refine ⟨sign, n, padded 2 c.month ++ '-' :: padded 2 c.day, hsign, ?_⟩
  rw [dayText, hyear]
  simp [c]

namespace Moment

/-- A year comes first, behind a sign or none. -/
theorem text_eq_year_append (m : Moment) : ∃ sign n cs, IsSign sign ∧
    m.text.toList = sign ++ (padded 4 n ++ '-' :: cs) := by
  obtain ⟨sign, n, cs, hsign, hday⟩ := dayText_eq m.day
  by_cases hmidnight : m.IsMidnight
  · refine ⟨sign, n, cs, hsign, ?_⟩
    rw [text_of_isMidnight hmidnight, hday, List.append_nil]
  · refine ⟨sign, n, cs ++ ' ' :: m.clockText, hsign, ?_⟩
    rw [text_of_not_isMidnight hmidnight, hday]
    simp only [List.append_assoc, List.cons_append]

/-- A day or a second comes last. -/
theorem text_eq_append_padded (m : Moment) : ∃ cs n, m.text.toList = cs ++ padded 2 n := by
  by_cases hmidnight : m.IsMidnight
  · let c := Civil.ofDayNumber m.day
    refine ⟨yearText c.year ++ '-' :: padded 2 c.month ++ ['-'], c.day, ?_⟩
    rw [text_of_isMidnight hmidnight, dayText]
    simp [c]
  · refine ⟨dayText m.day ++ ' ' :: (padded 2 (m.second / 3600) ++ ':' ::
      padded 2 (m.second / 60 % 60) ++ [':']), m.second % 60 + m.nanosecond / 1000000000, ?_⟩
    rw [text_of_not_isMidnight hmidnight, clockText]
    simp

theorem readFinite?_text (m : Moment) : Number.readFinite? m.text = none := by
  obtain ⟨sign, n, cs, hsign, htext⟩ := m.text_eq_year_append
  rw [Number.readFinite?, Number.read?, htext, Numeral.read?_eq_none hsign]
  rfl

theorem head?_text {m : Moment} {c : Char} (h : c ∈ m.text.toList.head?) :
    c.isDigit = true ∨ c = '-' ∨ c = '+' := by
  obtain ⟨sign, n, cs, hsign, htext⟩ := m.text_eq_year_append
  rw [htext] at h
  obtain rfl | rfl | rfl := hsign
  · obtain ⟨d, ds, hd, hdigit⟩ := exists_cons_padded 4 n
    rw [List.nil_append, hd] at h
    cases h
    exact .inl hdigit
  · cases h
    exact .inr (.inl rfl)
  · cases h
    exact .inr (.inr rfl)

theorem getLast?_text {m : Moment} {c : Char} (h : c ∈ m.text.toList.getLast?) :
    c.isDigit = true := by
  obtain ⟨cs, n, htext⟩ := m.text_eq_append_padded
  rw [htext, List.getLast?_append_of_ne_nil _ padded_ne_nil] at h
  exact isDigit_of_mem_padded (List.mem_of_getLast? h)

end Moment

/-! ## Texts without digits -/

/-- None of the characters is a digit. -/
def Digitless (cs : List Char) : Prop := ∀ c ∈ cs, c.isDigit = false

theorem Digitless.sublist {cs ds : List Char} (h : Digitless cs) (hds : ds.Sublist cs) :
    Digitless ds := fun c hc => h c (hds.subset hc)

theorem readDigits?_eq_none {cs : List Char} (h : Digitless cs) (width : Option Nat) :
    readDigits? width cs = none := by
  have hrun : cs.takeWhile Char.isDigit = [] := by
    cases cs with
    | nil => rfl
    | cons c cs => simp [h c List.mem_cons_self]
  unfold readDigits?
  simp only [hrun]
  cases width <;> simp

theorem readField?_eq_none {cs : List Char} (h : Digitless cs) (f : Field) :
    readField? f cs = none := by
  have hcs : Digitless (Text.dropBlanks cs) := h.sublist (List.dropWhile_sublist _)
  unfold readField?
  generalize Text.dropBlanks cs = ds at hcs
  dsimp only
  split_ifs
  · split
    · rw [readDigits?_eq_none (hcs.sublist (List.sublist_cons_self _ _))]
      rfl
    · exact readDigits?_eq_none (hcs.sublist (List.sublist_cons_self _ _)) _
    · exact readDigits?_eq_none hcs _
  · exact readDigits?_eq_none hcs _

theorem eq_of_matchItems? {items : List PatternItem} {cs : List Char} {fields fields' : Fields}
    (h : Digitless cs) (hm : matchItems? items cs fields = some fields') : fields' = fields := by
  induction items generalizing cs with
  | nil =>
    cases cs with
    | nil =>
      cases hm
      rfl
    | cons c cs => cases hm
  | cons item items ih =>
    cases item with
    | blanks => exact ih (h.sublist (List.dropWhile_sublist _)) hm
    | literal c =>
      cases cs with
      | nil => cases hm
      | cons d cs =>
        simp only [matchItems?] at hm
        split at hm
        · exact ih (h.sublist (List.sublist_cons_self _ _)) hm
        · cases hm
    | field f =>
      simp only [matchItems?, readField?_eq_none h] at hm
      cases hm
    | unknown => cases hm

theorem readDay?_eq_none_of_digitless {text : String} (h : Digitless text.toList)
    (pattern : String) : readDay? pattern text = none := by
  unfold readDay?
  cases hf : readFields? pattern text with
  | none => rfl
  | some fields =>
    rw [eq_of_matchItems? h hf]
    rfl

theorem readMoment?_eq_none_of_digitless {text : String} (h : Digitless text.toList)
    (pattern : String) : readMoment? pattern text = none := by
  unfold readMoment?
  cases hf : readFields? pattern text with
  | none => rfl
  | some fields =>
    rw [eq_of_matchItems? h hf]
    rfl

/-! ## Readers -/

/-- What is relied on when dates are read. The forms that dates are printed in are read by their
fields; what other patterns are read as is left open, but it is a day of the calendar, and a text
without digits names none. -/
structure Reader.Faithful (dates : Reader) : Prop where
  moment : ∀ p ∈ momentPatterns, ∀ text, dates.moment? p text = readMoment? p text
  day : ∀ text, dates.day? "%Y-%m-%d" text = readDay? "%Y-%m-%d" text
  inCalendar : ∀ p text n, dates.day? p text = some n →
    ∃ c : Civil, c.isValid = true ∧ c.dayNumber = n
  digits : ∀ p text, Digitless text.toList → dates.day? p text = none

theorem Reader.faithful_byFields : Reader.byFields.Faithful where
  moment _ _ _ := rfl
  day _ := rfl
  inCalendar _ _ _ h := exists_of_readDay? h
  digits p _ h := readDay?_eq_none_of_digitless h p

namespace Reader.Faithful

variable {dates : Reader} (hdates : dates.Faithful)
include hdates

/-- What is read can be written, whatever the patterns. -/
theorem written_of_read? {patterns : List String} {text : String} {m : Moment}
    (h : read? patterns text dates = some m) : m.Written := by
  obtain h | ⟨-, h⟩ := Option.or_eq_some_iff.mp h
  · obtain ⟨p, hp, hread⟩ := List.exists_of_findSome?_eq_some h
    exact written_of_readMoment? ((hdates.moment p hp text).symm.trans hread)
  · obtain ⟨n, hn, rfl⟩ := Option.map_eq_some_iff.mp h
    obtain ⟨p, -, hread⟩ := List.exists_of_findSome?_eq_some hn
    exact ⟨hdates.inCalendar p text n hread, show 0 < 86400 by decide, .inl rfl⟩

/-- A text without digits is no date, whatever the patterns. -/
theorem read?_eq_none_of_digitless {text : String} (h : Digitless text.toList)
    (patterns : List String) : read? patterns text dates = none := by
  have hmoments : (momentPatterns.findSome? fun p => dates.moment? p text) = none :=
    List.findSome?_eq_none_iff.mpr fun p hp =>
      (hdates.moment p hp text).trans (readMoment?_eq_none_of_digitless h p)
  have hdays : (patterns.findSome? fun p => dates.day? p text) = none :=
    List.findSome?_eq_none_iff.mpr fun p _ => hdates.digits p text h
  rw [read?, hmoments, hdays]
  rfl

end Reader.Faithful

namespace Moment.Written

variable {m : Moment} (h : m.Written)
include h

theorem clock?_fields (c : Civil) : (m.fields c).clock? = some (m.second, m.nanosecond) := by
  have hsecond := h.second
  have hwhole := h.whole
  have hclock : (m.fields c).clock? =
      let start := (((m.second / 3600 : Nat) : Int) * 3600 + ((m.second / 60 % 60 : Nat) : Int) *
        60).toNat
      let last := ((m.second % 60 + m.nanosecond / 1000000000 : Nat) : Int)
      some (if last = 60 then (start + 59, 1000000000) else (start + last.toNat, 0)) := rfl
  rw [hclock]
  dsimp only
  split_ifs <;> simp only [Option.some.injEq, Prod.mk.injEq] <;> omega

/-- A moment with a time of day is read by the first of the patterns for moments. -/
theorem readMoment?_text (hclock : ¬ m.IsMidnight) :
    readMoment? "%Y-%m-%d %H:%M:%S" m.text = some m := by
  obtain ⟨c, hc, hday⟩ := h.date
  have hnanosecond : m.nanosecond < 2000000000 := by have := h.whole; omega
  have hitems : patternItems "%Y-%m-%d %H:%M:%S".toList =
      .field .year :: .literal '-' :: .field .month :: .literal '-' :: .field .day ::
        [.blanks, .field .hour, .literal ':', .field .minute, .literal ':', .field .second] := by
    decide
  have hfields : readFields? "%Y-%m-%d %H:%M:%S" m.text = some (m.fields c) := by
    rw [readFields?, hitems, text_of_not_isMidnight hclock, ← hday,
      matchItems?_dayText hc _ (ends_cons (by decide) _)]
    exact matchItems?_clockText h.second hnanosecond c
  have hdate : (m.fields c).day? = some m.day := hday ▸ day?_fields hc
  simp only [readMoment?, hfields, hdate, h.clock?_fields c, Option.bind_eq_bind, Option.bind_some]
  rfl

/-- A moment without a time of day is read by the pattern with its parts in order. -/
theorem readDay?_text (hmidnight : m.IsMidnight) : readDay? "%Y-%m-%d" m.text = some m.day := by
  obtain ⟨c, hc, hday⟩ := h.date
  have hitems : patternItems "%Y-%m-%d".toList =
      .field .year :: .literal '-' :: .field .month :: .literal '-' :: .field .day :: [] := by
    decide
  have hfields : readFields? "%Y-%m-%d" m.text = some c.fields := by
    rw [readFields?, hitems, text_of_isMidnight hmidnight, ← hday,
      matchItems?_dayText hc _ ends_nil]
    rfl
  rw [readDay?, hfields, ← hday]
  exact day?_fields hc

/-- It is no moment with a time of day. -/
theorem readMoment?_text_eq_none (hmidnight : m.IsMidnight) {pattern : String}
    (hpattern : pattern ∈ momentPatterns) : readMoment? pattern m.text = none := by
  obtain ⟨c, hc, hday⟩ := h.date
  have hfields : readFields? pattern m.text = none := by
    obtain rfl | rfl : pattern = "%Y-%m-%d %H:%M:%S" ∨ pattern = "%Y-%m-%dT%H:%M:%S" := by
      simpa [momentPatterns] using hpattern
    all_goals
      rw [readFields?, text_of_isMidnight hmidnight, ← hday]
      refine (matchItems?_dayText hc _ ends_nil).trans ?_
      rfl
  rw [readMoment?, hfields]
  rfl

/-- What is read back from the text of a moment: itself, but for one without a time of day what
the patterns for days say. -/
theorem read?_text {dates : Reader} (hdates : dates.Faithful) (patterns : List String) :
    read? patterns m.text dates =
      if m.IsMidnight then (patterns.findSome? fun p => dates.day? p m.text).map Moment.midnight
      else some m := by
  unfold read?
  split_ifs with hmidnight
  · have hnone : (momentPatterns.findSome? fun p => dates.moment? p m.text) = none :=
      List.findSome?_eq_none_iff.mpr fun p hp =>
        (hdates.moment p hp _).trans (h.readMoment?_text_eq_none hmidnight hp)
    rw [hnone, Option.none_or]
  · have hsome : (momentPatterns.findSome? fun p => dates.moment? p m.text) = some m := by
      rw [momentPatterns, List.findSome?_cons, hdates.moment _ List.mem_cons_self,
        h.readMoment?_text hmidnight]
    rw [hsome, Option.some_or]

end Moment.Written

end Spreadsheet.Calendar
