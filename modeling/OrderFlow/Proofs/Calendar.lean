import OrderFlow.Time.Calendar

/-! # Days and their numbers

    A day number is taken apart into a cycle, a century, a group of four years,
    a year and a day of that year.  Such a place in the calendar is a valid date,
    and the number of that date is the number that was taken apart. -/

namespace OrderFlow.Date

/-! ## Places in the calendar -/

/-- A place in the calendar: a mixed-radix number, where the last day of a year
    is there in some years only. -/
structure Place where
  /-- Cycles of 400 years. -/
  cycle : Int
  /-- Centuries of the cycle. -/
  century : Nat
  /-- Groups of four years in the century. -/
  group : Nat
  /-- Years of the group, from March on. -/
  yearOfGroup : Nat
  /-- Days of the year, from March on. -/
  dayOfYear : Nat
  century_le : century ≤ 3
  group_le : group ≤ 24
  yearOfGroup_le : yearOfGroup ≤ 3
  dayOfYear_le : dayOfYear ≤ 365
  /-- A leap day ends the fourth year of a group; the last group of a century
      has one where the century is the last one of its cycle. -/
  leapDay : dayOfYear = 365 → yearOfGroup = 3 ∧ (group < 24 ∨ century = 3)

namespace Place
variable (p : Place)

/-- The year that began in March. -/
def year : Int :=
  400 * p.cycle + (100 * p.century + 4 * p.group + p.yearOfGroup : Nat)

/-- Months since March. -/
def month : Nat :=
  (5 * p.dayOfYear + 2) / 153

/-- The day of the month. -/
def day : Nat :=
  p.dayOfYear - (153 * p.month + 2) / 5 + 1

/-- The date: January and February belong to the next year. -/
def date : Date :=
  if p.month < 10 then ⟨p.year, p.month + 3, p.day⟩ else ⟨p.year + 1, p.month - 9, p.day⟩

/-- Days since 0000-03-01. -/
def number : Int :=
  146097 * p.cycle +
    (36524 * p.century + 1461 * p.group + 365 * p.yearOfGroup + p.dayOfYear : Nat)

end Place

/-- **Peeling.**  Each part is what the part before it leaves over. -/
theorem exists_place (n : Int) :
    ∃ p : Place, p.number = n + epochOffset ∧ p.date = ofDayNumber n := by
  -- The names are those of the definition.
  let z := n + epochOffset
  let ofCycle := (z % 146097).toNat
  let century := min (ofCycle / 36524) 3
  let ofCentury := ofCycle - 36524 * century
  let group := ofCentury / 1461
  let ofGroup := ofCentury % 1461
  let yearOfGroup := min (ofGroup / 365) 3
  let dayOfYear := ofGroup - 365 * yearOfGroup
  have hcycle : z = 146097 * (z / 146097) + ofCycle ∧ ofCycle ≤ 146096 := by omega
  have hcentury : ofCycle = 36524 * century + ofCentury ∧ century ≤ 3 ∧
      (ofCentury < 36524 ∨ ofCentury = 36524 ∧ century = 3) := by omega
  have hgroup : ofCentury = 1461 * group + ofGroup ∧ group ≤ 24 ∧ ofGroup ≤ 1460 := by omega
  have hyear : ofGroup = 365 * yearOfGroup + dayOfYear ∧ yearOfGroup ≤ 3 ∧
      (dayOfYear < 365 ∨ dayOfYear = 365 ∧ yearOfGroup = 3) := by omega
  have hleap : dayOfYear = 365 → yearOfGroup = 3 ∧ (group < 24 ∨ century = 3) := by omega
  have hday : dayOfYear ≤ 365 := by omega
  refine ⟨⟨z / 146097, century, group, yearOfGroup, dayOfYear, hcentury.2.1, hgroup.2.1,
    hyear.2.1, hday, hleap⟩, ?_, rfl⟩
  show 146097 * (z / 146097) +
    (36524 * century + 1461 * group + 365 * yearOfGroup + dayOfYear : Nat) = z
  omega

/-! ## Valid dates -/

/-- The lengths of the months, from March on. -/
theorem month_table (leap : Bool) : ∀ d < 366, (d = 365 → leap = true) →
    let k := (5 * d + 2) / 153
    let m := if k < 10 then k + 3 else k - 9
    k ≤ 11 ∧ (153 * k + 2) / 5 ≤ d ∧
      d - (153 * k + 2) / 5 + 1 ≤
        (if m = 2 then if leap then 29 else 28
          else if m = 4 ∨ m = 6 ∨ m = 9 ∨ m = 11 then 30 else 31) := by
  revert leap
  decide +kernel

namespace Place
variable (p : Place)

theorem month_le : p.month ≤ 11 := by
  have hd := p.dayOfYear_le
  unfold month
  omega

theorem firstOfMonth_le : (153 * p.month + 2) / 5 ≤ p.dayOfYear := by
  unfold month
  omega

theorem date_year : p.date.year = if p.month < 10 then p.year else p.year + 1 := by
  unfold date
  split <;> rfl

theorem date_month : p.date.month = if p.month < 10 then p.month + 3 else p.month - 9 := by
  unfold date
  split <;> rfl

theorem date_day : p.date.day = p.day := by
  unfold date
  split <;> rfl

/-- A year that has the leap day is followed by a leap year. -/
theorem isLeapYear_of_leapDay (h : p.dayOfYear = 365) : isLeapYear (p.year + 1) = true := by
  obtain ⟨hyear, hgroup⟩ := p.leapDay h
  have hcentury := p.century_le
  have hle := p.group_le
  have hfour : (p.year + 1) % 4 = 0 := by
    unfold year
    omega
  have hhundred : (p.year + 1) % 100 ≠ 0 ∨ (p.year + 1) % 400 = 0 := by
    unfold year
    omega
  simpa [isLeapYear, hfour] using hhundred

/-- **A place is a valid date.** -/
theorem isValid_date : p.date.isValid = true := by
  have hmonth := p.month_le
  -- The leap day is in February, so its calendar year is the year that began in January.
  have hleap : p.dayOfYear = 365 → isLeapYear p.date.year = true := by
    intro h
    have hfebruary : ¬ p.month < 10 := by
      unfold month
      omega
    rw [date_year, if_neg hfebruary]
    exact p.isLeapYear_of_leapDay h
  have htable : p.day ≤ daysInMonth p.date.year p.date.month := by
    rw [date_month]
    exact (month_table _ p.dayOfYear (Nat.lt_succ_of_le p.dayOfYear_le) hleap).2.2
  have hrange : 1 ≤ p.date.month ∧ p.date.month ≤ 12 := by
    rw [date_month]
    split <;> omega
  have hday : 1 ≤ p.day := Nat.succ_le_succ (Nat.zero_le _)
  simp [isValid, date_day, hrange, hday, htable]

/-! ## Numbers -/

/-- The days of the years before, by the rule of leap years. -/
theorem number_eq : p.number =
    365 * p.year + p.year / 4 - p.year / 100 + p.year / 400 + p.dayOfYear := by
  have hcentury := p.century_le
  have hgroup := p.group_le
  have hyear := p.yearOfGroup_le
  have h4 : p.year / 4 = 100 * p.cycle + (25 * p.century + p.group : Nat) := by
    unfold year
    omega
  have h100 : p.year / 100 = 4 * p.cycle + p.century := by
    unfold year
    omega
  have h400 : p.year / 400 = p.cycle := by
    unfold year
    omega
  rw [h4, h100, h400]
  unfold number year
  omega

/-- **The number of a place's date.** -/
theorem dayNumber_date : p.date.dayNumber = p.number - epochOffset := by
  have hmonth := p.month_le
  have hfirst := p.firstOfMonth_le
  have hyear : (if p.date.month ≤ 2 then p.date.year - 1 else p.date.year) = p.year := by
    rw [date_month, date_year]
    split <;> split <;> omega
  have hsinceMarch : (p.date.month + 9) % 12 = p.month := by
    rw [date_month]
    split <;> omega
  have hday : (153 * p.month + 2) / 5 + p.date.day - 1 = p.dayOfYear := by
    rw [date_day]
    unfold day
    omega
  unfold dayNumber
  dsimp only
  rw [hyear, hsinceMarch, hday, number_eq]

/-- **The years that have days** between -262143-01-01 and +262142-12-31. -/
theorem date_year_range (hlow : -96465292 ≤ p.number - epochOffset)
    (hhigh : p.number - epochOffset ≤ 95026236) :
    -262143 ≤ p.date.year ∧ p.date.year ≤ 262142 := by
  have hd := p.dayOfYear_le
  unfold epochOffset at hlow hhigh
  rw [number_eq] at hlow hhigh
  rw [date_year]
  constructor
  · have hyear : -262144 ≤ p.year := by omega
    -- Of the year before the first, only the days from January on are in range.
    by_cases hfirst : p.year = -262144
    · have hjanuary : ¬ p.month < 10 := by
        rw [hfirst] at hlow
        unfold month
        omega
      rw [if_neg hjanuary]
      omega
    · split <;> omega
  · have hyear : p.year ≤ 262142 := by omega
    by_cases hlast : p.year = 262142
    · have hdecember : p.month < 10 := by
        rw [hlast] at hhigh
        unfold month
        omega
      rw [if_pos hdecember]
      omega
    · split <;> omega

end Place

/-! ## Dates -/

/-- **The calendar has every day.** -/
theorem isValid_ofDayNumber (n : Int) : (ofDayNumber n).isValid = true := by
  obtain ⟨p, -, hdate⟩ := exists_place n
  rw [← hdate]
  exact p.isValid_date

/-- **A day's number** is the number that it was found by. -/
theorem dayNumber_ofDayNumber (n : Int) : (ofDayNumber n).dayNumber = n := by
  obtain ⟨p, hnumber, hdate⟩ := exists_place n
  rw [← hdate, p.dayNumber_date, hnumber]
  omega

theorem year_ofDayNumber_range {n : Int} (hlow : -96465292 ≤ n) (hhigh : n ≤ 95026236) :
    -262143 ≤ (ofDayNumber n).year ∧ (ofDayNumber n).year ≤ 262142 := by
  obtain ⟨p, hnumber, hdate⟩ := exists_place n
  rw [← hdate]
  apply p.date_year_range <;> omega

/-- The month and the day of a valid date. -/
theorem bounds_of_isValid {d : Date} (h : d.isValid = true) :
    1 ≤ d.month ∧ d.month ≤ 12 ∧ 1 ≤ d.day ∧ d.day ≤ 31 := by
  have hlength : daysInMonth d.year d.month ≤ 31 := by
    unfold daysInMonth
    split
    · split <;> omega
    · split <;> omega
  simp only [isValid, Bool.and_eq_true, decide_eq_true_eq] at h
  omega

end OrderFlow.Date
