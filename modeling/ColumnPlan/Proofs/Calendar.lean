import ColumnPlan.Calendar
import Mathlib.Data.Int.Order.Basic
import Mathlib.Tactic.IntervalCases

/-!
# Days and dates

The number of a day follows the rules of the calendar: it grows by one from day to day, by the
length of a month to the next month, and a year ends with its December.  Every day has one date, and
later days have later dates.

* `Date.Valid`                a date that there is;
* `dayOfDate_month`, `dayOfDate_year`   the rules;
* `dayOfDate_next`            the day after a date;
* `CycleDay`                  a day of the 400 years after which the pattern of leap years repeats;
* `dateFromMarch`             the date of a day of a year that starts in March;
* `valid_dateOfDay`, `dayOfDate_dateOfDay`   the date of a day;
* `dayOfDate_lt_of_year`, `dayOfDate_lt_of_month`   the order of dates;
* `hasYear_dateOfDay_iff`     the days that have dates here.
-/

namespace ColumnPlan.Calendar

/-! ### the rules of the calendar -/

/-- The day of a date of a year that starts in March. -/
def dayFromMarch (year month day : Int) : Int :=
  365 * year + year / 4 - year / 100 + year / 400 + (153 * month + 2) / 5 + day - 1 - 719468

section
variable (year : Int) {month : Int} (day : Int)

/-- January and February end the year before. -/
theorem dayOfDate_early (h : 1 ≤ month) (h' : month ≤ 2) :
    dayOfDate ⟨year, month, day⟩ = dayFromMarch (year - 1) (month + 9) day := by
  have place : (month + 9) % 12 = month + 9 := Int.emod_eq_of_lt (by omega) (by omega)
  simp only [dayOfDate, dayFromMarch, if_pos h', place]

theorem dayOfDate_late (h : 3 ≤ month) (h' : month ≤ 12) :
    dayOfDate ⟨year, month, day⟩ = dayFromMarch year (month - 3) day := by
  have late : ¬ month ≤ 2 := by omega
  have place : (month + 9) % 12 = month - 3 := by omega
  simp only [dayOfDate, dayFromMarch, if_neg late, place]

theorem dayOfDate_day (month : Int) :
    dayOfDate ⟨year, month, day⟩ = dayOfDate ⟨year, month, 1⟩ + (day - 1) := by
  simp only [dayOfDate]
  omega

theorem daysInMonth_february :
    daysInMonth year 2 = if year % 4 = 0 ∧ (year % 100 ≠ 0 ∨ year % 400 = 0) then 29 else 28 := by
  show (if isLeap year = true then (29 : Int) else 28) = _
  simp only [isLeap, Bool.and_eq_true, Bool.or_eq_true, decide_eq_true_eq]

/-- From March to December five months have 153 days together, and so have the next ones. -/
theorem daysInMonth_late (h : 3 ≤ month) (h' : month ≤ 12) :
    daysInMonth year month = (153 * (month - 2) + 2) / 5 - (153 * (month - 3) + 2) / 5 := by
  interval_cases month <;> rfl

theorem daysInMonth_pos (month : Int) : 0 < daysInMonth year month := by
  unfold daysInMonth
  split
  · split <;> decide
  · split <;> decide

/-- A month is followed by the next one. -/
theorem dayOfDate_month (h : 1 ≤ month) (h' : month ≤ 11) :
    dayOfDate ⟨year, month + 1, 1⟩ = dayOfDate ⟨year, month, 1⟩ + daysInMonth year month := by
  have which : month = 1 ∨ month = 2 ∨ 3 ≤ month := by omega
  rcases which with rfl | rfl | late
  · rw [dayOfDate_early year 1 (by decide) (by decide),
      dayOfDate_early year 1 (by decide) (by decide)]
    show _ = _ + 31
    unfold dayFromMarch
    omega
  · have march : (3 : Int) ≤ 2 + 1 := by decide
    rw [dayOfDate_late year 1 march (by decide), dayOfDate_early year 1 (by decide) (by decide),
      daysInMonth_february]
    unfold dayFromMarch
    omega
  · rw [dayOfDate_late year 1 late (by omega), dayOfDate_late year 1 (by omega) (by omega),
      daysInMonth_late year late (by omega)]
    unfold dayFromMarch
    omega

/-- A year ends with its December. -/
theorem dayOfDate_year :
    dayOfDate ⟨year + 1, 1, 1⟩ = dayOfDate ⟨year, 12, 1⟩ + daysInMonth year 12 := by
  rw [dayOfDate_early _ 1 (by decide) (by decide), dayOfDate_late year 1 (by decide) (by decide)]
  show _ = _ + 31
  unfold dayFromMarch
  omega

end

theorem dayOfDate_start_of_1970 : dayOfDate ⟨1970, 1, 1⟩ = 0 := by decide

/-- A date that there is. -/
structure Date.Valid (d : Date) : Prop where
  month_pos : 1 ≤ d.month
  month_le : d.month ≤ 12
  day_pos : 1 ≤ d.day
  day_le : d.day ≤ daysInMonth d.year d.month

/-- The date after a date. -/
def Date.next (d : Date) : Date :=
  if d.day < daysInMonth d.year d.month then ⟨d.year, d.month, d.day + 1⟩
  else if d.month < 12 then ⟨d.year, d.month + 1, 1⟩
  else ⟨d.year + 1, 1, 1⟩

theorem dayOfDate_next {d : Date} (h : d.Valid) : dayOfDate d.next = dayOfDate d + 1 := by
  obtain ⟨year, month, day⟩ := d
  obtain ⟨month_pos, month_le, day_pos, day_le⟩ := h
  unfold Date.next
  dsimp only at *
  rw [dayOfDate_day year day]
  split
  · rw [dayOfDate_day]
    omega
  · next last =>
    split
    · rw [dayOfDate_month year month_pos (by omega)]
      omega
    · have december : month = 12 := by omega
      subst december
      rw [dayOfDate_year]
      omega

/-! ### the order of dates -/

section
variable {d e : Date}

/-- The months of a year do not overlap. -/
theorem dayOfDate_month_le (year : Int) {month later : Int} (h : 1 ≤ month) (hl : later ≤ 12)
    (lt : month < later) :
    dayOfDate ⟨year, month, 1⟩ + daysInMonth year month ≤ dayOfDate ⟨year, later, 1⟩ := by
  induction later, lt using Int.leInduction with
  | base => exact (dayOfDate_month year h (by omega)).ge
  | succ later behind ih =>
    have step : dayOfDate ⟨year, later + 1, 1⟩ = _ := dayOfDate_month year (by omega) (by omega)
    have positive := daysInMonth_pos year later
    have before := ih (by omega)
    omega

theorem dayOfDate_bounds_month (h : d.Valid) :
    dayOfDate ⟨d.year, d.month, 1⟩ ≤ dayOfDate d ∧
      dayOfDate d < dayOfDate ⟨d.year, d.month, 1⟩ + daysInMonth d.year d.month := by
  have day := dayOfDate_day d.year d.day d.month
  have first := h.day_pos
  have last := h.day_le
  show _ ≤ dayOfDate ⟨d.year, d.month, d.day⟩ ∧ dayOfDate ⟨d.year, d.month, d.day⟩ < _
  omega

theorem dayOfDate_bounds_year (h : d.Valid) :
    dayOfDate ⟨d.year, 1, 1⟩ ≤ dayOfDate d ∧ dayOfDate d < dayOfDate ⟨d.year + 1, 1, 1⟩ := by
  have inside := dayOfDate_bounds_month h
  have first : dayOfDate ⟨d.year, 1, 1⟩ ≤ dayOfDate ⟨d.year, d.month, 1⟩ := by
    rcases h.month_pos.eq_or_lt with january | later
    · rw [← january]
    · have behind := dayOfDate_month_le d.year le_rfl h.month_le later
      have positive := daysInMonth_pos d.year 1
      omega
  have last : dayOfDate ⟨d.year, d.month, 1⟩ + daysInMonth d.year d.month ≤
      dayOfDate ⟨d.year + 1, 1, 1⟩ := by
    rw [dayOfDate_year]
    rcases h.month_le.eq_or_lt with december | before
    · rw [december]
    · have behind := dayOfDate_month_le d.year h.month_pos le_rfl before
      have positive := daysInMonth_pos d.year 12
      omega
  omega

theorem dayOfDate_year_le {year later : Int} (h : year ≤ later) :
    dayOfDate ⟨year, 1, 1⟩ ≤ dayOfDate ⟨later, 1, 1⟩ := by
  rw [dayOfDate_early year 1 (by decide) (by decide),
    dayOfDate_early later 1 (by decide) (by decide)]
  unfold dayFromMarch
  omega

theorem dayOfDate_lt_of_year (hd : d.Valid) (he : e.Valid) (h : d.year < e.year) :
    dayOfDate d < dayOfDate e := by
  have before := (dayOfDate_bounds_year hd).2
  have between := dayOfDate_year_le (Int.add_one_le_of_lt h)
  have behind := (dayOfDate_bounds_year he).1
  omega

theorem dayOfDate_lt_of_month (hd : d.Valid) (he : e.Valid) (year : d.year = e.year)
    (h : d.month < e.month) : dayOfDate d < dayOfDate e := by
  have before := (dayOfDate_bounds_month hd).2
  have between := dayOfDate_month_le d.year hd.month_pos he.month_le h
  have behind := (dayOfDate_bounds_month he).1
  rw [← year] at behind
  omega

theorem dayOfDate_lt_of_day (year : d.year = e.year) (month : d.month = e.month)
    (h : d.day < e.day) : dayOfDate d < dayOfDate e := by
  have before := dayOfDate_day d.year d.day d.month
  have behind := dayOfDate_day e.year e.day e.month
  rw [year, month] at before
  show dayOfDate ⟨d.year, d.month, d.day⟩ < dayOfDate ⟨e.year, e.month, e.day⟩
  rw [year, month]
  omega

end

/-! ### cycles of 400 years -/

/-- A day of a cycle: the centuries before it, then the spans of four years, the years and the days.
Only the last year of a span has a leap day, and not if a century ends with it, unless the cycle
does. -/
structure CycleDay where
  centuries : Int
  spans : Int
  years : Int
  days : Int
  centuries_le : 0 ≤ centuries ∧ centuries ≤ 3
  spans_le : 0 ≤ spans ∧ spans ≤ 24
  years_le : 0 ≤ years ∧ years ≤ 3
  days_le : 0 ≤ days ∧ days ≤ 365
  leapDay : days = 365 → years = 3 ∧ (spans = 24 → centuries = 3)

namespace CycleDay

def index (p : CycleDay) : Int := 36524 * p.centuries + 1461 * p.spans + 365 * p.years + p.days

def year (p : CycleDay) : Int := 100 * p.centuries + 4 * p.spans + p.years

theorem year_bounds (p : CycleDay) : 0 ≤ p.year ∧ p.year ≤ 399 := by
  have centuries := p.centuries_le
  have spans := p.spans_le
  have years := p.years_le
  unfold year
  omega

theorem exists_index {i : Int} (h : 0 ≤ i) (h' : i < 146097) : ∃ p : CycleDay, p.index = i := by
  -- the fourth century and the fourth year of a span may be a day longer than the others
  obtain ⟨centuries, hc⟩ : ∃ c, c = min (i / 36524) 3 := ⟨_, rfl⟩
  obtain ⟨inCentury, hi⟩ : ∃ r, r = i - 36524 * centuries := ⟨_, rfl⟩
  obtain ⟨spans, hs⟩ : ∃ q, q = inCentury / 1461 := ⟨_, rfl⟩
  obtain ⟨inSpan, hr⟩ : ∃ r, r = inCentury - 1461 * spans := ⟨_, rfl⟩
  obtain ⟨years, hy⟩ : ∃ y, y = min (inSpan / 365) 3 := ⟨_, rfl⟩
  have century : 0 ≤ inCentury ∧ inCentury ≤ 36524 ∧ (inCentury = 36524 → centuries = 3) := by omega
  have span : 0 ≤ inSpan ∧ inSpan ≤ 1460 := by omega
  refine ⟨⟨centuries, spans, years, inSpan - 365 * years, ?_, ?_, ?_, ?_, ?_⟩, ?_⟩
  · omega
  · omega
  · omega
  · omega
  · omega
  · unfold index
    dsimp only
    omega

/-- The days that are taken out before the division are the leap days before the year. -/
theorem year_index (p : CycleDay) :
    (p.index - p.index / 1460 + p.index / 36524 - p.index / 146096) / 365 = p.year := by
  obtain ⟨c, s, y, d, hc, hs, hy, hd, leapDay⟩ := p
  simp only [index, year]
  obtain ⟨i, hi⟩ : ∃ i, i = 36524 * c + 1461 * s + 365 * y + d := ⟨_, rfl⟩
  rw [← hi]
  have spans : i / 1460 = 25 * c + s + if 24 * c + s + 365 * y + d < 1460 then 0 else 1 := by
    split <;> omega
  have centuries : i / 36524 = c + if 1461 * s + 365 * y + d < 36524 then 0 else 1 := by
    split <;> omega
  have cycles : i / 146096 = if i < 146096 then 0 else 1 := by
    split <;> omega
  rw [spans, centuries, cycles]
  split <;> split <;> split <;> omega

theorem index_eq (p : CycleDay) :
    p.index = 365 * p.year + p.year / 4 - p.year / 100 + p.days := by
  obtain ⟨c, s, y, d, hc, hs, hy, hd, leapDay⟩ := p
  simp only [index, year]
  omega

end CycleDay

/-! ### dates of days -/

/-- The date so many days after the start of March of a year. -/
def dateFromMarch (year days : Int) : Date :=
  let monthFromMarch := (5 * days + 2) / 153
  let month := if monthFromMarch < 10 then monthFromMarch + 3 else monthFromMarch - 9
  { year := year + (if month ≤ 2 then 1 else 0)
    month := month
    day := days - (153 * monthFromMarch + 2) / 5 + 1 }

section
variable (year : Int) {days : Int}

/-- The days of a month stand between two multiples of 153. -/
theorem dateFromMarch_cases (h : 0 ≤ days) (h' : days ≤ 365) : ∃ month day, 1 ≤ day ∧
    days = (153 * month + 2) / 5 + (day - 1) ∧ 5 * days + 2 < 153 * (month + 1) ∧
      ((0 ≤ month ∧ month ≤ 9 ∧ dateFromMarch year days = ⟨year, month + 3, day⟩) ∨
        (10 ≤ month ∧ month ≤ 11 ∧ dateFromMarch year days = ⟨year + 1, month - 9, day⟩)) := by
  refine ⟨(5 * days + 2) / 153, days - (153 * ((5 * days + 2) / 153) + 2) / 5 + 1,
    by omega, by omega, by omega, ?_⟩
  by_cases late : (5 * days + 2) / 153 < 10
  · have behind : ¬ (5 * days + 2) / 153 + 3 ≤ 2 := by omega
    refine .inl ⟨by omega, by omega, ?_⟩
    simp only [dateFromMarch, if_pos late, if_neg behind, Int.add_zero]
  · have behind : (5 * days + 2) / 153 - 9 ≤ 2 := by omega
    refine .inr ⟨by omega, by omega, ?_⟩
    simp only [dateFromMarch, if_neg late, if_pos behind]

theorem dayOfDate_dateFromMarch (h : 0 ≤ days) (h' : days ≤ 365) :
    dayOfDate (dateFromMarch year days) = dayFromMarch year 0 (days + 1) := by
  obtain ⟨month, day, -, place, -, ⟨low, high, date⟩ | ⟨low, high, date⟩⟩ :=
    dateFromMarch_cases year h h'
  · rw [date, dayOfDate_late year day (by omega) (by omega)]
    unfold dayFromMarch
    omega
  · rw [date, dayOfDate_early _ day (by omega) (by omega)]
    unfold dayFromMarch
    omega

/-- Only a leap year has a day more. -/
theorem valid_dateFromMarch (h : 0 ≤ days) (h' : days ≤ 365)
    (leap : days = 365 → daysInMonth (year + 1) 2 = 29) : (dateFromMarch year days).Valid := by
  obtain ⟨month, day, positive, place, next, ⟨low, high, date⟩ | ⟨low, high, date⟩⟩ :=
    dateFromMarch_cases year h h'
  · rw [date]
    refine ⟨by dsimp only; omega, by dsimp only; omega, positive, ?_⟩
    dsimp only
    rw [daysInMonth_late year (by omega) (by omega)]
    omega
  · rw [date]
    refine ⟨by dsimp only; omega, by dsimp only; omega, positive, ?_⟩
    have either : month = 10 ∨ month = 11 := by omega
    rcases either with rfl | rfl
    · show day ≤ 31
      omega
    · show day ≤ daysInMonth (year + 1) 2
      rw [daysInMonth_february] at leap ⊢
      omega

end

/-- A day is one of a cycle, and the cycle and the year of the day in it make its year. -/
theorem exists_dateOfDay (day : Int) : ∃ cycle p,
    day = 146097 * cycle + CycleDay.index p - 719468 ∧
      dateOfDay day = dateFromMarch (p.year + cycle * 400) p.days := by
  obtain ⟨p, hp⟩ := CycleDay.exists_index (i := (day + 719468) % 146097) (by omega) (by omega)
  refine ⟨(day + 719468) / 146097, p, by omega, ?_⟩
  have year := p.year_index
  have days : p.index - (365 * p.year + p.year / 4 - p.year / 100) = p.days := by
    rw [p.index_eq]
    omega
  simp only [dateOfDay, dateFromMarch, ← hp, year, days]

/-- A day is the one of its date. -/
theorem dayOfDate_dateOfDay (day : Int) : dayOfDate (dateOfDay day) = day := by
  obtain ⟨cycle, p, place, date⟩ := exists_dateOfDay day
  rw [date, dayOfDate_dateFromMarch _ p.days_le.1 p.days_le.2, place, p.index_eq]
  have inCycle := p.year_bounds
  unfold dayFromMarch
  omega

theorem valid_dateOfDay (day : Int) : (dateOfDay day).Valid := by
  obtain ⟨cycle, p, -, date⟩ := exists_dateOfDay day
  rw [date]
  refine valid_dateFromMarch _ p.days_le.1 p.days_le.2 fun last => ?_
  obtain ⟨c, s, y, d, hc, hs, hy, hd, leapDay⟩ := p
  obtain ⟨rfl, century⟩ := leapDay last
  rw [daysInMonth_february, if_pos]
  simp only [CycleDay.year]
  omega

/-- The days that have dates here. -/
theorem hasYear_dateOfDay_iff (day : Int) : hasYear (dateOfDay day).year = true ↔
    dayOfDate ⟨-9999, 1, 1⟩ ≤ day ∧ day < dayOfDate ⟨10000, 1, 1⟩ := by
  have bounds := dayOfDate_bounds_year (valid_dateOfDay day)
  rw [dayOfDate_dateOfDay] at bounds
  rw [hasYear, Bool.and_eq_true, decide_eq_true_eq, decide_eq_true_eq]
  constructor
  · rintro ⟨first, last⟩
    have before := dayOfDate_year_le first
    have behind := dayOfDate_year_le (Int.add_le_add_right last 1)
    exact ⟨before.trans bounds.1, bounds.2.trans_le behind⟩
  · rintro ⟨first, last⟩
    constructor
    · by_contra before
      have year : (dateOfDay day).year + 1 ≤ -9999 := by omega
      exact absurd (first.trans_lt bounds.2) (dayOfDate_year_le year).not_gt
    · by_contra behind
      have year : 10000 ≤ (dateOfDay day).year := by omega
      exact absurd (bounds.1.trans_lt last) (dayOfDate_year_le year).not_gt

end ColumnPlan.Calendar
