import ContainerInit.Time.Rfc3339
import Mathlib.Algebra.Ring.Nat
import Mathlib.Order.Monotone.Basic

/-!
# The count of days

- **Days** (`dayNumber`): every day has a number, counted from the start of year 0 without looking
  at the days between.
- **Months** (`monthStart_succ`): a month starts as many days after the one before as that one has,
  across the ends of years too, so months start at ever later days (`monthStart_strictMono`).
- **Last minutes** (`Moment.isLastMinuteOfMonth_iff`): whether universal time is at the last minute
  of a month is told from the date, the time and the offset of a place, also where that minute lies
  in another month or another year than the date of the place, before year 0 and after 9999.
-/

namespace ContainerInit

/-! ## Days -/

/-- The number of days from the start of year 0 to the start of a year. -/
def daysBeforeYear (year : Nat) : Nat :=
  365 * year + (year + 3) / 4 - (year + 99) / 100 + (year + 399) / 400

/-- The number of days of a year before a month. -/
def daysBeforeMonth (year month : Nat) : Nat :=
  ((List.range (month - 1)).map fun k => daysInMonth year (k + 1)).sum

/-- The number of a day, counted from the first day of year 0. -/
def dayNumber (year month day : Nat) : Nat :=
  daysBeforeYear year + daysBeforeMonth year month + (day - 1)

theorem daysBeforeYear_succ (year : Nat) :
    daysBeforeYear (year + 1) = daysBeforeYear year + if isLeapYear year then 366 else 365 := by
  have rule : isLeapYear year = true ↔ year % 4 = 0 ∧ (year % 100 ≠ 0 ∨ year % 400 = 0) := by
    simp [isLeapYear]
  have four : (year + 4) / 4 = (year + 3) / 4 + if year % 4 = 0 then 1 else 0 := by
    split <;> omega
  have hundred : (year + 100) / 100 = (year + 99) / 100 + if year % 100 = 0 then 1 else 0 := by
    split <;> omega
  have cycle : (year + 400) / 400 = (year + 399) / 400 + if year % 400 = 0 then 1 else 0 := by
    split <;> omega
  have enough : (year + 99) / 100 ≤ 365 * year := by omega
  unfold daysBeforeYear
  simp only [Nat.add_assoc, Nat.reduceAdd, four, hundred, cycle, rule]
  generalize (year + 3) / 4 = fours at *
  generalize (year + 99) / 100 = hundreds at *
  generalize (year + 399) / 400 = cycles at *
  split <;> split <;> split <;> split <;> omega

theorem daysBeforeMonth_succ {year month : Nat} (positive : 1 ≤ month) :
    daysBeforeMonth year (month + 1) = daysBeforeMonth year month + daysInMonth year month := by
  obtain ⟨k, rfl⟩ := Nat.exists_eq_add_of_le' positive
  simp [daysBeforeMonth, List.range_succ]

/-- A year has as many days as its months together. -/
theorem daysBeforeMonth_year (year : Nat) :
    daysBeforeMonth year 12 + daysInMonth year 12 = if isLeapYear year then 366 else 365 := by
  rw [← daysBeforeMonth_succ (by decide)]
  cases leap : isLeapYear year <;> simp [daysBeforeMonth, List.range_succ, daysInMonth, leap]

theorem daysInMonth_pos_iff {year month : Nat} :
    0 < daysInMonth year month ↔ 1 ≤ month ∧ month ≤ 12 := by
  unfold daysInMonth
  split
  case h_12 => split <;> omega
  case h_13 => grind
  all_goals omega

theorem le_daysInMonth {year month : Nat} (real : 1 ≤ month ∧ month ≤ 12) :
    28 ≤ daysInMonth year month := by
  unfold daysInMonth
  split
  case h_12 => split <;> omega
  case h_13 => grind
  all_goals omega

/-! ## Months -/

/-- The number of the first day of a month, the months being counted from year 0. -/
def monthStart (n : Nat) : Nat :=
  dayNumber (n / 12) (n % 12 + 1) 1

/-- The number of days of a month, the months being counted from year 0. -/
def monthLength (n : Nat) : Nat :=
  daysInMonth (n / 12) (n % 12 + 1)

theorem monthStart_eq {year month : Nat} (real : 1 ≤ month ∧ month ≤ 12) :
    monthStart (12 * year + (month - 1)) = dayNumber year month 1 ∧
      monthLength (12 * year + (month - 1)) = daysInMonth year month := by
  have parts : (12 * year + (month - 1)) / 12 = year ∧
      (12 * year + (month - 1)) % 12 + 1 = month := by omega
  rw [monthStart, monthLength, parts.1, parts.2]
  exact ⟨rfl, rfl⟩

theorem le_monthLength (n : Nat) : 28 ≤ monthLength n :=
  le_daysInMonth (by omega)

/-- **A month starts where the one before ends.** -/
theorem monthStart_succ (n : Nat) : monthStart (n + 1) = monthStart n + monthLength n := by
  unfold monthStart monthLength dayNumber
  by_cases last : n % 12 = 11
  · have next : (n + 1) / 12 = n / 12 + 1 ∧ (n + 1) % 12 = 0 := by omega
    have whole := daysBeforeMonth_year (n / 12)
    have none : daysBeforeMonth (n / 12 + 1) 1 = 0 := rfl
    rw [next.1, next.2, last, daysBeforeYear_succ, ← whole, none]
    simp only [Nat.reduceAdd]
    omega
  · have next : (n + 1) / 12 = n / 12 ∧ (n + 1) % 12 = n % 12 + 1 := by omega
    rw [next.1, next.2, daysBeforeMonth_succ (by omega)]
    omega

theorem monthStart_strictMono : StrictMono monthStart := by
  refine strictMono_nat_of_lt_succ fun n => ?_
  have := le_monthLength n
  rw [monthStart_succ]
  omega

/-- A month starts where another does, or where that one ends. -/
theorem monthStart_add_eq_iff {n x : Nat} (near : x ≤ monthLength n) :
    (∃ k, monthStart n + x = monthStart k) ↔ x = 0 ∨ x = monthLength n := by
  constructor
  · rintro ⟨k, start⟩
    rcases Nat.lt_or_ge k (n + 1) with before | after
    · have := monthStart_strictMono.monotone (Nat.le_of_lt_succ before)
      omega
    · have := monthStart_strictMono.monotone after
      rw [monthStart_succ] at this
      omega
  · rintro (rfl | rfl)
    · exact ⟨n, rfl⟩
    · exact ⟨n + 1, (monthStart_succ n).symm⟩

/-! ## Last minutes -/

/-- The minute of universal time, counted from the start of year 0, when a place with an offset of
so many minutes has a date, an hour and a minute. -/
def utcMinute (year month day hour minute : Nat) (offset : Int) : Int :=
  (dayNumber year month day * 1440 + hour * 60 + minute : Nat) - offset

/-- A minute of universal time is 23:59 on the last day of a month: the next one starts a month. -/
def IsLastOfMonth (utc : Int) : Prop :=
  ∃ year month, 1 ≤ month ∧ month ≤ 12 ∧ utc + 1 = (dayNumber year month 1 * 1440 : Nat)

theorem isLastOfMonth_iff {utc : Int} :
    IsLastOfMonth utc ↔ ∃ n, utc + 1 = (monthStart n * 1440 : Nat) := by
  constructor
  · rintro ⟨year, month, first, last, next⟩
    exact ⟨_, by rw [(monthStart_eq ⟨first, last⟩).1, next]⟩
  · rintro ⟨n, next⟩
    exact ⟨n / 12, n % 12 + 1, by omega, by omega, next⟩

/-- The next minute is midnight before or after a day at some place, where that day is the first or
the last one of its month. -/
theorem isLastOfMonth_of_day {n day : Nat} {utc : Int} (real : 1 ≤ day ∧ day ≤ monthLength n)
    (near : -1440 < utc ∧ utc < 2879) :
    IsLastOfMonth ((monthStart n + (day - 1) : Nat) * 1440 + utc) ↔
      utc = -1 ∧ day = 1 ∨ utc = 1439 ∧ day = monthLength n := by
  have midnight (x : Nat) (next : utc + 1 = ((x : Int) - (day - 1 : Nat)) * 1440) :
      IsLastOfMonth ((monthStart n + (day - 1) : Nat) * 1440 + utc) ↔
        ∃ k, monthStart n + x = monthStart k := by
    rw [isLastOfMonth_iff]
    refine exists_congr fun k => ?_
    omega
  rcases real with ⟨first, last⟩
  by_cases before : utc = -1
  · rw [midnight (day - 1) (by omega), monthStart_add_eq_iff (by omega)]
    omega
  · by_cases after : utc = 1439
    · rw [midnight day (by omega), monthStart_add_eq_iff last]
      omega
    · have never : ¬ IsLastOfMonth ((monthStart n + (day - 1) : Nat) * 1440 + utc) := by
        rw [isLastOfMonth_iff]
        rintro ⟨k, start⟩
        omega
      rw [iff_false_left never]
      omega

theorem Moment.isLastMinuteOfMonth_eq_true_iff {d : Date} {hour minute : Nat} {offset : Int}
    (time : hour < 24 ∧ minute < 60) (small : offset.natAbs < 1440) :
    isLastMinuteOfMonth d hour minute offset = true ↔
      (hour * 60 + minute : Nat) - offset = -1 ∧ d.day = 1 ∨
      (hour * 60 + minute : Nat) - offset = 1439 ∧ d.day = daysInMonth d.year d.month := by
  unfold isLastMinuteOfMonth Date.isMonthEnd
  dsimp only
  split
  · simp only [Bool.and_eq_true, beq_iff_eq]
    omega
  · split
    · simp only [Bool.and_eq_true, beq_iff_eq]
      omega
    · simp only [Bool.and_eq_true, beq_iff_eq]
      omega

/-- **Universal time is at the last minute of a month** as the date, the time and the offset of a
place tell. -/
theorem Moment.isLastMinuteOfMonth_iff (d : Date) {hour minute : Nat} {offset : Int}
    (time : hour < 24 ∧ minute < 60) (small : offset.natAbs < 1440) :
    isLastMinuteOfMonth d hour minute offset = true ↔
      IsLastOfMonth (utcMinute d.year d.month d.day hour minute offset) := by
  obtain ⟨-, first, last⟩ := d.isDay
  have month := daysInMonth_pos_iff.1 (Nat.lt_of_lt_of_le first last)
  obtain ⟨start, length⟩ := @monthStart_eq d.year d.month month
  rw [← length] at last
  have day : ((monthStart (12 * d.year + (d.month - 1)) + (d.day - 1) : Nat) : Int) * 1440 +
      ((hour * 60 + minute : Nat) - offset) =
        utcMinute d.year d.month d.day hour minute offset := by
    rw [start, utcMinute, dayNumber, dayNumber]
    omega
  rw [isLastMinuteOfMonth_eq_true_iff time small, ← length, ← day,
    isLastOfMonth_of_day ⟨first, last⟩ (by omega)]

end ContainerInit
