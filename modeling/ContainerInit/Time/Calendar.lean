/-!
# Calendar dates and times

- **Dates** (`Date`): days of the Gregorian calendar in the years 0 to 9999; a value is always a
  real day. `Date.tomorrow` is the day after, except that the last day of all is its own successor.
- **Times of day** (`TimeOfDay`): to the nanosecond, without leap seconds.
- **Moments** (`Moment`): a date and a time of day as a clock shows them at a place, with that
  place's offset from universal time in minutes. `Moment.ofMillis` counts from the start of 1970.
-/

namespace ContainerInit

/-- A year with a 29th of February. -/
def isLeapYear (year : Nat) : Bool :=
  year % 4 == 0 && (year % 100 != 0 || year % 400 == 0)

/-- The number of days of a month; a number that is no month has none. -/
def daysInMonth (year month : Nat) : Nat :=
  match month with
  | 1 | 3 | 5 | 7 | 8 | 10 | 12 => 31
  | 4 | 6 | 9 | 11 => 30
  | 2 => if isLeapYear year then 29 else 28
  | _ => 0

/-- Whether the three numbers name a day of the years 0 to 9999. -/
def IsDay (year month day : Nat) : Prop :=
  year ≤ 9999 ∧ 1 ≤ day ∧ day ≤ daysInMonth year month

instance (year month day : Nat) : Decidable (IsDay year month day) :=
  inferInstanceAs (Decidable (_ ∧ _))

/-- A day of the years 0 to 9999. -/
structure Date where
  year : Nat
  month : Nat
  day : Nat
  isDay : IsDay year month day
  deriving DecidableEq

namespace Date

/-- The day with the given numbers, if there is one. -/
def of? (year month day : Nat) : Option Date :=
  if h : IsDay year month day then some ⟨year, month, day, h⟩ else none

/-- The start of 1970. -/
def epoch : Date := ⟨1970, 1, 1, by decide⟩

/-- The day after; the last day of all is its own successor. -/
def tomorrow (d : Date) : Date :=
  match of? d.year d.month (d.day + 1) with
  | some d' => d'
  | none =>
    match of? d.year (d.month + 1) 1 with
    | some d' => d'
    | none => (of? (d.year + 1) 1 1).getD d

/-- The day `n` days later. -/
def plusDays (d : Date) : Nat → Date
  | 0 => d
  | n + 1 => d.tomorrow.plusDays n

/-- The last day of its month. -/
def isMonthEnd (d : Date) : Bool :=
  d.day == daysInMonth d.year d.month

theorem of?_eq_some {d : Date} : of? d.year d.month d.day = some d := by
  simp [of?, d.isDay]

end Date

/-- Whether the numbers name a time of day. -/
def IsTimeOfDay (hour minute second nano : Nat) : Prop :=
  hour < 24 ∧ minute < 60 ∧ second < 60 ∧ nano < 1000000000

instance (hour minute second nano : Nat) : Decidable (IsTimeOfDay hour minute second nano) :=
  inferInstanceAs (Decidable (_ ∧ _))

/-- A time of day. -/
structure TimeOfDay where
  hour : Nat
  minute : Nat
  second : Nat
  nano : Nat
  isTime : IsTimeOfDay hour minute second nano
  deriving DecidableEq

/-- The time of day with the given numbers, if there is one. -/
def TimeOfDay.of? (hour minute second nano : Nat) : Option TimeOfDay :=
  if h : IsTimeOfDay hour minute second nano then some ⟨hour, minute, second, nano, h⟩ else none

theorem TimeOfDay.of?_eq_some {t : TimeOfDay} :
    of? t.hour t.minute t.second t.nano = some t := by
  simp [of?, t.isTime]

/-- A date and a time of day at a place, with the place's offset from universal time in minutes. -/
structure Moment where
  date : Date
  time : TimeOfDay
  offset : Int
  offset_lt : offset.natAbs < 1440
  deriving DecidableEq

/-- The moment `n` milliseconds after the start of 1970, in universal time. -/
def Moment.ofMillis (n : Nat) : Moment where
  date := Date.epoch.plusDays (n / 86400000)
  time :=
    { hour := n / 3600000 % 24
      minute := n / 60000 % 60
      second := n / 1000 % 60
      nano := n % 1000 * 1000000
      isTime := by unfold IsTimeOfDay; omega }
  offset := 0
  offset_lt := by decide

end ContainerInit
