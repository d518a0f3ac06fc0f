import ContainerInit.Time.Calendar

/-!
# Moments in the form of RFC 3339

- **Reading** (`Moment.parse?`): `YYYY-MM-DD`, one separator of a single byte, `HH:MM:SS`, an
  optional fraction of at least one digit of which nine count, and `Z`, `z` or an offset. Only real
  days and times are moments. Second 60 is a leap second: it is accepted where universal time is
  at the last minute of a month, and is kept as the last nanosecond before it.
- **Writing** (`Moment.print`, `Moment.text`): `T` between date and time, no trailing zeros in the
  fraction and no fraction of zero, `Z` for offset zero.
-/

namespace ContainerInit

namespace Moment

/-! ## Reading -/

/-- The number that the first `n` characters spell, continuing `acc`, and the rest. -/
def readDigits? (acc : Nat) : Nat → List Char → Option (Nat × List Char)
  | 0, cs => some (acc, cs)
  | _ + 1, [] => none
  | n + 1, c :: cs =>
    if c.isDigit then readDigits? (acc * 10 + (c.toNat - '0'.toNat)) n cs else none

/-- What follows the character `c` at the start of a text. -/
def after? (c : Char) : List Char → Option (List Char)
  | [] => none
  | d :: cs => if d = c then some cs else none

/-- What follows a single byte at the start of a text. -/
def afterByte? : List Char → Option (List Char)
  | [] => none
  | d :: cs => if d.toNat < 0x80 then some cs else none

/-- Three numbers of the given lengths with the mark `c` between them. -/
def readTriple? (c : Char) (m n k : Nat) (cs : List Char) :
    Option ((Nat × Nat × Nat) × List Char) := do
  let (x, cs) ← readDigits? 0 m cs
  let cs ← after? c cs
  let (y, cs) ← readDigits? 0 n cs
  let cs ← after? c cs
  let (z, cs) ← readDigits? 0 k cs
  return ((x, y, z), cs)

/-- The nanoseconds that the digits of a fraction stand for, the first counting `place`. -/
def nanosOfDigits (place : Nat) : List Char → Nat
  | [] => 0
  | c :: cs => (c.toNat - '0'.toNat) * place + nanosOfDigits (place / 10) cs

/-- The nanoseconds of an optional fraction. -/
def readFraction? (cs : List Char) : Option (Nat × List Char) :=
  match cs with
  | '.' :: rest =>
    match rest.takeWhile Char.isDigit with
    | [] => none
    | digits => some (nanosOfDigits 100000000 digits, rest.dropWhile Char.isDigit)
  | _ => some (0, cs)

/-- An offset after its sign, in minutes: an hour to 23 and a minute to 59. -/
def readOffsetAfterSign? (sign : Int) (cs : List Char) : Option (Int × List Char) := do
  let (hour, cs) ← readDigits? 0 2 cs
  let cs ← after? ':' cs
  let (minute, cs) ← readDigits? 0 2 cs
  if hour < 24 ∧ minute < 60 then some (sign * (hour * 60 + minute : Nat), cs) else none

/-- An offset from universal time, in minutes. -/
def readOffset? : List Char → Option (Int × List Char)
  | 'Z' :: cs => some (0, cs)
  | 'z' :: cs => some (0, cs)
  | '+' :: cs => readOffsetAfterSign? 1 cs
  | '-' :: cs => readOffsetAfterSign? (-1) cs
  | _ => none

/-- The numbers of a written moment. -/
structure Written where
  date : Nat × Nat × Nat
  time : Nat × Nat × Nat
  nano : Nat
  offset : Int

/-- The numbers of a written moment, if the text has the form. -/
def Written.read? (cs : List Char) : Option Written := do
  let (date, cs) ← readTriple? '-' 4 2 2 cs
  let cs ← afterByte? cs
  let (time, cs) ← readTriple? ':' 2 2 2 cs
  let (nano, cs) ← readFraction? cs
  let (offset, cs) ← readOffset? cs
  if cs.isEmpty then some ⟨date, time, nano, offset⟩ else none

/-- Whether universal time is at the last minute of a month when a place with the given offset has
the given date, hour and minute. -/
def isLastMinuteOfMonth (date : Date) (hour minute : Nat) (offset : Int) : Bool :=
  let utc : Int := (hour * 60 + minute : Nat) - offset
  if utc < 0 then utc + 1440 == 1439 && date.day == 1
  else if utc < 1440 then utc == 1439 && date.isMonthEnd
  else utc - 1440 == 1439 && date.day + 1 == daysInMonth date.year date.month

/-- A moment from its parts, if the offset is one. -/
def of? (date : Date) (time : TimeOfDay) (offset : Int) : Option Moment :=
  if h : offset.natAbs < 1440 then some ⟨date, time, offset, h⟩ else none

/-- The moment that written numbers stand for. -/
def ofWritten? (w : Written) : Option Moment := do
  let (year, month, day) := w.date
  let (hour, minute, second) := w.time
  let date ← Date.of? year month day
  if second = 60 then
    let time ← TimeOfDay.of? hour minute 59 999999999
    if isLastMinuteOfMonth date hour minute w.offset then of? date time w.offset else none
  else
    let time ← TimeOfDay.of? hour minute second w.nano
    of? date time w.offset

/-- The moment that a text stands for. -/
def parse? (text : String) : Option Moment :=
  (Written.read? text.toList).bind ofWritten?

/-! ## Writing -/

/-- The last `n` decimal digits of a number. -/
def lastDigits : Nat → Nat → List Char
  | 0, _ => []
  | n + 1, k => lastDigits n (k / 10) ++ [Nat.digitChar (k % 10)]

/-- A text without the zeros at its end. -/
def dropLastZeros (cs : List Char) : List Char :=
  (cs.reverse.dropWhile (· == '0')).reverse

/-- The fraction of a second, with its point; nothing for zero. -/
def printFraction (nano : Nat) : List Char :=
  if nano = 0 then [] else '.' :: dropLastZeros (lastDigits 9 nano)

/-- An offset from universal time. -/
def printOffset (offset : Int) : List Char :=
  if offset = 0 then ['Z']
  else
    (if offset < 0 then '-' else '+') :: lastDigits 2 (offset.natAbs / 60) ++
      ':' :: lastDigits 2 (offset.natAbs % 60)

/-- The characters of a moment. -/
def print (m : Moment) : List Char :=
  lastDigits 4 m.date.year ++ '-' :: lastDigits 2 m.date.month ++ '-' :: lastDigits 2 m.date.day ++
    'T' :: lastDigits 2 m.time.hour ++ ':' :: lastDigits 2 m.time.minute ++
    ':' :: lastDigits 2 m.time.second ++ printFraction m.time.nano ++ printOffset m.offset

/-- The text of a moment. -/
def text (m : Moment) : String :=
  String.ofList m.print

end Moment

end ContainerInit
