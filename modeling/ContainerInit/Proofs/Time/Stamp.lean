import ContainerInit.Proofs.Time.Months
import ContainerInit.Proofs.Time.Rfc3339

/-!
# Which texts are moments, and which moments they are

- **Stamps** (`Stamp`): the numbers and the digits that a written moment shows, with the texts that
  show them (`Stamp.Shape`) and the instant of universal time that they name (`Stamp.instant`).
- **Reading** (`Stamp.read?_eq_some_iff`): a text is read exactly if it has the shape, and
  then as the numbers it shows; a fraction counts to its ninth digit (`nanosOfDigits_eq`).
- **Acceptance** (`Moment.parse?_isSome_iff`): a text is a moment exactly if its stamp is real
  (`Stamp.IsReal`): a day of the calendar, a time of day, and a leap second only where universal
  time is at the last minute of a month.
- **Meaning** (`Moment.parse?_keeps`): what is written back has the offset and the instant that the
  text has, a leap second being kept as the last nanosecond before it (`Stamp.kept`).
-/

namespace ContainerInit

/-! ## Stamps -/

/-- What a written moment shows: a date and a time of day at a place, the digits of the fraction of
the second, and the place's offset from universal time in minutes. -/
structure Stamp where
  year : Nat
  month : Nat
  day : Nat
  hour : Nat
  minute : Nat
  second : Nat
  fraction : List Char
  offset : Int

namespace Stamp

/-- A text of `n` digits that spell `k`. -/
def Spelled (n k : Nat) (ds : List Char) : Prop :=
  ds.length = n ∧ (∀ c ∈ ds, c.isDigit = true) ∧ Nat.ofDigitChars 10 ds 0 = k

/-- The texts of a fraction of a second: nothing, or a point and at least one digit. -/
inductive FractionText : List Char → List Char → Prop
  | none : FractionText [] []
  | digits {ds : List Char} (some : ds ≠ []) (digits : ∀ c ∈ ds, c.isDigit = true) :
    FractionText ds ('.' :: ds)

/-- The texts of an offset in minutes: a letter for none, or a sign, an hour to 23 and a minute to
59. -/
inductive OffsetText : Int → List Char → Prop
  | zulu {c : Char} (mark : c = 'Z' ∨ c = 'z') : OffsetText 0 [c]
  | ahead {h m : Nat} {hs ms : List Char} (hour : Spelled 2 h hs) (minute : Spelled 2 m ms)
    (small : h < 24 ∧ m < 60) : OffsetText (h * 60 + m : Nat) ('+' :: hs ++ ':' :: ms)
  | behind {h m : Nat} {hs ms : List Char} (hour : Spelled 2 h hs) (minute : Spelled 2 m ms)
    (small : h < 24 ∧ m < 60) : OffsetText (-(h * 60 + m : Nat)) ('-' :: hs ++ ':' :: ms)

/-- The texts that show a stamp: `YYYY-MM-DD`, any single byte, `HH:MM:SS`, the fraction and the
offset. -/
inductive Shape (s : Stamp) : List Char → Prop
  | mk {ys ms ds hs is ss fs os : List Char} {separator : Char} (year : Spelled 4 s.year ys)
    (month : Spelled 2 s.month ms) (day : Spelled 2 s.day ds) (byte : separator.utf8Size = 1)
    (hour : Spelled 2 s.hour hs) (minute : Spelled 2 s.minute is) (second : Spelled 2 s.second ss)
    (fraction : FractionText s.fraction fs) (offset : OffsetText s.offset os) :
    Shape s (ys ++ '-' :: ms ++ '-' :: ds ++ separator :: hs ++ ':' :: is ++ ':' :: ss ++ fs ++ os)

/-- The nanoseconds of the fraction; what is less than one of them is dropped. -/
def nano (s : Stamp) : Nat :=
  Nat.ofDigitChars 10 s.fraction 0 * 10 ^ 9 / 10 ^ s.fraction.length

/-- The minute of universal time, counted from the start of year 0. -/
def utc (s : Stamp) : Int :=
  utcMinute s.year s.month s.day s.hour s.minute s.offset

/-- The nanosecond of universal time, counted from the start of year 0. -/
def instant (s : Stamp) : Int :=
  (s.utc * 60 + s.second) * 1000000000 + s.nano

/-- A stamp of a day of the years 0 to 9999 and of a time of day. Second 60 is a leap second, and
has its place at the end of a month. -/
structure IsReal (s : Stamp) : Prop where
  isDay : IsDay s.year s.month s.day
  time : s.hour < 24 ∧ s.minute < 60 ∧ s.second ≤ 60
  leap : s.second = 60 → IsLastOfMonth s.utc

/-- The stamp that is kept of a stamp: a leap second becomes the last nanosecond before it. -/
def kept (s : Stamp) : Stamp :=
  if s.second = 60 then { s with second := 59, fraction := List.replicate 9 '9' } else s

end Stamp

namespace Moment

open Stamp

variable {cs rest : List Char}

/-! ## Digits -/

theorem readDigits?_eq_some_iff {acc n k : Nat} :
    readDigits? acc n cs = some (k, rest) ↔ ∃ ds, cs = ds ++ rest ∧ ds.length = n ∧
      (∀ c ∈ ds, c.isDigit = true) ∧ Nat.ofDigitChars 10 ds acc = k := by
  induction n generalizing acc cs with
  | zero =>
    simp only [readDigits?, List.length_eq_zero_iff, Option.some.injEq, Prod.mk.injEq]
    constructor
    · rintro ⟨rfl, rfl⟩
      exact ⟨[], rfl, rfl, List.forall_mem_nil _, rfl⟩
    · rintro ⟨_, rfl, rfl, -, rfl⟩
      exact ⟨rfl, rfl⟩
  | succ n ih =>
    cases cs with
    | nil =>
      refine ⟨fun read => (by cases read), ?_⟩
      rintro ⟨ds, split, length, -⟩
      obtain ⟨rfl, -⟩ := List.append_eq_nil_iff.1 split.symm
      cases length
    | cons c cs =>
      rw [readDigits?]
      constructor
      · intro read
        split at read
        · rename_i digit
          obtain ⟨ds, rfl, length, digits, value⟩ := ih.1 read
          refine ⟨c :: ds, rfl, congrArg (· + 1) length, List.forall_mem_cons.2 ⟨digit, digits⟩, ?_⟩
          rwa [Nat.ofDigitChars_cons, Nat.mul_comm]
        · cases read
      · rintro ⟨ds, split, length, digits, value⟩
        cases ds with
        | nil => cases length
        | cons d ds =>
          obtain ⟨rfl, rfl⟩ := List.cons.inj split
          obtain ⟨digit, digits⟩ := List.forall_mem_cons.1 digits
          rw [if_pos digit]
          rw [Nat.ofDigitChars_cons, Nat.mul_comm] at value
          exact ih.2 ⟨ds, rfl, Nat.succ.inj length, digits, value⟩

/-- **A number is read exactly from digits that spell it.** -/
theorem readNumber?_eq_some_iff {n k : Nat} :
    readDigits? 0 n cs = some (k, rest) ↔ ∃ ds, cs = ds ++ rest ∧ Spelled n k ds :=
  readDigits?_eq_some_iff

theorem after?_eq_some_iff {c : Char} : after? c cs = some rest ↔ cs = c :: rest := by
  cases cs with
  | nil => simp [after?]
  | cons d cs =>
    rw [after?]
    split
    · subst d
      simp
    · rename_i other
      refine ⟨fun read => (by cases read), ?_⟩
      rintro ⟨⟩
      exact absurd rfl other

theorem utf8Size_eq_one_iff_toNat {c : Char} : c.utf8Size = 1 ↔ c.toNat < 0x80 := by
  rw [Char.utf8Size_eq_one_iff, UInt32.le_iff_toNat_le]
  exact Nat.lt_succ_iff.symm

theorem afterByte?_eq_some_iff :
    afterByte? cs = some rest ↔ ∃ c : Char, c.utf8Size = 1 ∧ cs = c :: rest := by
  cases cs with
  | nil =>
    refine ⟨fun read => (by cases read), ?_⟩
    rintro ⟨c, -, ⟨⟩⟩
  | cons d cs =>
    rw [afterByte?]
    split
    · rename_i small
      constructor
      · rintro ⟨⟩
        exact ⟨d, utf8Size_eq_one_iff_toNat.2 small, rfl⟩
      · rintro ⟨_, -, ⟨⟩⟩
        rfl
    · rename_i large
      refine ⟨fun read => (by cases read), ?_⟩
      rintro ⟨c, size, ⟨⟩⟩
      exact absurd (utf8Size_eq_one_iff_toNat.1 size) large

theorem readTriple?_eq_some_iff {c : Char} {m n k x y z : Nat} :
    readTriple? c m n k cs = some ((x, y, z), rest) ↔ ∃ xs ys zs,
      cs = xs ++ c :: (ys ++ c :: (zs ++ rest)) ∧
        Spelled m x xs ∧ Spelled n y ys ∧ Spelled k z zs := by
  simp only [readTriple?, Option.bind_eq_bind, Option.bind_eq_some_iff, Prod.exists,
    readNumber?_eq_some_iff, after?_eq_some_iff, pure, Option.some.injEq, Prod.mk.injEq]
  constructor
  · rintro ⟨_, _, ⟨xs, rfl, first⟩, _, rfl, _, _, ⟨ys, rfl, second⟩, _, rfl, _, _,
      ⟨zs, rfl, third⟩, ⟨rfl, rfl, rfl⟩, rfl⟩
    exact ⟨xs, ys, zs, rfl, first, second, third⟩
  · rintro ⟨xs, ys, zs, rfl, first, second, third⟩
    exact ⟨_, _, ⟨xs, rfl, first⟩, _, rfl, _, _, ⟨ys, rfl, second⟩, _, rfl, _, _,
      ⟨zs, rfl, third⟩, ⟨rfl, rfl, rfl⟩, rfl⟩

/-! ## Fractions -/

theorem ofDigitChars_lt {ds : List Char} (digits : ∀ c ∈ ds, c.isDigit = true) :
    Nat.ofDigitChars 10 ds 0 < 10 ^ ds.length := by
  induction ds with
  | nil => decide
  | cons d ds ih =>
    obtain ⟨digit, digits⟩ := List.forall_mem_cons.1 digits
    have small : d.toNat - '0'.toNat < 10 := by
      have last := (Char.isDigit_iff_toNat.1 digit).2
      have nine : '9'.toNat = 57 := rfl
      show d.toNat - 48 < 10
      omega
    have lead : (d.toNat - '0'.toNat) * 10 ^ ds.length ≤ 9 * 10 ^ ds.length :=
      Nat.mul_le_mul_right _ (Nat.le_of_lt_succ small)
    have rest := ih digits
    rw [Nat.ofDigitChars_cons, Nat.ofDigitChars_eq_ofDigitChars_zero, List.length_cons, Nat.pow_succ]
    rw [Nat.mul_zero, Nat.zero_add, Nat.mul_comm]
    omega

/-- A fraction counts as far as its places go: what is less than one of the last place is
dropped. -/
theorem nanosOfDigits_pow {ds : List Char} (digits : ∀ c ∈ ds, c.isDigit = true) (places : Nat) :
    nanosOfDigits (10 ^ places / 10) ds =
      Nat.ofDigitChars 10 ds 0 * 10 ^ places / 10 ^ ds.length := by
  induction ds generalizing places with
  | nil => simp [nanosOfDigits]
  | cons d ds ih =>
    have value : Nat.ofDigitChars 10 (d :: ds) 0 =
        (d.toNat - '0'.toNat) * 10 ^ ds.length + Nat.ofDigitChars 10 ds 0 := by
      rw [Nat.ofDigitChars_cons, Nat.ofDigitChars_eq_ofDigitChars_zero, Nat.mul_zero, Nat.zero_add,
        Nat.mul_comm]
    have more := (List.forall_mem_cons.1 digits).2
    cases places with
    | zero =>
      have none := ih more 0
      have small := ofDigitChars_lt digits
      rw [Nat.pow_zero, Nat.mul_one] at none ⊢
      rw [Nat.div_eq_of_lt (ofDigitChars_lt more)] at none
      rw [Nat.div_eq_of_lt small, nanosOfDigits]
      simpa using none
    | succ places =>
      have place : 10 ^ (places + 1) / 10 = 10 ^ places := by
        rw [Nat.pow_succ, Nat.mul_div_cancel _ (by decide)]
      have positive : 0 < 10 ^ ds.length := Nat.pow_pos (by decide)
      rw [place, nanosOfDigits, ih more, value, List.length_cons, Nat.pow_succ, Nat.pow_succ,
        ← Nat.mul_assoc, Nat.mul_div_mul_right _ _ (by decide), Nat.add_mul,
        Nat.mul_right_comm, Nat.add_comm (_ * _ * _), Nat.add_mul_div_right _ _ positive,
        Nat.add_comm]

/-- **A fraction counts to its ninth digit.** -/
theorem nanosOfDigits_eq {ds : List Char} (digits : ∀ c ∈ ds, c.isDigit = true) :
    nanosOfDigits 100000000 ds = Nat.ofDigitChars 10 ds 0 * 10 ^ 9 / 10 ^ ds.length :=
  nanosOfDigits_pow digits 9

theorem readFraction?_eq_some {nano : Nat} (read : readFraction? cs = some (nano, rest)) :
    ∃ ds fs, cs = fs ++ rest ∧ FractionText ds fs ∧ nanosOfDigits 100000000 ds = nano := by
  unfold readFraction? at read
  split at read
  · rename_i text
    split at read
    · cases read
    · rename_i some
      cases read
      refine ⟨_, '.' :: text.takeWhile Char.isDigit, ?_, .digits ?_ ?_, rfl⟩
      · rw [List.cons_append, List.takeWhile_append_dropWhile]
      · exact some
      · exact List.all_eq_true.1 List.all_takeWhile
  · cases read
    exact ⟨[], [], rfl, .none, rfl⟩

/-- A fraction is read to its last digit, where neither a digit nor a point follows. -/
theorem readFraction?_append {ds fs : List Char} {c : Char} (text : FractionText ds fs)
    (mark : c.isDigit = false ∧ c ≠ '.') :
    readFraction? (fs ++ c :: cs) = some (nanosOfDigits 100000000 ds, c :: cs) := by
  cases text with
  | none =>
    rw [List.nil_append, readFraction?]
    · rfl
    · rintro _ ⟨⟩
      exact mark.2 rfl
  | digits some digits =>
    have front : (ds ++ c :: cs).takeWhile Char.isDigit = ds := by
      rw [List.takeWhile_append_of_pos digits, List.takeWhile_cons_of_neg (by simp [mark.1]),
        List.append_nil]
    have back : (ds ++ c :: cs).dropWhile Char.isDigit = c :: cs := by
      rw [List.dropWhile_append_of_pos digits, List.dropWhile_cons_of_neg (by simp [mark.1])]
    rw [List.cons_append, readFraction?, front, back]
    cases ds with
    | nil => exact absurd rfl some
    | cons d ds => rfl

/-! ## Offsets -/

theorem readOffsetAfterSign?_eq_some_iff {sign offset : Int} :
    readOffsetAfterSign? sign cs = some (offset, rest) ↔ ∃ h m hs ms,
      cs = hs ++ ':' :: (ms ++ rest) ∧ Spelled 2 h hs ∧ Spelled 2 m ms ∧ (h < 24 ∧ m < 60) ∧
        sign * (h * 60 + m : Nat) = offset := by
  simp only [readOffsetAfterSign?, Option.bind_eq_bind, Option.bind_eq_some_iff, Prod.exists,
    readNumber?_eq_some_iff, after?_eq_some_iff, Option.ite_none_right_eq_some, Option.some.injEq,
    Prod.mk.injEq]
  constructor
  · rintro ⟨h, _, ⟨hs, rfl, hour⟩, _, rfl, m, _, ⟨ms, rfl, minute⟩, small, value, rfl⟩
    exact ⟨h, m, hs, ms, rfl, hour, minute, small, value⟩
  · rintro ⟨h, m, hs, ms, rfl, hour, minute, small, value⟩
    exact ⟨h, _, ⟨hs, rfl, hour⟩, _, rfl, m, _, ⟨ms, rfl, minute⟩, small, value, rfl⟩

/-- **An offset is read exactly from its texts.** -/
theorem readOffset?_eq_some_iff {offset : Int} :
    readOffset? cs = some (offset, rest) ↔ ∃ os, cs = os ++ rest ∧ OffsetText offset os := by
  constructor
  · intro read
    unfold readOffset? at read
    split at read
    · cases read
      exact ⟨['Z'], rfl, .zulu (.inl rfl)⟩
    · cases read
      exact ⟨['z'], rfl, .zulu (.inr rfl)⟩
    · obtain ⟨h, m, hs, ms, rfl, hour, minute, small, rfl⟩ :=
        readOffsetAfterSign?_eq_some_iff.1 read
      refine ⟨'+' :: hs ++ ':' :: ms, by simp, ?_⟩
      rw [Int.one_mul]
      exact .ahead hour minute small
    · obtain ⟨h, m, hs, ms, rfl, hour, minute, small, rfl⟩ :=
        readOffsetAfterSign?_eq_some_iff.1 read
      refine ⟨'-' :: hs ++ ':' :: ms, by simp, ?_⟩
      rw [Int.neg_one_mul]
      exact .behind hour minute small
    · cases read
  · rintro ⟨os, rfl, text⟩
    cases text with
    | zulu mark => rcases mark with rfl | rfl <;> rfl
    | @ahead h m hs ms hour minute small =>
      show readOffsetAfterSign? 1 ((hs ++ ':' :: ms) ++ rest) = _
      exact readOffsetAfterSign?_eq_some_iff.2
        ⟨h, m, hs, ms, by simp, hour, minute, small, Int.one_mul _⟩
    | @behind h m hs ms hour minute small =>
      show readOffsetAfterSign? (-1) ((hs ++ ':' :: ms) ++ rest) = _
      exact readOffsetAfterSign?_eq_some_iff.2
        ⟨h, m, hs, ms, by simp, hour, minute, small, Int.neg_one_mul _⟩

end Moment

namespace Stamp

theorem OffsetText.head {offset : Int} {os : List Char} (text : OffsetText offset os) :
    ∃ c cs, os = c :: cs ∧ c.isDigit = false ∧ c ≠ '.' := by
  cases text with
  | zulu mark => rcases mark with rfl | rfl <;> exact ⟨_, _, rfl, by decide⟩
  | ahead => exact ⟨_, _, rfl, by decide⟩
  | behind => exact ⟨_, _, rfl, by decide⟩

theorem OffsetText.natAbs_lt {offset : Int} {os : List Char} (text : OffsetText offset os) :
    offset.natAbs < 1440 := by
  cases text with
  | zulu => decide
  | ahead _ _ small => omega
  | behind _ _ small => omega

theorem FractionText.isDigit {ds fs : List Char} (text : FractionText ds fs) :
    ∀ c ∈ ds, c.isDigit = true := by
  cases text with
  | none => exact nofun
  | digits _ digits => exact digits

/-- The numbers that a stamp shows. -/
def written (s : Stamp) : Moment.Written :=
  ⟨(s.year, s.month, s.day), (s.hour, s.minute, s.second), s.nano, s.offset⟩

variable {s : Stamp} {cs : List Char}

theorem Shape.offset_lt (shape : s.Shape cs) : s.offset.natAbs < 1440 := by
  cases shape with
  | mk _ _ _ _ _ _ _ _ offset => exact offset.natAbs_lt

/-- **A text is read exactly if it shows a stamp,** and then as the numbers of the stamp. -/
theorem read?_eq_some_iff {w : Moment.Written} :
    Moment.Written.read? cs = some w ↔ ∃ s : Stamp, s.Shape cs ∧ s.written = w := by
  simp only [Moment.Written.read?, Option.bind_eq_bind, Option.bind_eq_some_iff, Prod.exists,
    Moment.readTriple?_eq_some_iff, Moment.afterByte?_eq_some_iff, Moment.readOffset?_eq_some_iff,
    Option.ite_none_right_eq_some, Option.some.injEq, List.isEmpty_iff]
  constructor
  · rintro ⟨year, month, day, _, ⟨ys, ms, ds, rfl, hyear, hmonth, hday⟩, _, ⟨c, byte, rfl⟩, hour,
      minute, second, _, ⟨hs, is, ss, rfl, hhour, hminute, hsecond⟩, nano, _, fraction, offset, _,
      ⟨os, rfl, hoffset⟩, rfl, rfl⟩
    obtain ⟨digits, fs, rfl, hfraction, rfl⟩ := Moment.readFraction?_eq_some fraction
    refine ⟨⟨year, month, day, hour, minute, second, digits, offset⟩, ?_, ?_⟩
    · have shape := Shape.mk hyear hmonth hday byte hhour hminute hsecond hfraction hoffset
        (s := ⟨year, month, day, hour, minute, second, digits, offset⟩)
      simpa using shape
    · rw [written, nano, Moment.nanosOfDigits_eq hfraction.isDigit]
  · rintro ⟨s, shape, rfl⟩
    cases shape with
    | @mk ys ms ds hs is ss fs os c year month day byte hour minute second fraction offset =>
      obtain ⟨mark, rest, rfl, other⟩ := offset.head
      refine ⟨_, _, _, _, ⟨ys, ms, ds, ?_, year, month, day⟩, _, ⟨c, byte, rfl⟩, _, _, _, _,
        ⟨hs, is, ss, rfl, hour, minute, second⟩, _, _, Moment.readFraction?_append fraction other,
        _, _, ⟨_, (List.append_nil _).symm, offset⟩, rfl, ?_⟩
      · simp
      · rw [written, nano, Moment.nanosOfDigits_eq fraction.isDigit]

theorem FractionText.nano_lt {fs : List Char} (text : FractionText s.fraction fs) :
    s.nano < 1000000000 := by
  refine Nat.div_lt_of_lt_mul (Nat.mul_lt_mul_of_pos_right ?_ (by decide))
  exact Moment.ofDigitChars_lt text.isDigit

theorem Shape.nano_lt (shape : s.Shape cs) : s.nano < 1000000000 := by
  cases shape with
  | mk _ _ _ _ _ _ _ fraction => exact fraction.nano_lt

theorem kept_written_of_ne (regular : s.second ≠ 60) : s.kept.written = s.written := by
  rw [kept, if_neg regular]

theorem kept_written_of_eq (leap : s.second = 60) : s.kept.written =
    ⟨(s.year, s.month, s.day), (s.hour, s.minute, 59), 999999999, s.offset⟩ := by
  have nines : Nat.ofDigitChars 10 (List.replicate 9 '9') 0 * 10 ^ 9 /
      10 ^ (List.replicate 9 '9').length = 999999999 := by decide
  rw [kept, if_pos leap, written, nano]
  exact congrArg (Moment.Written.mk _ _ · _) nines

/-- An instant is told by the numbers that are shown. -/
theorem instant_eq {s t : Stamp} (same : s.written = t.written) : s.instant = t.instant := by
  simp only [written, Moment.Written.mk.injEq, Prod.mk.injEq] at same
  obtain ⟨⟨year, month, day⟩, ⟨hour, minute, second⟩, nano, offset⟩ := same
  rw [instant, instant, utc, utc, year, month, day, hour, minute, second, nano, offset]

end Stamp

/-! ## Moments -/

theorem Date.of?_eq_some_iff {year month day : Nat} {d : Date} :
    Date.of? year month day = some d ↔ d.year = year ∧ d.month = month ∧ d.day = day := by
  constructor
  · intro found
    unfold Date.of? at found
    split at found
    · cases found
      exact ⟨rfl, rfl, rfl⟩
    · cases found
  · rintro ⟨rfl, rfl, rfl⟩
    exact Date.of?_eq_some

theorem TimeOfDay.of?_eq_some_iff {hour minute second nano : Nat} {t : TimeOfDay} :
    TimeOfDay.of? hour minute second nano = some t ↔
      t.hour = hour ∧ t.minute = minute ∧ t.second = second ∧ t.nano = nano := by
  constructor
  · intro found
    unfold TimeOfDay.of? at found
    split at found
    · cases found
      exact ⟨rfl, rfl, rfl, rfl⟩
    · cases found
  · rintro ⟨rfl, rfl, rfl, rfl⟩
    exact TimeOfDay.of?_eq_some

namespace Moment

variable {m : Moment} {s : Stamp}

theorem of?_eq_some_iff {date : Date} {time : TimeOfDay} {offset : Int} :
    of? date time offset = some m ↔ m.date = date ∧ m.time = time ∧ m.offset = offset := by
  constructor
  · intro found
    unfold of? at found
    split at found
    · cases found
      exact ⟨rfl, rfl, rfl⟩
    · cases found
  · rintro ⟨rfl, rfl, rfl⟩
    exact dif_pos m.offset_lt

/-- The numbers of a moment. -/
def written (m : Moment) : Written :=
  ⟨(m.date.year, m.date.month, m.date.day), (m.time.hour, m.time.minute, m.time.second),
    m.time.nano, m.offset⟩

theorem written_eq_iff {year month day hour minute second nano : Nat} {offset : Int} :
    m.written = ⟨(year, month, day), (hour, minute, second), nano, offset⟩ ↔
      (m.date.year = year ∧ m.date.month = month ∧ m.date.day = day) ∧
      (m.time.hour = hour ∧ m.time.minute = minute ∧ m.time.second = second ∧
        m.time.nano = nano) ∧ m.offset = offset := by
  simp only [written, Written.mk.injEq, Prod.mk.injEq, and_assoc]

/-- A second of the clock is kept. -/
theorem ofWritten?_regular {year month day hour minute second nano : Nat} {offset : Int}
    (regular : second ≠ 60) :
    ofWritten? ⟨(year, month, day), (hour, minute, second), nano, offset⟩ = some m ↔
      m.written = ⟨(year, month, day), (hour, minute, second), nano, offset⟩ := by
  simp only [ofWritten?, if_neg regular, Option.bind_eq_bind, Option.bind_eq_some_iff,
    Date.of?_eq_some_iff, TimeOfDay.of?_eq_some_iff, of?_eq_some_iff, written_eq_iff]
  constructor
  · rintro ⟨_, date, _, time, rfl, rfl, same⟩
    exact ⟨date, time, same⟩
  · rintro ⟨date, time, same⟩
    exact ⟨_, date, _, time, rfl, rfl, same⟩

/-- A leap second is kept as the last nanosecond before it, where a month ends. -/
theorem ofWritten?_leap {year month day hour minute nano : Nat} {offset : Int} :
    ofWritten? ⟨(year, month, day), (hour, minute, 60), nano, offset⟩ = some m ↔
      isLastMinuteOfMonth m.date hour minute offset = true ∧
        m.written = ⟨(year, month, day), (hour, minute, 59), 999999999, offset⟩ := by
  simp only [ofWritten?, if_true, Option.bind_eq_bind, Option.bind_eq_some_iff,
    Date.of?_eq_some_iff, TimeOfDay.of?_eq_some_iff, Option.ite_none_right_eq_some, of?_eq_some_iff,
    written_eq_iff]
  constructor
  · rintro ⟨_, date, _, time, last, rfl, rfl, same⟩
    exact ⟨last, date, time, same⟩
  · rintro ⟨last, date, time, same⟩
    exact ⟨_, date, _, time, last, rfl, rfl, same⟩

theorem isDay_of_written {year month day nano : Nat} {time : Nat × Nat × Nat} {offset : Int}
    (same : m.written = ⟨(year, month, day), time, nano, offset⟩) : IsDay year month day := by
  cases same
  exact m.date.isDay

/-- **Numbers are a moment exactly if they are real,** and then they are kept. -/
theorem ofWritten?_eq_some_iff {cs : List Char} (shape : s.Shape cs) :
    ofWritten? s.written = some m ↔ s.IsReal ∧ m.written = s.kept.written := by
  obtain ⟨hour, minute, second, -⟩ := m.time.isTime
  by_cases leap : s.second = 60
  · rw [Stamp.kept_written_of_eq leap, Stamp.written, leap, ofWritten?_leap]
    refine and_congr_left fun same => ?_
    obtain ⟨⟨year, month, day⟩, ⟨hour, minute, -⟩, -⟩ := written_eq_iff.1 same
    rw [isLastMinuteOfMonth_iff _ (by omega) shape.offset_lt, year, month, day]
    exact ⟨fun last => ⟨isDay_of_written same, by omega, fun _ => last⟩, fun real => real.leap leap⟩
  · rw [Stamp.kept_written_of_ne leap, Stamp.written, ofWritten?_regular leap]
    refine ⟨fun same => ⟨⟨isDay_of_written same, ?_, fun is => absurd is leap⟩, same⟩, And.right⟩
    obtain ⟨-, ⟨hour, minute, second, -⟩, -⟩ := written_eq_iff.1 same
    omega

/-- The moment with the numbers that are kept of a real stamp. -/
theorem exists_written {cs : List Char} (shape : s.Shape cs) (real : s.IsReal) :
    ∃ m : Moment, m.written = s.kept.written := by
  have nano := shape.nano_lt
  obtain ⟨hour, minute, second⟩ := real.time
  by_cases leap : s.second = 60
  · rw [Stamp.kept_written_of_eq leap]
    exact ⟨⟨⟨_, _, _, real.isDay⟩, ⟨_, _, _, _, hour, minute, by omega, by omega⟩, _,
      shape.offset_lt⟩, rfl⟩
  · rw [Stamp.kept_written_of_ne leap]
    exact ⟨⟨⟨_, _, _, real.isDay⟩, ⟨_, _, _, _, hour, minute, Nat.lt_of_le_of_ne second leap, nano⟩, _,
      shape.offset_lt⟩, rfl⟩

/-- A text that shows a stamp is a moment if the stamp is real, and is then what is kept of it. -/
theorem parse?_eq_some_iff {text : String} (shape : s.Shape text.toList) :
    parse? text = some m ↔ s.IsReal ∧ m.written = s.kept.written := by
  rw [parse?, Stamp.read?_eq_some_iff.2 ⟨s, shape, rfl⟩]
  exact ofWritten?_eq_some_iff shape

/-- **A text is a moment exactly if it shows a real stamp.** -/
theorem parse?_isSome_iff {text : String} :
    (parse? text).isSome = true ↔ ∃ s : Stamp, s.Shape text.toList ∧ s.IsReal := by
  constructor
  · intro parsed
    obtain ⟨m, parsed⟩ := Option.isSome_iff_exists.1 parsed
    obtain ⟨_, read, -⟩ := Option.bind_eq_some_iff.1 parsed
    obtain ⟨s, shape, -⟩ := Stamp.read?_eq_some_iff.1 read
    exact ⟨s, shape, ((parse?_eq_some_iff shape).1 parsed).1⟩
  · rintro ⟨s, shape, real⟩
    obtain ⟨m, same⟩ := exists_written shape real
    rw [(parse?_eq_some_iff shape).2 ⟨real, same⟩]
    rfl

/-- What is written of a moment shows its numbers. -/
theorem written_of_shape (shape : s.Shape m.text.toList) : s.written = m.written := by
  have read := read?_print m
  rw [text, String.toList_ofList] at shape
  rw [Stamp.read?_eq_some_iff.2 ⟨s, shape, rfl⟩] at read
  exact Option.some.inj read

/-- **A moment is written back as it was meant:** with the offset of the text that it was read from,
and as the instant that is kept of it. -/
theorem parse?_keeps {text : String} (parsed : parse? text = some m) {t : Stamp}
    (read : s.Shape text.toList) (back : t.Shape m.text.toList) :
    t.offset = s.offset ∧ t.instant = s.kept.instant := by
  have same : t.written = s.kept.written :=
    (written_of_shape back).trans ((parse?_eq_some_iff read).1 parsed).2
  have offset : s.kept.offset = s.offset := by
    unfold Stamp.kept
    split <;> rfl
  exact ⟨(congrArg Written.offset same).trans offset, Stamp.instant_eq same⟩

end Moment

end ContainerInit
