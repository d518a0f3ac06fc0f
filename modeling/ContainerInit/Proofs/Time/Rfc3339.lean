import ContainerInit.Time.Rfc3339
import Mathlib.Algebra.Group.Nat.Defs

/-!
# A moment is read as it was written

- **Digits** (`readDigits?_lastDigits`): a number with leading zeros is read as far as its digits
  go.
- **Fractions** (`nanosOfDigits_lastDigits`, `readFraction?_print`): the zeros that are left out at
  the end of a fraction stand for nothing; a fraction that is written is not empty.
- **Offsets** (`readOffset?_print`): every whole minute below a day, on either side.
- **Moments** (`parse?_text`): the parts of a moment are found again, and they are a moment.
-/

namespace ContainerInit.Moment

variable {rest : List Char}

/-! ## Digits -/

theorem digitChar_isDigit : ∀ d < 10, (Nat.digitChar d).isDigit = true := by
  decide

theorem digitChar_value : ∀ d < 10, (Nat.digitChar d).toNat - '0'.toNat = d := by
  decide

/-- The last digit and the digits before it. -/
theorem mod_pow_succ (k n : Nat) : k % 10 ^ (n + 1) = k % 10 + 10 * (k / 10 % 10 ^ n) := by
  rw [Nat.pow_succ', Nat.mod_mul]

/-- Digits are read one after the other. -/
theorem readDigits?_add (acc m n : Nat) (cs : List Char) :
    readDigits? acc (m + n) cs =
      (readDigits? acc m cs).bind fun parts => readDigits? parts.1 n parts.2 := by
  induction m generalizing acc cs with
  | zero => rw [Nat.zero_add]; rfl
  | succ m ih =>
    rw [Nat.add_right_comm]
    cases cs with
    | nil => rfl
    | cons c cs =>
      simp only [readDigits?]
      split
      · exact ih _ _
      · rfl

/-- **A number with leading zeros is read as it was written.** -/
theorem readDigits?_lastDigits (acc n k : Nat) :
    readDigits? acc n (lastDigits n k ++ rest) = some (acc * 10 ^ n + k % 10 ^ n, rest) := by
  induction n generalizing k rest with
  | zero => simp [readDigits?, lastDigits, Nat.mod_one]
  | succ n ih =>
    have digit := Nat.mod_lt k (show 10 > 0 by decide)
    rw [lastDigits, List.append_assoc, readDigits?_add acc n 1, ih (k / 10), mod_pow_succ,
      Nat.pow_succ]
    simp only [Option.bind_some, List.singleton_append, readDigits?, digitChar_isDigit _ digit,
      if_true, digitChar_value _ digit, Option.some.injEq, Prod.mk.injEq, and_true]
    rw [Nat.add_mul, Nat.mul_assoc]
    omega

theorem readDigits?_of_lt {n k : Nat} (small : k < 10 ^ n) :
    readDigits? 0 n (lastDigits n k ++ rest) = some (k, rest) := by
  rw [readDigits?_lastDigits, Nat.zero_mul, Nat.zero_add, Nat.mod_eq_of_lt small]

theorem isDigit_lastDigits (n k : Nat) : ∀ c ∈ lastDigits n k, c.isDigit = true := by
  induction n generalizing k with
  | zero => nofun
  | succ n ih =>
    intro c hc
    rcases List.mem_append.1 hc with hc | hc
    · exact ih _ c hc
    · rw [List.mem_singleton.1 hc]
      exact digitChar_isDigit _ (Nat.mod_lt k (by decide))

/-- Three numbers are read as they were written. -/
theorem readTriple?_print {c : Char} {m n k x y z : Nat} (hx : x < 10 ^ m) (hy : y < 10 ^ n)
    (hz : z < 10 ^ k) :
    readTriple? c m n k (lastDigits m x ++ c :: (lastDigits n y ++ c :: (lastDigits k z ++ rest))) =
      some ((x, y, z), rest) := by
  have mark (cs : List Char) : after? c (c :: cs) = some cs := if_pos rfl
  simp only [readTriple?, readDigits?_of_lt hx, readDigits?_of_lt hy, readDigits?_of_lt hz, mark,
    Option.bind_eq_bind, Option.bind_some, pure]

/-! ## Fractions -/

theorem nanosOfDigits_append (place : Nat) (as bs : List Char) :
    nanosOfDigits place (as ++ bs) =
      nanosOfDigits place as + nanosOfDigits (place / 10 ^ as.length) bs := by
  induction as generalizing place with
  | nil => simp [nanosOfDigits]
  | cons a as ih =>
    rw [List.cons_append, nanosOfDigits, nanosOfDigits, ih, List.length_cons, Nat.pow_succ',
      Nat.div_div_eq_div_mul, Nat.add_assoc]

theorem length_lastDigits (n k : Nat) : (lastDigits n k).length = n := by
  induction n generalizing k with
  | zero => rfl
  | succ n ih => rw [lastDigits, List.length_append, ih]; rfl

/-- Digits count as far as their places go. -/
theorem nanosOfDigits_lastDigits {place n j : Nat} (k : Nat) (first : 10 * place = 10 ^ (n + j)) :
    nanosOfDigits place (lastDigits n k) = k % 10 ^ n * 10 ^ j := by
  induction n generalizing k j with
  | zero => simp [lastDigits, nanosOfDigits, Nat.mod_one]
  | succ n ih =>
    have last : place / 10 ^ n = 10 ^ j := by
      have tenfold : 10 * place = 10 * (10 ^ n * 10 ^ j) := by
        rw [first, ← Nat.pow_add, ← Nat.pow_succ', Nat.add_right_comm]
      rw [Nat.eq_of_mul_eq_mul_left (by decide) tenfold,
        Nat.mul_div_cancel_left _ (Nat.pow_pos (by decide))]
    -- The last digit is split off at the end, so those in front of it count one place more.
    have front := ih (k / 10) (j := j + 1) (by rw [first, Nat.add_right_comm, Nat.add_assoc])
    rw [lastDigits, nanosOfDigits_append, length_lastDigits, last, front, nanosOfDigits,
      nanosOfDigits, digitChar_value _ (Nat.mod_lt k (by decide)), mod_pow_succ, Nat.pow_succ,
      Nat.add_mul, ← Nat.mul_assoc, Nat.mul_assoc 10]
    omega

/-- Zeros stand for nothing. -/
theorem nanosOfDigits_zeros {place : Nat} {cs : List Char} (zeros : ∀ c ∈ cs, c = '0') :
    nanosOfDigits place cs = 0 := by
  induction cs generalizing place with
  | nil => rfl
  | cons c cs ih =>
    rw [nanosOfDigits, zeros c List.mem_cons_self, ih fun d hd => zeros d (List.mem_cons_of_mem _ hd)]
    simp

theorem dropLastZeros_append (cs : List Char) :
    ∃ zeros, dropLastZeros cs ++ zeros = cs ∧ ∀ c ∈ zeros, c = '0' := by
  refine ⟨(cs.reverse.takeWhile (· == '0')).reverse, ?_, ?_⟩
  · rw [dropLastZeros, ← List.reverse_append, List.takeWhile_append_dropWhile, List.reverse_reverse]
  · intro c hc
    simpa using List.all_eq_true.1 List.all_takeWhile c (List.mem_reverse.1 hc)

theorem nanosOfDigits_dropLastZeros (place : Nat) (cs : List Char) :
    nanosOfDigits place (dropLastZeros cs) = nanosOfDigits place cs := by
  obtain ⟨zeros, append, zero⟩ := dropLastZeros_append cs
  have whole := congrArg (nanosOfDigits place) append
  rwa [nanosOfDigits_append, nanosOfDigits_zeros zero, Nat.add_zero] at whole

/-- **A fraction is read as it was written,** where neither a digit nor a point can follow. -/
theorem readFraction?_print {nano : Nat} {c : Char} {cs : List Char} (small : nano < 1000000000)
    (mark : c.isDigit = false ∧ c ≠ '.') :
    readFraction? (printFraction nano ++ c :: cs) = some (nano, c :: cs) := by
  unfold printFraction
  split
  · subst nano
    rw [List.nil_append, readFraction?]
    rintro _ ⟨⟩
    exact mark.2 rfl
  · rename_i nonzero
    have value : nanosOfDigits 100000000 (dropLastZeros (lastDigits 9 nano)) = nano := by
      rw [nanosOfDigits_dropLastZeros, nanosOfDigits_lastDigits (j := 0) nano rfl,
        Nat.mod_eq_of_lt (show nano < 10 ^ 9 by omega), Nat.pow_zero, Nat.mul_one]
    obtain ⟨zeros, append, -⟩ := dropLastZeros_append (lastDigits 9 nano)
    have digits : ∀ d ∈ dropLastZeros (lastDigits 9 nano), d.isDigit = true := fun d hd =>
      isDigit_lastDigits 9 nano d (append ▸ List.mem_append_left zeros hd)
    generalize dropLastZeros (lastDigits 9 nano) = ds at value digits
    have front : (ds ++ c :: cs).takeWhile Char.isDigit = ds := by
      rw [List.takeWhile_append_of_pos digits, List.takeWhile_cons_of_neg (by simp [mark.1]),
        List.append_nil]
    have back : (ds ++ c :: cs).dropWhile Char.isDigit = c :: cs := by
      rw [List.dropWhile_append_of_pos digits, List.dropWhile_cons_of_neg (by simp [mark.1])]
    cases ds with
    | nil => exact absurd value.symm nonzero
    | cons d ds =>
      rw [List.cons_append, readFraction?]
      simp only [front, back, value]

/-! ## Offsets -/

theorem readOffsetAfterSign?_print {hour minute : Nat} (sign : Int) (small : hour < 24 ∧ minute < 60) :
    readOffsetAfterSign? sign (lastDigits 2 hour ++ ':' :: lastDigits 2 minute) =
      some (sign * (hour * 60 + minute : Nat), []) := by
  have second : readDigits? 0 2 (lastDigits 2 minute) = some (minute, []) := by
    rw [← List.append_nil (lastDigits 2 minute), readDigits?_of_lt (show minute < 10 ^ 2 by omega)]
  have mark (cs : List Char) : after? ':' (':' :: cs) = some cs := rfl
  simp only [readOffsetAfterSign?, readDigits?_of_lt (show hour < 10 ^ 2 by omega), mark, second,
    Option.bind_eq_bind, Option.bind_some, if_pos small]

/-- **An offset of whole minutes below a day is read as it was written.** -/
theorem readOffset?_print {offset : Int} (small : offset.natAbs < 1440) :
    readOffset? (printOffset offset) = some (offset, []) := by
  unfold printOffset
  split
  · subst offset
    rfl
  · have parts : offset.natAbs / 60 < 24 ∧ offset.natAbs % 60 < 60 := by omega
    rw [List.cons_append]
    split
    · show readOffsetAfterSign? (-1) _ = _
      rw [readOffsetAfterSign?_print (-1) parts]
      congr 2
      omega
    · show readOffsetAfterSign? 1 _ = _
      rw [readOffsetAfterSign?_print 1 parts]
      congr 2
      omega

theorem printOffset_head (offset : Int) :
    ∃ c cs, printOffset offset = c :: cs ∧ c.isDigit = false ∧ c ≠ '.' := by
  unfold printOffset
  split
  · exact ⟨_, _, rfl, by decide⟩
  · split
    · exact ⟨_, _, rfl, by decide⟩
    · exact ⟨_, _, rfl, by decide⟩

/-! ## Moments -/

theorem lt_of_isDay {year month day : Nat} (h : IsDay year month day) :
    year < 10 ^ 4 ∧ month < 10 ^ 2 ∧ day < 10 ^ 2 := by
  obtain ⟨hyear, hpos, hday⟩ := h
  unfold daysInMonth at hday
  split at hday <;> (try split at hday) <;> omega

theorem read?_print (m : Moment) : Written.read? m.print =
    some ⟨(m.date.year, m.date.month, m.date.day), (m.time.hour, m.time.minute, m.time.second),
      m.time.nano, m.offset⟩ := by
  obtain ⟨hyear, hmonth, hday⟩ := lt_of_isDay m.date.isDay
  obtain ⟨hhour, hminute, hsecond, hnano⟩ := m.time.isTime
  have separator (cs : List Char) : afterByte? ('T' :: cs) = some cs := rfl
  obtain ⟨c, cs, start, mark⟩ := printOffset_head m.offset
  have fraction : readFraction? (printFraction m.time.nano ++ printOffset m.offset) =
      some (m.time.nano, printOffset m.offset) := by
    rw [start]
    exact readFraction?_print hnano mark
  have time : ∀ rest, readTriple? ':' 2 2 2 (lastDigits 2 m.time.hour ++ ':' ::
      (lastDigits 2 m.time.minute ++ ':' :: (lastDigits 2 m.time.second ++ rest))) =
      some ((m.time.hour, m.time.minute, m.time.second), rest) := fun rest =>
    readTriple?_print (by omega) (by omega) (by omega)
  simp only [Written.read?, print, List.append_assoc, List.cons_append,
    readTriple?_print hyear hmonth hday, separator, time, fraction,
    readOffset?_print m.offset_lt, Option.bind_eq_bind, Option.bind_some, List.isEmpty_nil, if_true]

/-- **A moment is read as it was written.** -/
theorem parse?_text (m : Moment) : parse? m.text = some m := by
  have second : m.time.second ≠ 60 := by
    have := m.time.isTime.2.2.1
    omega
  rw [parse?, text, String.toList_ofList, read?_print]
  simp only [Option.bind_some, ofWritten?, Date.of?_eq_some, TimeOfDay.of?_eq_some, if_neg second,
    Option.bind_eq_bind, of?, m.offset_lt, dite_true]

end ContainerInit.Moment
