import ContainerInit.Proofs.Json.Gap
import Mathlib.Data.List.TakeWhile

/-!
# Numerals in a text

- **Integers** (`IntegerText`): the texts of integers, by the digits that spell them.
- **Reading** (`Literal.read?_eq_some`): what the reader of numbers takes consists of the characters
  of numbers (`isNumeral`), and if it makes an integer, it is a text of that integer.
- **Scanning** (`scan_numeral`): characters of numbers are one number, which is an integer exactly
  if they are a text of it, or there is no value where they stand (`Broken`).
- **Values** (`decode_numeral`): so a value with such characters in one place is read with the
  number there, or is not read at all.
-/

namespace ContainerInit.Json

/-! ## Integers -/

/-- The texts of integers: digits without a zero in front of others, after a minus if the integer is
negative. -/
inductive IntegerText : List Char → Int → Prop
  | natural {ds : List Char} (digits : Literal.Digits ds) (noZero : ∀ c cs, ds ≠ '0' :: c :: cs) :
    IntegerText ds (Nat.ofDigitChars 10 ds 0)
  | negative {ds : List Char} (digits : Literal.Digits ds) (noZero : ∀ c cs, ds ≠ '0' :: c :: cs)
    (nonzero : Nat.ofDigitChars 10 ds 0 ≠ 0) :
    IntegerText ('-' :: ds) (-(Nat.ofDigitChars 10 ds 0 : Int))

/-- Whether numbers are written with the character. -/
def isNumeral (c : Char) : Bool :=
  c.isDigit || c == '+' || c == '-' || c == '.' || c == 'e' || c == 'E'

/-- A text of characters with which numbers are written. -/
abbrev Numeral (cs : List Char) : Prop :=
  ∀ c ∈ cs, isNumeral c = true

namespace Literal

variable {cs ds rest : List Char}

theorem Digits.numeral (digits : Digits ds) : Numeral ds := by
  intro c hc
  simp [isNumeral, digits.isDigit c hc]

/-- A text of an integer is a number that is read as that integer. -/
theorem read?_integerText {i : Int} (text : IntegerText cs i) (stops : stopsAt rest = true) :
    ∃ l, read? (cs ++ rest) = some (l, rest) ∧ l.toInt? = some i := by
  cases text with
  | natural digits noZero =>
    have formed : WellFormed ⟨false, cs, none, none⟩ := ⟨digits, noZero, nofun, nofun⟩
    refine ⟨⟨false, cs, none, none⟩, ?_, rfl⟩
    simpa [print] using read?_print formed stops
  | @negative ds digits noZero nonzero =>
    have formed : WellFormed ⟨true, ds, none, none⟩ := ⟨digits, noZero, nofun, nofun⟩
    refine ⟨⟨true, ds, none, none⟩, ?_, by simp [toInt?, nonzero]⟩
    simpa [print] using read?_print formed stops

/-! ## Reading -/

theorem digits?_eq_some (read : digits? cs = some (ds, rest)) : cs = ds ++ rest ∧ Digits ds := by
  unfold digits? at read
  split at read
  · cases read
  · rename_i other
    obtain ⟨rfl, rfl⟩ := Prod.mk.inj (Option.some.inj read)
    refine ⟨List.takeWhile_append_dropWhile.symm, fun none => ?_, ?_⟩
    · exact other (cs.dropWhile Char.isDigit) (by rw [spanDigits, none])
    · exact fun c hc => List.mem_takeWhile_imp hc

theorem readWhole?_eq_some (read : readWhole? cs = some (ds, rest)) :
    cs = ds ++ rest ∧ Digits ds ∧ ∀ c tail, ds ≠ '0' :: c :: tail := by
  unfold readWhole? at read
  split at read
  · cases read
  · rename_i noZero
    obtain ⟨split, digits⟩ := digits?_eq_some read
    refine ⟨split, digits, ?_⟩
    rintro c tail rfl
    exact noZero c tail rest read

theorem readFraction?_eq_some {f : Option (List Char)} (read : readFraction? cs = some (f, rest)) :
    ∃ p, cs = p ++ rest ∧ Numeral p ∧ (f = none → p = []) ∧ ∀ ds ∈ f, Digits ds := by
  unfold readFraction? at read
  split at read
  · obtain ⟨⟨ds, _⟩, inner, ⟨⟩⟩ := Option.map_eq_some_iff.1 read
    obtain ⟨rfl, digits⟩ := digits?_eq_some inner
    refine ⟨'.' :: ds, rfl, List.forall_mem_cons.2 ⟨rfl, digits.numeral⟩, nofun, ?_⟩
    rintro _ ⟨⟩
    exact digits
  · cases read
    exact ⟨[], rfl, nofun, fun _ => rfl, nofun⟩

theorem readPower?_eq_some {e : Bool × List Char} (read : readPower? cs = some (e, rest)) :
    ∃ p, cs = p ++ rest ∧ Numeral p ∧ Digits e.2 := by
  unfold readPower? at read
  split at read
  · obtain ⟨⟨ds, _⟩, inner, ⟨⟩⟩ := Option.map_eq_some_iff.1 read
    obtain ⟨rfl, digits⟩ := digits?_eq_some inner
    exact ⟨'+' :: ds, rfl, List.forall_mem_cons.2 ⟨rfl, digits.numeral⟩, digits⟩
  · obtain ⟨⟨ds, _⟩, inner, ⟨⟩⟩ := Option.map_eq_some_iff.1 read
    obtain ⟨rfl, digits⟩ := digits?_eq_some inner
    exact ⟨'-' :: ds, rfl, List.forall_mem_cons.2 ⟨rfl, digits.numeral⟩, digits⟩
  · obtain ⟨⟨ds, _⟩, inner, ⟨⟩⟩ := Option.map_eq_some_iff.1 read
    obtain ⟨rfl, digits⟩ := digits?_eq_some inner
    exact ⟨ds, rfl, digits.numeral, digits⟩

theorem readExponent?_eq_some {e : Option (Bool × List Char)}
    (read : readExponent? cs = some (e, rest)) :
    ∃ p, cs = p ++ rest ∧ Numeral p ∧ (e = none → p = []) ∧ ∀ x ∈ e, Digits x.2 := by
  have marked {c : Char} {cs : List Char} (mark : isNumeral c = true)
      (read : (readPower? cs).map (fun parts => (some parts.1, parts.2)) = some (e, rest)) :
      ∃ p, c :: cs = p ++ rest ∧ Numeral p ∧ (e = none → p = []) ∧ ∀ x ∈ e, Digits x.2 := by
    obtain ⟨⟨x, _⟩, inner, ⟨⟩⟩ := Option.map_eq_some_iff.1 read
    obtain ⟨p, rfl, numeral, digits⟩ := readPower?_eq_some inner
    refine ⟨c :: p, rfl, List.forall_mem_cons.2 ⟨mark, numeral⟩, nofun, ?_⟩
    rintro _ ⟨⟩
    exact digits
  unfold readExponent? at read
  split at read
  · exact marked rfl read
  · exact marked rfl read
  · cases read
    exact ⟨[], rfl, nofun, fun _ => rfl, nofun⟩

theorem readUnsigned?_eq_some {negative : Bool} {l : Literal}
    (read : readUnsigned? negative cs = some (l, rest)) :
    ∃ p, cs = p ++ rest ∧ Numeral p ∧ l.WellFormed ∧ l.negative = negative ∧
      (l.fraction = none → l.exponent = none → p = l.whole) := by
  simp only [readUnsigned?, Option.bind_eq_some_iff, Option.map_eq_some_iff, Prod.mk.injEq] at read
  obtain ⟨⟨whole, _⟩, readWhole, ⟨f, _⟩, readFraction, ⟨e, _⟩, readExponent, rfl, rfl⟩ := read
  obtain ⟨rfl, digits, noZero⟩ := readWhole?_eq_some readWhole
  obtain ⟨p, rfl, fraction, noFraction, fractionDigits⟩ := readFraction?_eq_some readFraction
  obtain ⟨q, rfl, exponent, noExponent, exponentDigits⟩ := readExponent?_eq_some readExponent
  refine ⟨whole ++ p ++ q, by simp, ?_, ⟨digits, noZero, fractionDigits, exponentDigits⟩, rfl, ?_⟩
  · exact List.forall_mem_append.2 ⟨List.forall_mem_append.2 ⟨digits.numeral, fraction⟩, exponent⟩
  · intro plain whole
    simp [noFraction plain, noExponent whole]

/-- **What is taken for a number** is written as numbers are, and is the text of an integer if it
makes one. -/
theorem read?_eq_some {l : Literal} (read : read? cs = some (l, rest)) :
    ∃ p, cs = p ++ rest ∧ Numeral p ∧ l.WellFormed ∧ ∀ i, l.toInt? = some i → IntegerText p i := by
  have integer {p : List Char} (formed : l.WellFormed)
      (plain : l.fraction = none → l.exponent = none → p = l.whole) (i : Int)
      (value : l.toInt? = some i) :
      IntegerText (if l.negative then '-' :: p else p) i := by
    obtain ⟨negative, whole, fraction, exponent⟩ := l
    cases fraction with
    | some => cases value
    | none =>
      cases exponent with
      | some => cases value
      | none =>
        obtain rfl := plain rfl rfl
        cases negative with
        | false =>
          cases value
          exact .natural formed.whole formed.noZero
        | true =>
          by_cases zero : Nat.ofDigitChars 10 p 0 = 0
          · simp [toInt?, zero] at value
          · obtain rfl : -(Nat.ofDigitChars 10 p 0 : Int) = i := by
              simpa [toInt?, zero] using value
            exact .negative formed.whole formed.noZero zero
  unfold read? at read
  split at read
  · obtain ⟨p, rfl, numeral, formed, sign, plain⟩ := readUnsigned?_eq_some read
    refine ⟨'-' :: p, rfl, List.forall_mem_cons.2 ⟨rfl, numeral⟩, formed, fun i value => ?_⟩
    have text := integer formed plain i value
    rwa [sign, if_pos rfl] at text
  · obtain ⟨p, rfl, numeral, formed, sign, plain⟩ := readUnsigned?_eq_some read
    refine ⟨p, rfl, numeral, formed, fun i value => ?_⟩
    have text := integer formed plain i value
    rwa [sign] at text

end Literal

namespace IntegerText

variable {cs : List Char} {i j : Int}

theorem numeral (text : IntegerText cs i) : cs ≠ [] ∧ Numeral cs := by
  cases text with
  | natural digits => exact ⟨digits.ne_nil, digits.numeral⟩
  | negative digits => exact ⟨nofun, List.forall_mem_cons.2 ⟨rfl, digits.numeral⟩⟩

/-- A text is the text of one integer at most. -/
theorem unique (text : IntegerText cs i) (other : IntegerText cs j) : i = j := by
  obtain ⟨l, read, value⟩ := @Literal.read?_integerText cs [] i text rfl
  obtain ⟨m, again, same⟩ := @Literal.read?_integerText cs [] j other rfl
  cases read.symm.trans again
  exact Option.some.inj (value.symm.trans same)

end IntegerText

/-! ## Scanning -/

section Scanning

variable {c : Char} {cs lit rest : List Char} {ts : List Token}

/-- Tokens of which no value can be built: none starts there, or a number is followed by more of
one. -/
inductive Broken : List Token → Prop
  | fault (ts : List Token) : Broken (.fault :: ts)
  | twice {l : Literal} {k : Token} (more : k.isNumber = true ∨ k = .fault) (ts : List Token) :
    Broken (.number l :: k :: ts)

theorem Broken.build (broken : Broken ts) (fs : List Frame) :
    (Document.build .value fs ts).IsBroken := by
  cases broken with
  | fault ts => exact Document.build_fault fs ts
  | twice more ts => exact Document.build_twice fs ts more

theorem Broken.head? (broken : Broken ts) : ∀ k ∈ ts.head?, k ≠ .closeArray := by
  cases broken <;> (rintro _ ⟨⟩; exact nofun)

theorem ne_of_isNumeral (numeral : isNumeral c = true) {d : Char} (other : isNumeral d = false) :
    c ≠ d := by
  rintro rfl
  rw [other] at numeral
  cases numeral

/-- Where a character of numbers stands, a number is read or nothing is. -/
theorem scan_read (numeral : isNumeral c = true) : scan (c :: cs) =
    match Literal.read? (c :: cs) with
    | some (l, rest) => .number l :: scan rest
    | none => [.fault] := by
  have dark : isSpace c = false := by
    simp [isSpace, ne_of_isNumeral numeral (d := ' ') (by decide),
      ne_of_isNumeral numeral (d := '\n') (by decide),
      ne_of_isNumeral numeral (d := '\r') (by decide),
      ne_of_isNumeral numeral (d := '\t') (by decide)]
  rw [scan_cons dark, Token.ofChars]
  iterate 10 rw [if_neg (ne_of_isNumeral numeral (by decide))]
  cases Literal.read? (c :: cs) with
  | none => simp [scan]
  | some => rfl

theorem scan_head (numeral : isNumeral c = true) :
    ∃ k ts, scan (c :: cs) = k :: ts ∧ (k.isNumber = true ∨ k = .fault) := by
  rw [scan_read numeral]
  cases Literal.read? (c :: cs) with
  | none => exact ⟨_, _, rfl, .inr rfl⟩
  | some => exact ⟨_, _, rfl, .inl rfl⟩

theorem stopsAt_of_head (stops : ∀ c ∈ rest.head?, isNumeral c = false) :
    Literal.stopsAt rest = true := by
  cases rest with
  | nil => rfl
  | cons c cs =>
    have other := stops c rfl
    simp only [isNumeral, Bool.or_eq_false_iff] at other
    simp [Literal.stopsAt, other]

/-- What is taken from the front of a numeral does not go beyond it. -/
theorem exists_left {p left : List Char} (taken : Numeral p)
    (stops : ∀ c ∈ rest.head?, isNumeral c = false) (split : lit ++ rest = p ++ left) :
    ∃ q, lit = p ++ q ∧ left = q ++ rest := by
  rcases List.append_eq_append_iff.1 split with ⟨q, rfl, rfl⟩ | ⟨q, rfl, rfl⟩
  · cases q with
    | nil => exact ⟨[], by simp, rfl⟩
    | cons c q =>
      have other := stops c rfl
      rw [taken c (by simp)] at other
      cases other
  · exact ⟨q, rfl, rfl⟩

/-- **A numeral is one number or no value.** -/
theorem scan_numeral (nonempty : lit ≠ []) (numeral : Numeral lit)
    (stops : ∀ c ∈ rest.head?, isNumeral c = false) :
    (∃ l : Literal, l.WellFormed ∧ (∀ i, l.toInt? = some i ↔ IntegerText lit i) ∧
      scan (lit ++ rest) = .number l :: scan rest) ∨
    (∀ i, ¬ IntegerText lit i) ∧ Broken (scan (lit ++ rest)) := by
  have again {i : Int} (text : IntegerText lit i) :=
    Literal.read?_integerText text (stopsAt_of_head stops)
  obtain ⟨c, cs, rfl⟩ := List.exists_cons_of_ne_nil nonempty
  rw [List.cons_append, scan_read (numeral c List.mem_cons_self), ← List.cons_append]
  cases read : Literal.read? (c :: cs ++ rest) with
  | none =>
    refine .inr ⟨fun i text => ?_, .fault []⟩
    obtain ⟨_, again, -⟩ := again text
    rw [read] at again
    cases again
  | some parts =>
    obtain ⟨l, left⟩ := parts
    obtain ⟨p, split, taken, formed, integer⟩ := Literal.read?_eq_some read
    obtain ⟨q, whole, rfl⟩ := exists_left taken stops split
    cases q with
    | nil =>
      rw [List.append_nil] at whole
      subst whole
      refine .inl ⟨l, formed, fun i => ⟨integer i, fun text => ?_⟩, rfl⟩
      obtain ⟨_, again, value⟩ := again text
      rw [read] at again
      cases again
      exact value
    | cons d q =>
      -- what is left of the numeral starts another number, or nothing starts there
      have more : isNumeral d = true := numeral d (by simp [whole])
      obtain ⟨k, ts, next, more⟩ := scan_head more
      refine .inr ⟨fun i text => ?_, ?_⟩
      · -- the text of an integer would have been taken as a whole
        obtain ⟨_, again, -⟩ := again text
        rw [read] at again
        have length := congrArg List.length (Prod.mk.inj (Option.some.inj again)).2
        simp only [List.length_append, List.length_cons] at length
        omega
      · show Broken (.number l :: scan (d :: (q ++ rest)))
        rw [next]
        exact .twice more ts

end Scanning

/-! ## Values -/

theorem Laid.head?_isNumeral {ks : List Token} {cs : List Char} (laid : Laid ks cs)
    (other : ∀ k ∈ ks.head?, k.isNumber = false) : ∀ c ∈ cs.head?, isNumeral c = false := by
  cases laid with
  | done => exact nofun
  | space space =>
    simp only [isSpace, Bool.or_eq_true, beq_iff_eq] at space
    rcases space with ((rfl | rfl) | rfl) | rfl <;> (rintro _ ⟨⟩; rfl)
  | token spelling =>
    have other := other _ rfl
    cases spelling with
    | number => cases other
    | _ => rintro _ ⟨⟩; rfl

section Values

variable {α : Type} {read : Reader α} {g : Gap} {before lit after : List Char}

/-- **A value with a numeral in one place** is read with that number there, which is an integer
exactly if the numeral is a text of it; or the value is not read. -/
theorem decode_numeral (sound : read.IsSound) (whole : g.Whole) (first : Laid g.before before)
    (last : Laid g.after after) (nonempty : lit ≠ []) (numeral : Numeral lit) :
    (∃ l : Literal, (∀ i, l.toInt? = some i ↔ IntegerText lit i) ∧
      decode read (String.ofList (before ++ lit ++ after)) = read (g.fill (.number l))) ∨
    (∀ i, ¬ IntegerText lit i) ∧
      ∀ a, decode read (String.ofList (before ++ lit ++ after)) ≠ .ok a := by
  have stops := last.head?_isNumeral g.head?_after
  have tokens : scan (before ++ lit ++ after) = g.before ++ scan (lit ++ after) := by
    rw [List.append_assoc, whole.scan_before first]
  rcases scan_numeral nonempty numeral stops with ⟨l, formed, integer, number⟩ | ⟨none, broken⟩
  · refine .inl ⟨l, integer, ?_⟩
    have filled : scan (before ++ lit ++ after) = (g.fill (.number l)).tokens := by
      rw [tokens, number, whole.scan_after last, Gap.tokens_fill, List.append_assoc]
      rfl
    exact decode_of_scan (whole _ (.number formed)) filled read
  · refine .inr ⟨none, decode_ne_ok sound ?_⟩
    rw [Document.parse, String.toList_ofList, tokens, Document.ofTokens,
      Document.build_gap (whole .null .null) broken.head?]
    exact broken.build _

end Values

end ContainerInit.Json
