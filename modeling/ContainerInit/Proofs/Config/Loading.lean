import ContainerInit.Config
import Mathlib.Algebra.Group.Nat.Defs
import Mathlib.Data.List.TakeWhile

/-!
# What the variables decide

- **Trimming** (`Text.trimChars_eq_iff`): a trimmed text is the middle of the text, between blanks
  at its two ends, and neither starts nor ends with one.
- **Numbers** (`readMillis_cases`): what is read is the number that the digits spell (`IsMillis`),
  and a refusal names the first fault from left to right (`Faulty`).
- **Identifiers** (`Uuid.isRandom_text`): the text of an identifier of version 4 shows the version
  and the variant at their places.
- **Loading** (`Config.loads_exactly`): when the identity is refused, when the grace period is, and
  what the settings are otherwise (`Config.Decided`).
-/

namespace ContainerInit

/-! ## Trimming -/

namespace Text

/-- The second text is the first one without the blanks at its two ends. -/
structure Trims (cs t : List Char) : Prop where
  ends : ∃ front back, cs = front ++ t ++ back ∧
    (∀ c ∈ front, isBlank c = true) ∧ ∀ c ∈ back, isBlank c = true
  first : ∀ c ∈ t.head?, isBlank c = false
  last : ∀ c ∈ t.getLast?, isBlank c = false

variable {cs t : List Char}

theorem head?_dropWhile_isBlank : ∀ c ∈ (cs.dropWhile isBlank).head?, isBlank c = false := by
  intro c hc
  have dark := List.head?_dropWhile_not isBlank cs
  rw [Option.mem_def.1 hc] at dark
  exact dark

/-- A text whose first character is not blank keeps its front. -/
theorem dropWhile_isBlank (first : ∀ c ∈ t.head?, isBlank c = false) :
    t.dropWhile isBlank = t := by
  cases t with
  | nil => rfl
  | cons c t => exact List.dropWhile_cons_of_neg (by simp [first c rfl])

/-- Blanks in front of a text are dropped, and nothing of the text. -/
theorem dropWhile_append_isBlank {front : List Char} (blank : ∀ c ∈ front, isBlank c = true)
    (first : ∀ c ∈ t.head?, isBlank c = false) : (front ++ t).dropWhile isBlank = t := by
  rw [List.dropWhile_append_of_pos blank, dropWhile_isBlank first]

theorem trims_trimChars (cs : List Char) : Trims cs (trimChars cs) := by
  have front := List.takeWhile_append_dropWhile (p := isBlank) (l := cs)
  generalize kept : cs.dropWhile isBlank = rest at front
  have back := List.takeWhile_append_dropWhile (p := isBlank) (l := rest.reverse)
  have split : trimChars cs ++ (rest.reverse.takeWhile isBlank).reverse = rest := by
    rw [trimChars, kept, ← List.reverse_append, back, List.reverse_reverse]
  have blank (l : List Char) : ∀ c ∈ l.takeWhile isBlank, isBlank c = true := fun c hc =>
    List.all_eq_true.1 List.all_takeWhile c hc
  have behind : ∀ c ∈ (rest.reverse.takeWhile isBlank).reverse, isBlank c = true := fun c hc =>
    blank _ c (List.mem_reverse.1 hc)
  refine ⟨⟨_, _, ?_, blank cs, behind⟩, ?_, ?_⟩
  · rw [List.append_assoc, split, front]
  · intro c hc
    have first : c ∈ rest.head? := by
      rw [← split, List.head?_append, Option.mem_def.1 hc]
      rfl
    rw [← kept] at first
    exact head?_dropWhile_isBlank c first
  · intro c hc
    rw [trimChars, List.getLast?_reverse] at hc
    exact head?_dropWhile_isBlank c hc

/-- **Trimming leaves the text between the blanks at the two ends.** -/
theorem trimChars_eq_iff : trimChars cs = t ↔ Trims cs t := by
  constructor
  · rintro rfl
    exact trims_trimChars cs
  · rintro ⟨⟨front, back, rfl, frontBlank, backBlank⟩, first, last⟩
    cases t with
    | nil =>
      have allBlank : (front ++ [] ++ back).dropWhile isBlank = [] := by
        rw [List.append_nil, List.dropWhile_append_of_pos frontBlank, List.dropWhile_eq_nil_iff]
        exact backBlank
      rw [trimChars, allBlank]
      rfl
    | cons c t =>
      have opened : (front ++ (c :: t) ++ back).dropWhile isBlank = c :: t ++ back := by
        rw [List.append_assoc]
        exact dropWhile_append_isBlank frontBlank first
      have closed : ((c :: t) ++ back).reverse.dropWhile isBlank = (c :: t).reverse := by
        rw [List.reverse_append, dropWhile_append_isBlank]
        · exact fun d hd => backBlank d (List.mem_reverse.1 hd)
        · rwa [List.head?_reverse]
      rw [trimChars, opened, closed, List.reverse_reverse]

end Text

/-! ## Numbers -/

/-- A text of digits. -/
abbrev AllDigits (ds : List Char) : Prop :=
  ∀ c ∈ ds, c.isDigit = true

/-- A text is the number `n`, which is below 2^64: an optional plus sign, and at least one digit. -/
def IsMillis (cs : List Char) (n : Nat) : Prop :=
  ∃ ds, (cs = ds ∨ cs = '+' :: ds) ∧ ds ≠ [] ∧ AllDigits ds ∧
    Nat.ofDigitChars 10 ds 0 = n ∧ n < 2 ^ 64

/-- A text without its plus sign. A sign that stands alone is none. -/
def unsigned : List Char → List Char
  | '+' :: c :: cs => c :: cs
  | cs => cs

/-- The first fault from left to right of a text that should go on the digits of `n`. -/
inductive StopsAt (n : Nat) (cs : List Char) : NumberFault → Prop
  | invalidDigit {ds rest : List Char} {c : Char} (split : cs = ds ++ c :: rest)
    (digits : AllDigits ds) (small : Nat.ofDigitChars 10 ds n < 2 ^ 64)
    (other : c.isDigit = false) : StopsAt n cs .invalidDigit
  | tooLarge {ds rest : List Char} {c : Char} (split : cs = ds ++ c :: rest) (digits : AllDigits ds)
    (small : Nat.ofDigitChars 10 ds n < 2 ^ 64) (digit : c.isDigit = true)
    (large : 2 ^ 64 ≤ Nat.ofDigitChars 10 (ds ++ [c]) n) : StopsAt n cs .tooLarge

/-- The first fault from left to right of a text that should be a number. -/
inductive Faulty (cs : List Char) : NumberFault → Prop
  | empty (nothing : cs = []) : Faulty cs .empty
  | stops {e : NumberFault} (stops : StopsAt 0 (unsigned cs) e) : Faulty cs e

section Numbers

variable {n m : Nat} {c : Char} {cs : List Char} {e : NumberFault}

/-- More digits make no smaller number. -/
theorem le_ofDigitChars (cs : List Char) (n : Nat) : n ≤ Nat.ofDigitChars 10 cs n := by
  rw [Nat.ofDigitChars_eq_ofDigitChars_zero]
  have := Nat.le_mul_of_pos_left n (Nat.pow_pos (n := cs.length) (show 0 < 10 by decide))
  omega

theorem StopsAt.cons (digit : c.isDigit = true)
    (stops : StopsAt (Nat.ofDigitChars 10 [c] n) cs e) : StopsAt n (c :: cs) e := by
  have digits {ds : List Char} (h : AllDigits ds) : AllDigits (c :: ds) :=
    List.forall_mem_cons.2 ⟨digit, h⟩
  cases stops with
  | @invalidDigit ds rest d split all below other =>
    have split : c :: cs = (c :: ds) ++ d :: rest := congrArg (c :: ·) split
    exact .invalidDigit split (digits all) below other
  | @tooLarge ds rest d split all below last large =>
    have split : c :: cs = (c :: ds) ++ d :: rest := congrArg (c :: ·) split
    exact .tooLarge split (digits all) below last large

/-- **Digits are read as the number they spell,** and reading stops at the first fault. -/
theorem readDecimal_cases (small : n < 2 ^ 64) (cs : List Char) :
    (AllDigits cs ∧ Nat.ofDigitChars 10 cs n < 2 ^ 64 ∧
      readDecimal n cs = .ok (Nat.ofDigitChars 10 cs n)) ∨
    ∃ e, StopsAt n cs e ∧ readDecimal n cs = .error e := by
  induction cs generalizing n with
  | nil => exact .inl ⟨nofun, small, rfl⟩
  | cons c cs ih =>
    have next : n * 10 + (c.toNat - '0'.toNat) = Nat.ofDigitChars 10 [c] n := by
      rw [Nat.ofDigitChars_cons, Nat.mul_comm]
      rfl
    rw [readDecimal]
    simp only [next, show UInt64.size = 2 ^ 64 from rfl]
    by_cases digit : c.isDigit = true
    · rw [if_pos digit]
      by_cases fits : Nat.ofDigitChars 10 [c] n < 2 ^ 64
      · rw [if_pos fits]
        rcases ih fits with ⟨digits, below, read⟩ | ⟨e, stops, read⟩
        · exact .inl ⟨List.forall_mem_cons.2 ⟨digit, digits⟩, below, read⟩
        · exact .inr ⟨e, stops.cons digit, read⟩
      · rw [if_neg fits]
        exact .inr ⟨_, .tooLarge (show c :: cs = [] ++ c :: cs from rfl) nofun small digit
          (Nat.le_of_not_lt fits), rfl⟩
    · rw [if_neg digit]
      exact .inr ⟨_, .invalidDigit (show c :: cs = [] ++ c :: cs from rfl) nofun small
        (by simpa using digit), rfl⟩

/-- A text that stops at a fault is no number. -/
theorem StopsAt.not_number (stops : StopsAt n cs e) (digits : AllDigits cs) :
    2 ^ 64 ≤ Nat.ofDigitChars 10 cs n := by
  cases stops with
  | @invalidDigit ds rest c split _ _ other =>
    have digit := digits c (by simp [split])
    rw [other] at digit
    cases digit
  | @tooLarge ds rest c split _ _ _ large =>
    have whole : cs = ds ++ [c] ++ rest := by simp [split]
    rw [whole, Nat.ofDigitChars_append]
    exact Nat.le_trans large (le_ofDigitChars rest _)

theorem readMillis_cons (c : Char) (cs : List Char) :
    readMillis (c :: cs) = readDecimal 0 (unsigned (c :: cs)) := by
  by_cases sign : c = '+'
  · subst c
    cases cs with
    | nil => rfl
    | cons => rfl
  · have plain : unsigned (c :: cs) = c :: cs := by
      rw [unsigned]
      rintro d ds ⟨⟩
      exact sign rfl
    rw [plain, readMillis]
    · nofun
    · rintro ⟨⟩
      exact sign rfl
    · rintro ds ⟨⟩
      exact sign rfl

/-- A number is the number of its digits without the sign. -/
theorem isMillis_iff : IsMillis cs n ↔ cs ≠ [] ∧ AllDigits (unsigned cs) ∧
    Nat.ofDigitChars 10 (unsigned cs) 0 = n ∧ n < 2 ^ 64 := by
  constructor
  · rintro ⟨ds, rfl | rfl, nonempty, digits, value, small⟩
    · have plain : unsigned cs = cs := by
        unfold unsigned
        split
        · exact absurd (digits '+' List.mem_cons_self) (by decide)
        · rfl
      rw [plain]
      exact ⟨nonempty, digits, value, small⟩
    · obtain ⟨c, ds, rfl⟩ := List.exists_cons_of_ne_nil nonempty
      exact ⟨nofun, digits, value, small⟩
  · rintro ⟨nonempty, digits, value, small⟩
    unfold unsigned at digits value
    split at digits
    · exact ⟨_, .inr rfl, nofun, digits, value, small⟩
    · rename_i other
      refine ⟨cs, .inl rfl, nonempty, digits, ?_, small⟩
      split at value
      · exact absurd rfl (other _ _)
      · exact value

/-- A text is read as a number, or else it is none and reading tells its first fault. -/
theorem readMillis_cases (cs : List Char) :
    (∃ n, IsMillis cs n ∧ readMillis cs = .ok n) ∨
    ∃ e, (∀ n, ¬ IsMillis cs n) ∧ Faulty cs e ∧ readMillis cs = .error e := by
  cases cs with
  | nil => exact .inr ⟨.empty, fun n h => (isMillis_iff.1 h).1 rfl, .empty rfl, rfl⟩
  | cons c cs =>
    rw [readMillis_cons]
    rcases readDecimal_cases (show 0 < 2 ^ 64 by decide) (unsigned (c :: cs)) with
      ⟨digits, below, read⟩ | ⟨e, stops, read⟩
    · exact .inl ⟨_, isMillis_iff.2 ⟨nofun, digits, rfl, below⟩, read⟩
    · refine .inr ⟨e, fun n number => ?_, .stops stops, read⟩
      obtain ⟨-, digits, value, small⟩ := isMillis_iff.1 number
      have large := stops.not_number digits
      omega

/-- A text is one number at most. -/
theorem IsMillis.unique (hn : IsMillis cs n) (hm : IsMillis cs m) : n = m := by
  rw [← (isMillis_iff.1 hn).2.2.1, (isMillis_iff.1 hm).2.2.1]

end Numbers

/-! ## Identifiers -/

namespace Uuid

/-- A lower case hexadecimal digit. -/
def IsHex (c : Char) : Prop :=
  c.isDigit = true ∨ 'a' ≤ c ∧ c ≤ 'f'

/-- The form of the text of a random identifier: digits in groups of 8, 4, 4, 4 and 12, of which the
thirteenth is the version 4 and the seventeenth starts with the bits of the variant. -/
def IsRandomText (s : String) : Prop :=
  ∃ a b c d e : List Char, ∃ v : Char,
    s.toList = a ++ '-' :: b ++ '-' :: '4' :: c ++ '-' :: v :: d ++ '-' :: e ∧
    a.length = 8 ∧ b.length = 4 ∧ c.length = 3 ∧ d.length = 3 ∧ e.length = 12 ∧
    (∀ x ∈ a ++ b ++ c ++ d ++ e, IsHex x) ∧ v ∈ ['8', '9', 'a', 'b']

theorem isHex_digitChar : ∀ d < 16, IsHex (Nat.digitChar d) := by
  unfold IsHex
  decide

theorem length_hexDigits (n k : Nat) : (hexDigits n k).length = n := by
  induction n generalizing k with
  | zero => rfl
  | succ n ih => simp [hexDigits, ih]

theorem isHex_hexDigits (n k : Nat) : ∀ c ∈ hexDigits n k, IsHex c := by
  induction n generalizing k with
  | zero => nofun
  | succ n ih =>
    intro c hc
    rcases List.mem_append.1 hc with hc | hc
    · exact ih _ c hc
    · rw [List.mem_singleton.1 hc]
      exact isHex_digitChar _ (Nat.mod_lt k (by decide))

/-- The first of several hexadecimal digits. -/
theorem hexDigits_succ (n k : Nat) :
    hexDigits (n + 1) k = Nat.digitChar (k / 16 ^ n % 16) :: hexDigits n k := by
  induction n generalizing k with
  | zero => simp [hexDigits]
  | succ n ih =>
    rw [hexDigits, ih, Nat.div_div_eq_div_mul, ← Nat.pow_succ', hexDigits, List.cons_append]

/-- The digit of the version is four. -/
theorem version_digit (high low : UInt64) : (ofRandom high low).high.toNat / 16 ^ 3 % 16 = 4 := by
  have bits : (ofRandom high low).high.toNat =
      high.toNat &&& 0xffffffffffff0fff ||| 0x4000 := rfl
  have mask : 0xffffffffffff0fff >>> 12 &&& 2 ^ 4 - 1 = 0 := by decide
  have version : 0x4000 >>> 12 &&& 2 ^ 4 - 1 = 4 := by decide
  rw [bits, show 16 ^ 3 = 2 ^ 12 from rfl, ← Nat.shiftRight_eq_div_pow,
    ← Nat.and_two_pow_sub_one_eq_mod _ 4, Nat.shiftRight_or_distrib, Nat.shiftRight_and_distrib,
    Nat.and_or_distrib_right, Nat.and_assoc, mask, version, Nat.and_zero, Nat.zero_or]

/-- The first digit of the variant shows its two bits. -/
theorem variant_digit (high low : UInt64) :
    Nat.digitChar ((ofRandom high low).low.toNat >>> 48 / 16 ^ 3 % 16) ∈ ['8', '9', 'a', 'b'] := by
  have bits : (ofRandom high low).low.toNat =
      low.toNat &&& 0x3fffffffffffffff ||| 0x8000000000000000 := rfl
  have mask : 0x3fffffffffffffff >>> 60 &&& 2 ^ 4 - 1 = 2 ^ 2 - 1 := by decide
  have variant : 0x8000000000000000 >>> 60 &&& 2 ^ 4 - 1 = 8 := by decide
  rw [bits, show 16 ^ 3 = 2 ^ 12 from rfl, ← Nat.shiftRight_eq_div_pow, ← Nat.shiftRight_add,
    ← Nat.and_two_pow_sub_one_eq_mod _ 4, Nat.shiftRight_or_distrib, Nat.shiftRight_and_distrib,
    Nat.and_or_distrib_right, Nat.and_assoc, mask, variant, Nat.and_two_pow_sub_one_eq_mod]
  have shown : ∀ n < 4, Nat.digitChar (n ||| 8) ∈ ['8', '9', 'a', 'b'] := by decide
  exact shown _ (Nat.mod_lt _ (by decide))

/-- **The text of a random identifier shows its version and its variant.** -/
theorem isRandom_text (high low : UInt64) : IsRandomText (ofRandom high low).text := by
  generalize fresh : ofRandom high low = u
  have version : u.high.toNat / 16 ^ 3 % 16 = 4 := fresh ▸ version_digit high low
  have variant := fresh ▸ variant_digit high low
  refine ⟨hexDigits 8 (u.high.toNat >>> 32), hexDigits 4 (u.high.toNat >>> 16),
    hexDigits 3 u.high.toNat, hexDigits 3 (u.low.toNat >>> 48), hexDigits 12 u.low.toNat, _, ?_,
    length_hexDigits _ _, length_hexDigits _ _, length_hexDigits _ _, length_hexDigits _ _,
    length_hexDigits _ _, ?_, variant⟩
  · rw [text, String.toList_ofList, hexDigits_succ 3 u.high.toNat,
      hexDigits_succ 3 (u.low.toNat >>> 48), version]
    rfl
  · intro x hx
    simp only [List.mem_append, or_assoc] at hx
    rcases hx with h | h | h | h | h <;> exact isHex_hexDigits _ _ x h

end Uuid

/-! ## Loading -/

namespace Config

variable {lookup : String → Option String} {fresh : Uuid}

/-- An identity is given, and nothing is left of it without the blanks at its ends. -/
def NamesNothing (lookup : String → Option String) : Prop :=
  ∃ s, lookup idKey = some s ∧ Text.Trims s.toList []

/-- The identity that the variables give: the trimmed text, or the fresh one where none is given. -/
def GivesId (lookup : String → Option String) (fresh : Uuid) (id : String) : Prop :=
  match lookup idKey with
  | none => id = fresh.text
  | some s => Text.Trims s.toList id.toList

/-- The grace period that the variables give, in milliseconds: the number that the trimmed text is,
or ten seconds where none is given. -/
def GivesGrace (lookup : String → Option String) (n : Nat) : Prop :=
  match lookup killGraceKey with
  | none => n = 10000
  | some s => ∃ t, Text.Trims s.toList t ∧ IsMillis t n

/-- What the variables decide. -/
structure Decided (lookup : String → Option String) (fresh : Uuid) : Prop where
  /-- An empty identity is refused, whatever else is given. -/
  empty : ∀ key, load lookup fresh = .error (.empty key) ↔ key = idKey ∧ NamesNothing lookup
  /-- A grace period is refused next, where it is no number. The value is told untrimmed. -/
  invalid : ∀ key value, (∃ reason, load lookup fresh = .error (.invalid key value reason)) ↔
    ¬ NamesNothing lookup ∧ key = killGraceKey ∧ lookup killGraceKey = some value ∧
      ∃ t, Text.Trims value.toList t ∧ ∀ n, ¬ IsMillis t n
  /-- The reason is the first fault of the trimmed text. -/
  reason : ∀ key value reason, load lookup fresh = .error (.invalid key value reason) →
    ∃ t e, Text.Trims value.toList t ∧ Faulty t e ∧ reason = e.message
  /-- Anything else is accepted, and the settings are what is given. -/
  loaded : ∀ c, load lookup fresh = .ok c ↔
    ¬ NamesNothing lookup ∧ GivesId lookup fresh c.id ∧ GivesGrace lookup c.killGrace.toNat ∧
      (c.traceJson = true ↔ lookup traceJsonKey = some "1" ∨ lookup traceJsonKey = some "true")
  /-- The grace period is as many milliseconds, in whole seconds and nanoseconds beyond them. -/
  duration : ∀ c, load lookup fresh = .ok c →
    c.killGraceSeconds = c.killGrace.toNat / 1000 ∧
    c.killGraceNanos = c.killGrace.toNat % 1000 * 1000000 ∧
    c.killGraceSeconds * 1000000000 + c.killGraceNanos = c.killGrace.toNat * 1000000

/-- The identity is refused, or it is what is given. -/
theorem loadId_cases (lookup : String → Option String) (fresh : Uuid) :
    (NamesNothing lookup ∧ loadId fresh (lookup idKey) = .error (.empty idKey)) ∨
    ∃ id, ¬ NamesNothing lookup ∧ (∀ x, GivesId lookup fresh x ↔ x = id) ∧
      loadId fresh (lookup idKey) = .ok id := by
  cases given : lookup idKey with
  | none =>
    refine .inr ⟨fresh.text, ?_, ?_, rfl⟩
    · rintro ⟨s, some, -⟩
      rw [given] at some
      cases some
    · intro x
      rw [GivesId, given]
  | some s =>
    by_cases empty : Text.trimChars s.toList = []
    · refine .inl ⟨⟨s, given, Text.trimChars_eq_iff.1 empty⟩, ?_⟩
      rw [loadId, Text.trim, empty]
      rfl
    · refine .inr ⟨Text.trim s, ?_, ?_, ?_⟩
      · rintro ⟨u, some, trims⟩
        rw [given] at some
        cases some
        exact empty (Text.trimChars_eq_iff.2 trims)
      · intro x
        rw [GivesId, given, Text.trim]
        show Text.Trims s.toList x.toList ↔ _
        rw [← Text.trimChars_eq_iff, eq_comm, String.ext_iff, String.toList_ofList]
      · have nonempty : (Text.trim s).isEmpty = false := by
          rw [Text.trim]
          simpa using empty
        rw [loadId]
        simp only [nonempty]
        rfl

/-- The grace period is what is given, or it is refused with the first fault. -/
theorem loadKillGrace_cases (lookup : String → Option String) :
    (∃ n : UInt64, (∀ m, GivesGrace lookup m ↔ m = n.toNat) ∧
      loadKillGrace (lookup killGraceKey) = .ok n) ∨
    ∃ value t e, lookup killGraceKey = some value ∧ Text.Trims value.toList t ∧
      (∀ n, ¬ IsMillis t n) ∧ Faulty t e ∧
      loadKillGrace (lookup killGraceKey) = .error (.invalid killGraceKey value e.message) := by
  cases given : lookup killGraceKey with
  | none =>
    refine .inl ⟨defaultKillGrace, fun m => ?_, rfl⟩
    rw [GivesGrace, given]
    rfl
  | some s =>
    have trims := Text.trims_trimChars s.toList
    rcases readMillis_cases (Text.trimChars s.toList) with
      ⟨n, number, read⟩ | ⟨e, none, faulty, read⟩
    · have whole : (UInt64.ofNat n).toNat = n :=
        UInt64.toNat_ofNat_of_lt' (isMillis_iff.1 number).2.2.2
      refine .inl ⟨.ofNat n, fun m => ?_, ?_⟩
      · rw [GivesGrace, given, whole]
        constructor
        · rintro ⟨t, alsoTrims, other⟩
          rw [← Text.trimChars_eq_iff.2 alsoTrims] at other
          exact other.unique number
        · rintro rfl
          exact ⟨_, trims, number⟩
      · simp only [loadKillGrace, read]
    · refine .inr ⟨s, _, e, rfl, trims, none, faulty, ?_⟩
      simp only [loadKillGrace, read]

theorem loadTraceJson_eq_true_iff (given : Option String) :
    loadTraceJson given = true ↔ given = some "1" ∨ given = some "true" := by
  cases given with
  | none => simp [loadTraceJson]
  | some s => simp [loadTraceJson]

/-- The grace period in seconds and nanoseconds is the one in milliseconds. -/
theorem duration_eq (c : Config) : c.killGraceSeconds = c.killGrace.toNat / 1000 ∧
    c.killGraceNanos = c.killGrace.toNat % 1000 * 1000000 ∧
    c.killGraceSeconds * 1000000000 + c.killGraceNanos = c.killGrace.toNat * 1000000 := by
  refine ⟨rfl, rfl, ?_⟩
  simp only [killGraceSeconds, killGraceNanos]
  omega

section Cases

variable {id : String}

theorem decided_of_empty (nothing : NamesNothing lookup)
    (refused : loadId fresh (lookup idKey) = .error (.empty idKey)) : Decided lookup fresh := by
  have failed : load lookup fresh = .error (.empty idKey) := by
    rw [load, refused]
    rfl
  constructor
  case duration => exact fun c _ => c.duration_eq
  case empty =>
    intro key
    rw [failed]
    constructor
    · rintro ⟨⟩
      exact ⟨rfl, nothing⟩
    · rintro ⟨rfl, -⟩
      rfl
  case invalid =>
    intro key value
    rw [failed]
    constructor
    · rintro ⟨reason, ⟨⟩⟩
    · rintro ⟨named, -⟩
      exact absurd nothing named
  case reason =>
    rw [failed]
    exact nofun
  case loaded =>
    intro c
    rw [failed]
    exact ⟨nofun, fun h => absurd nothing h.1⟩

/-- A grace period that is given is no number where none is read. -/
theorem not_givesGrace {value : String} {t : List Char} (given : lookup killGraceKey = some value)
    (trims : Text.Trims value.toList t) (none : ∀ n, ¬ IsMillis t n) (n : Nat) :
    ¬ GivesGrace lookup n := by
  rw [GivesGrace, given]
  rintro ⟨u, alsoTrims, number⟩
  rw [← Text.trimChars_eq_iff.2 alsoTrims, Text.trimChars_eq_iff.2 trims] at number
  exact none n number

theorem decided_of_invalid {value : String} {t : List Char} {e : NumberFault}
    (named : ¬ NamesNothing lookup) (read : loadId fresh (lookup idKey) = .ok id)
    (given : lookup killGraceKey = some value) (trims : Text.Trims value.toList t)
    (none : ∀ n, ¬ IsMillis t n) (faulty : Faulty t e)
    (refused :
      loadKillGrace (lookup killGraceKey) = .error (.invalid killGraceKey value e.message)) :
    Decided lookup fresh := by
  have failed : load lookup fresh = .error (.invalid killGraceKey value e.message) := by
    rw [load, read, refused]
    rfl
  constructor
  case duration => exact fun c _ => c.duration_eq
  case empty =>
    intro key
    rw [failed]
    exact ⟨nofun, fun h => absurd h.2 named⟩
  case invalid =>
    intro key other
    rw [failed]
    constructor
    · rintro ⟨reason, ⟨⟩⟩
      exact ⟨named, rfl, given, t, trims, none⟩
    · rintro ⟨-, rfl, alsoGiven, -⟩
      rw [given] at alsoGiven
      cases alsoGiven
      exact ⟨_, rfl⟩
  case reason =>
    rw [failed]
    rintro _ _ _ ⟨⟩
    exact ⟨t, e, trims, faulty, rfl⟩
  case loaded =>
    intro c
    rw [failed]
    exact ⟨nofun, fun h => absurd h.2.2.1 (not_givesGrace given trims none _)⟩

theorem decided_of_loaded {n : UInt64} (named : ¬ NamesNothing lookup)
    (idGiven : ∀ x, GivesId lookup fresh x ↔ x = id)
    (read : loadId fresh (lookup idKey) = .ok id)
    (graceGiven : ∀ m, GivesGrace lookup m ↔ m = n.toNat)
    (readGrace : loadKillGrace (lookup killGraceKey) = .ok n) : Decided lookup fresh := by
  have loaded : load lookup fresh = .ok ⟨id, n, loadTraceJson (lookup traceJsonKey)⟩ := by
    rw [load, read, readGrace]
    rfl
  constructor
  case duration => exact fun c _ => c.duration_eq
  case empty =>
    intro key
    rw [loaded]
    exact ⟨nofun, fun h => absurd h.2 named⟩
  case invalid =>
    intro key value
    rw [loaded]
    constructor
    · rintro ⟨reason, ⟨⟩⟩
    · rintro ⟨-, -, given, t, trims, none⟩
      exact absurd ((graceGiven n.toNat).2 rfl) (not_givesGrace given trims none _)
  case reason =>
    rw [loaded]
    exact nofun
  case loaded =>
    rintro ⟨id', n', json⟩
    rw [loaded, idGiven, graceGiven, ← loadTraceJson_eq_true_iff, Bool.coe_iff_coe,
      UInt64.toNat_inj]
    constructor
    · rintro ⟨⟩
      exact ⟨named, rfl, rfl, rfl⟩
    · rintro ⟨-, rfl, rfl, rfl⟩
      rfl

theorem decided (lookup : String → Option String) (fresh : Uuid) : Decided lookup fresh := by
  rcases loadId_cases lookup fresh with ⟨nothing, refused⟩ | ⟨id, named, idGiven, read⟩
  · exact decided_of_empty nothing refused
  · rcases loadKillGrace_cases lookup with
      ⟨n, graceGiven, readGrace⟩ | ⟨value, t, e, given, trims, none, faulty, refused⟩
    · exact decided_of_loaded named idGiven read graceGiven readGrace
    · exact decided_of_invalid named read given trims none faulty refused

end Cases

/-- **The settings depend on three variables only, and these decide exactly:** whether the identity
is refused, then whether the grace period is and with which first fault, and otherwise what the
settings are, with a random identifier where no identity is given. -/
theorem loads_exactly (high low : UInt64) (lookup : String → Option String) :
    (∀ other : String → Option String,
      (∀ key ∈ [idKey, killGraceKey, traceJsonKey], other key = lookup key) →
        load other (.ofRandom high low) = load lookup (.ofRandom high low)) ∧
    Uuid.IsRandomText (Uuid.ofRandom high low).text ∧
    Decided lookup (.ofRandom high low) := by
  refine ⟨fun other agree => ?_, Uuid.isRandom_text high low, decided lookup _⟩
  simp only [List.forall_mem_cons] at agree
  obtain ⟨id, killGrace, traceJson, -⟩ := agree
  rw [load, load, id, killGrace, traceJson]

/-- Variables with blanks around an identity and a number. -/
def padded : List (String × String) :=
  [(idKey, "\u00a0web-1\n"), (killGraceKey, " +01250 "), (traceJsonKey, "true")]

theorem loads_exactly_padded :
    load (List.lookup · (("PATH", "/bin") :: padded)) (.ofRandom 0 0) = .ok ⟨"web-1", 1250, true⟩ ∧
    GivesGrace (List.lookup · padded) 1250 := by
  have agree : ∀ key ∈ [idKey, killGraceKey, traceJsonKey],
      List.lookup key (("PATH", "/bin") :: padded) = List.lookup key padded := by decide
  have loaded : load (List.lookup · padded) (.ofRandom 0 0) = .ok ⟨"web-1", 1250, true⟩ := by
    decide +kernel
  obtain ⟨same, -, decided⟩ := loads_exactly 0 0 (List.lookup · padded)
  refine ⟨?_, ((decided.loaded _).1 loaded).2.2.1⟩
  rw [same _ agree, loaded]

end Config

end ContainerInit
