/-!
# Number literals

- **Literals** (`Literal`): the parts of a JSON number as they are written, so that nothing is
  lost between reading and deciding what the number is for.
- **Reading and writing** (`Literal.read?`, `Literal.print`): the grammar allows one sign, no
  leading zero, and at least one digit after a point and in an exponent.
- **Integers** (`Literal.toInt?`, `Literal.ofInt`): an integer literal has neither fraction nor
  exponent and is not minus zero; it denotes the number its digits spell, of any length.
- **Double precision** (`Literal.fitsDouble`): whether the number, rounded the way a reader that
  keeps 64 bits of digits rounds it, is finite.
-/

namespace ContainerInit.Json

/-- A number as it is written. -/
structure Literal where
  negative : Bool
  whole : List Char
  fraction : Option (List Char) := none
  /-- The sign (`true` for minus) and the digits of the exponent. -/
  exponent : Option (Bool × List Char) := none
  deriving DecidableEq

namespace Literal

/-! ## Reading and writing -/

/-- The digits in front of a text, and the rest. -/
def spanDigits (cs : List Char) : List Char × List Char :=
  (cs.takeWhile Char.isDigit, cs.dropWhile Char.isDigit)

/-- At least one digit in front of a text, and the rest. -/
def digits? (cs : List Char) : Option (List Char × List Char) :=
  match spanDigits cs with
  | ([], _) => none
  | parts => some parts

/-- The whole part: one zero, or digits that start with another one. -/
def readWhole? (cs : List Char) : Option (List Char × List Char) :=
  match digits? cs with
  | some ('0' :: _ :: _, _) => none
  | parts => parts

/-- The fraction, if a point follows. -/
def readFraction? (cs : List Char) : Option (Option (List Char) × List Char) :=
  match cs with
  | '.' :: rest => (digits? rest).map fun parts => (some parts.1, parts.2)
  | _ => some (none, cs)

/-- The digits of an exponent with their sign. -/
def readPower? (cs : List Char) : Option ((Bool × List Char) × List Char) :=
  match cs with
  | '+' :: rest => (digits? rest).map fun parts => ((false, parts.1), parts.2)
  | '-' :: rest => (digits? rest).map fun parts => ((true, parts.1), parts.2)
  | _ => (digits? cs).map fun parts => ((false, parts.1), parts.2)

/-- The exponent, if its mark follows. -/
def readExponent? (cs : List Char) : Option (Option (Bool × List Char) × List Char) :=
  match cs with
  | 'e' :: rest => (readPower? rest).map fun parts => (some parts.1, parts.2)
  | 'E' :: rest => (readPower? rest).map fun parts => (some parts.1, parts.2)
  | _ => some (none, cs)

/-- A literal without its sign. -/
def readUnsigned? (negative : Bool) (cs : List Char) : Option (Literal × List Char) :=
  (readWhole? cs).bind fun whole =>
    (readFraction? whole.2).bind fun fraction =>
      (readExponent? fraction.2).map fun exponent =>
        (⟨negative, whole.1, fraction.1, exponent.1⟩, exponent.2)

/-- The literal in front of a text, and the rest; nothing if the text starts otherwise. -/
def read? (cs : List Char) : Option (Literal × List Char) :=
  match cs with
  | '-' :: rest => readUnsigned? true rest
  | _ => readUnsigned? false cs

/-- The characters of a literal. -/
def print (l : Literal) : List Char :=
  (if l.negative then ['-'] else []) ++ l.whole ++
    (match l.fraction with
      | none => []
      | some ds => '.' :: ds) ++
    (match l.exponent with
      | none => []
      | some (negative, ds) => 'e' :: (if negative then ['-'] else []) ++ ds)

/-! ## A literal takes at least one character -/

theorem length_digits? {cs : List Char} {parts : List Char × List Char}
    (h : digits? cs = some parts) : parts.2.length < cs.length := by
  unfold digits? at h
  split at h
  · simp at h
  · next hne =>
    obtain rfl := Option.some.inj h
    have hlen := congrArg List.length
      (List.takeWhile_append_dropWhile (p := Char.isDigit) (l := cs))
    rw [List.length_append] at hlen
    have : cs.takeWhile Char.isDigit ≠ [] := fun h0 =>
      hne (cs.dropWhile Char.isDigit) (by simp only [spanDigits, h0])
    have := List.length_pos_iff.2 this
    simp only [spanDigits]; omega

theorem length_readWhole? {cs : List Char} {parts : List Char × List Char}
    (h : readWhole? cs = some parts) : parts.2.length < cs.length := by
  unfold readWhole? at h
  split at h
  · simp at h
  · exact length_digits? h

theorem length_readFraction? {cs : List Char} {parts : Option (List Char) × List Char}
    (h : readFraction? cs = some parts) : parts.2.length ≤ cs.length := by
  unfold readFraction? at h
  split at h
  · obtain ⟨p, hp, rfl⟩ := Option.map_eq_some_iff.1 h
    have := length_digits? hp
    simp only [List.length_cons]; omega
  · obtain rfl := Option.some.inj h; simp

theorem length_readPower? {cs : List Char} {parts : (Bool × List Char) × List Char}
    (h : readPower? cs = some parts) : parts.2.length ≤ cs.length := by
  unfold readPower? at h
  split at h <;>
  · obtain ⟨p, hp, rfl⟩ := Option.map_eq_some_iff.1 h
    have := length_digits? hp
    simp only [List.length_cons]; omega

theorem length_readExponent? {cs : List Char} {parts : Option (Bool × List Char) × List Char}
    (h : readExponent? cs = some parts) : parts.2.length ≤ cs.length := by
  unfold readExponent? at h
  split at h
  · obtain ⟨p, hp, rfl⟩ := Option.map_eq_some_iff.1 h
    have := length_readPower? hp
    simp only [List.length_cons]; omega
  · obtain ⟨p, hp, rfl⟩ := Option.map_eq_some_iff.1 h
    have := length_readPower? hp
    simp only [List.length_cons]; omega
  · obtain rfl := Option.some.inj h; simp

theorem length_readUnsigned? {negative : Bool} {cs : List Char} {parts : Literal × List Char}
    (h : readUnsigned? negative cs = some parts) : parts.2.length < cs.length := by
  simp only [readUnsigned?, Option.bind_eq_some_iff, Option.map_eq_some_iff] at h
  obtain ⟨w, hw, f, hf, e, he, rfl⟩ := h
  have := length_readWhole? hw
  have := length_readFraction? hf
  have := length_readExponent? he
  simp only; omega

theorem length_read? {cs : List Char} {parts : Literal × List Char}
    (h : read? cs = some parts) : parts.2.length < cs.length := by
  unfold read? at h
  split at h
  · have := length_readUnsigned? h
    simp only [List.length_cons]; omega
  · exact length_readUnsigned? h

/-! ## Integers -/

/-- The integer that a literal denotes, if it is an integer literal. -/
def toInt? (l : Literal) : Option Int :=
  match l.fraction, l.exponent with
  | none, none =>
    let n := Nat.ofDigitChars 10 l.whole 0
    if l.negative then if n = 0 then none else some (-n) else some n
  | _, _ => none

/-- The literal of an integer. -/
def ofInt (i : Int) : Literal where
  negative := decide (i < 0)
  whole := Nat.toDigits 10 i.natAbs

theorem toInt?_ofInt (i : Int) : (ofInt i).toInt? = some i := by
  simp only [toInt?, ofInt, Nat.ofDigitChars_toDigits (b := 10) (by decide) (by decide)]
  by_cases h : i < 0
  · have : i.natAbs ≠ 0 := by omega
    simp only [h, decide_true, if_true, this, if_false]
    congr 1; omega
  · simp only [h, decide_false, Bool.false_eq_true, if_false]
    congr 1; omega

/-! ## Double precision -/

/-- Digits are taken into the significand while it stays below 2^64; the rest is handed back. -/
def significand (n : Nat) : List Char → Nat × List Char
  | [] => (n, [])
  | c :: cs =>
    let n' := n * 10 + (c.toNat - '0'.toNat)
    if n' < UInt64.size then significand n' cs else (n, c :: cs)

/-- `n` rounded to 53 significant bits, a half going to the even neighbour. -/
def roundToDouble (n : Nat) : Nat :=
  let shift := n.log2 - 52
  let q := n >>> shift
  let r := n - q <<< shift
  if 2 * r > 1 <<< shift ∨ (2 * r = 1 <<< shift ∧ q % 2 = 1 ∧ 0 < shift) then (q + 1) <<< shift
  else q <<< shift

/-- Whether `n · 10^e`, both factors rounded first, is a finite double. -/
def finiteScaled (n : Nat) (e : Int) : Bool :=
  n == 0 || e < 0 ||
    (e ≤ 308 && roundToDouble n * roundToDouble (Nat.pow 10 e.toNat) < 1 <<< 1024 - 1 <<< 970)

/-- Whether the number is finite in double precision. Digits that no longer fit the significand
count as powers of ten before the point and are dropped after it; an exponent that does not fit 31
bits decides by its sign. -/
def fitsDouble (l : Literal) : Bool :=
  let (n, overflow) := significand 0 l.whole
  let (n, scale) : Nat × Int :=
    match l.fraction with
    | none => (n, overflow.length)
    | some ds =>
      let (n', dropped) := significand n ds
      (n', (overflow.length : Int) - ((ds.length : Int) - dropped.length))
  match l.exponent with
  | none => (overflow.isEmpty && l.fraction.isNone) || finiteScaled n scale
  | some (negative, ds) =>
    let e := Nat.ofDigitChars 10 ds 0
    if e < 1 <<< 31 then finiteScaled n (if negative then scale - e else scale + e)
    else n == 0 || negative

end Literal

end ContainerInit.Json
