import ContainerInit.Json.Printer

/-!
# How JSON is spelled

- **Literals** (`Literal.WellFormed`, `Literal.read?_print`): a number that is written by the
  grammar is read as it was written, wherever no more of it can follow (`Literal.stopsAt`).
- **Strings** (`Spells`, `Spells.read`): between the quotes a character stands for itself, by a
  short escape, or by its number, beyond 16 bits by two of them. Every spelling of a text is read as
  that text; what is written for it is one of them (`spells_print`).
- **Trees** (`Tree.Whole`): trees in which nothing is missing, with their tokens (`Tree.tokens`) and
  their characters (`Tree.print_array`, `Tree.print_object`).
- **Visible characters** (`Visible`, `Tree.Whole.visible`): none of these characters is a control
  character.
-/

namespace ContainerInit.Json

/-! ## Literals -/

namespace Literal

/-- No more of a number can follow. -/
def stopsAt : List Char → Bool
  | [] => true
  | c :: _ => !(c.isDigit || c == '.' || c == 'e' || c == 'E')

/-- A text of digits. -/
structure Digits (ds : List Char) : Prop where
  ne_nil : ds ≠ []
  isDigit : ∀ c ∈ ds, c.isDigit = true

/-- A literal that keeps to the grammar. -/
structure WellFormed (l : Literal) : Prop where
  whole : Digits l.whole
  noZero : ∀ c ds, l.whole ≠ '0' :: c :: ds
  fraction : ∀ ds ∈ l.fraction, Digits ds
  exponent : ∀ e ∈ l.exponent, Digits e.2

variable {ds rest : List Char}

theorem Digits.append_ne (digits : Digits ds) {c : Char} {cs : List Char}
    (other : c.isDigit = false) : ds ++ rest ≠ c :: cs := by
  cases ds with
  | nil => exact absurd rfl digits.ne_nil
  | cons d ds =>
    rintro ⟨⟩
    rw [digits.isDigit _ List.mem_cons_self] at other
    cases other

theorem digits?_append (digits : Digits ds) (stops : ∀ c ∈ rest.head?, c.isDigit = false) :
    digits? (ds ++ rest) = some (ds, rest) := by
  have none_left : rest.takeWhile Char.isDigit = [] ∧ rest.dropWhile Char.isDigit = rest := by
    cases rest with
    | nil => exact ⟨rfl, rfl⟩
    | cons c cs =>
      have := stops c rfl
      simp [List.takeWhile, List.dropWhile, this]
  unfold digits? spanDigits
  rw [List.takeWhile_append_of_pos digits.isDigit, List.dropWhile_append_of_pos digits.isDigit,
    none_left.1, none_left.2, List.append_nil]
  cases hd : ds with
  | nil => exact absurd hd digits.ne_nil
  | cons => rfl

theorem isDigit_of_stopsAt (stops : stopsAt rest = true) : ∀ c ∈ rest.head?, c.isDigit = false := by
  cases rest with
  | nil => rintro _ ⟨⟩
  | cons c cs =>
    rintro _ ⟨⟩
    simp only [stopsAt, Bool.not_eq_true', Bool.or_eq_false_iff] at stops
    exact stops.1.1.1

/-- The exponent of a literal. -/
def printExponent : Option (Bool × List Char) → List Char
  | none => []
  | some (negative, ds) => 'e' :: (if negative then ['-'] else []) ++ ds

/-- The fraction of a literal. -/
def printFraction : Option (List Char) → List Char
  | none => []
  | some ds => '.' :: ds

theorem readExponent?_append {e : Option (Bool × List Char)} (digits : ∀ x ∈ e, Digits x.2)
    (stops : stopsAt rest = true) : readExponent? (printExponent e ++ rest) = some (e, rest) := by
  cases e with
  | none =>
    unfold readExponent? printExponent
    rw [List.nil_append]
    split
    · simp [stopsAt] at stops
    · simp [stopsAt] at stops
    · rfl
  | some x =>
    obtain ⟨negative, ds⟩ := x
    have power := digits?_append (digits _ rfl) (isDigit_of_stopsAt stops)
    cases negative with
    | true => simp [readExponent?, printExponent, readPower?, power]
    | false =>
      have first : readPower? (ds ++ rest) = some ((false, ds), rest) := by
        unfold readPower?
        split
        · rename_i h
          exact absurd h ((digits _ rfl).append_ne (by decide))
        · rename_i h
          exact absurd h ((digits _ rfl).append_ne (by decide))
        · rw [power]
          rfl
      simp [readExponent?, printExponent, first]

theorem readFraction?_append {f : Option (List Char)} (digits : ∀ ds ∈ f, Digits ds)
    (more : ∀ c ∈ rest.head?, c.isDigit = false ∧ c ≠ '.') :
    readFraction? (printFraction f ++ rest) = some (f, rest) := by
  cases f with
  | none =>
    unfold readFraction? printFraction
    rw [List.nil_append]
    split
    · exact absurd rfl (more _ rfl).2
    · rfl
  | some ds =>
    simp [readFraction?, printFraction, digits?_append (digits ds rfl) fun c hc => (more c hc).1]

theorem readWhole?_append (digits : Digits ds) (noZero : ∀ c cs, ds ≠ '0' :: c :: cs)
    (stops : ∀ c ∈ rest.head?, c.isDigit = false) : readWhole? (ds ++ rest) = some (ds, rest) := by
  unfold readWhole?
  rw [digits?_append digits stops]
  split
  · rename_i h
    cases h
    exact absurd rfl (noZero _ _)
  · rfl

theorem print_eq (l : Literal) : l.print =
    (if l.negative then ['-'] else []) ++ l.whole ++ printFraction l.fraction ++
      printExponent l.exponent := by
  cases l with
  | mk negative whole fraction exponent => cases fraction <;> cases exponent <;> rfl

/-- **A number is read as it was written.** -/
theorem read?_print {l : Literal} (formed : l.WellFormed) (stops : stopsAt rest = true) :
    read? (l.print ++ rest) = some (l, rest) := by
  obtain ⟨negative, whole, fraction, exponent⟩ := l
  have afterFraction : ∀ c ∈ (printExponent exponent ++ rest).head?,
      c.isDigit = false ∧ c ≠ '.' := by
    cases exponent with
    | none =>
      intro c hc
      refine ⟨isDigit_of_stopsAt stops c hc, ?_⟩
      rintro rfl
      cases rest with
      | nil => cases hc
      | cons d ds => cases hc; simp [stopsAt] at stops
    | some e => rintro _ ⟨⟩; decide
  have afterWhole : ∀ c ∈ (printFraction fraction ++ (printExponent exponent ++ rest)).head?,
      c.isDigit = false := by
    cases fraction with
    | none => exact fun c hc => (afterFraction c hc).1
    | some ds => rintro _ ⟨⟩; decide
  have unsigned : readUnsigned? negative
      (whole ++ (printFraction fraction ++ (printExponent exponent ++ rest))) =
        some (⟨negative, whole, fraction, exponent⟩, rest) := by
    simp only [readUnsigned?, readWhole?_append formed.whole formed.noZero afterWhole,
      Option.bind_some, readFraction?_append formed.fraction afterFraction,
      readExponent?_append formed.exponent stops, Option.map_some]
  rw [print_eq]
  simp only [List.append_assoc]
  cases negative with
  | true => exact unsigned
  | false =>
    unfold read?
    split
    · rename_i h
      exact absurd h (formed.whole.append_ne (by decide))
    · exact unsigned

/-- The first character of a number. -/
theorem print_head {l : Literal} (formed : l.WellFormed) :
    ∃ c cs, l.print = c :: cs ∧ (c = '-' ∨ c.isDigit = true) := by
  rw [print_eq]
  obtain ⟨negative, whole, fraction, exponent⟩ := l
  cases negative with
  | true => exact ⟨_, _, rfl, .inl rfl⟩
  | false =>
    cases whole with
    | nil => exact absurd rfl formed.whole.ne_nil
    | cons c cs => exact ⟨c, _, rfl, .inr (formed.whole.isDigit c List.mem_cons_self)⟩

/-- Only zero is written with a zero in front. -/
theorem eq_zero_of_toDigits {n : Nat} {ds : List Char} (h : Nat.toDigits 10 n = '0' :: ds) :
    n = 0 := by
  induction n using Nat.strongRecOn generalizing ds with
  | ind n ih =>
    rw [Nat.toDigits_eq_if (by decide)] at h
    split at h
    · rename_i small
      have digit : n.digitChar = '0' := (List.cons.inj h).1
      have value := Nat.toNat_digitChar_sub_48_of_lt_ten small
      rw [digit] at value
      exact value.symm
    · cases tens : Nat.toDigits 10 (n / 10) with
      | nil => exact absurd tens Nat.toDigits_ne_nil
      | cons d more =>
        rw [tens] at h
        have := ih (n / 10) (by omega) (by rw [tens, (List.cons.inj h).1])
        omega

/-- A literal of an integer keeps to the grammar. -/
theorem wellFormed_ofInt (i : Int) : (ofInt i).WellFormed where
  whole := ⟨Nat.toDigits_ne_nil, fun _ => Nat.isDigit_of_mem_toDigits (by decide) (by decide)⟩
  noZero c ds h := by
    have zero := eq_zero_of_toDigits h
    rw [show (ofInt i).whole = Nat.toDigits 10 i.natAbs from rfl, zero] at h
    cases h
  fraction _ h := nomatch h
  exponent _ h := nomatch h

end Literal

/-! ## Strings -/

/-- The characters between the quotes of a string, second, spell the text, first. -/
inductive Spells : List Char → List Char → Prop
  | nil : Spells [] []
  | plain {c : Char} {text cs : List Char} (plain : c ≠ '"' ∧ c ≠ '\\')
    (visible : ¬ c.toNat < 0x20) (more : Spells text cs) : Spells (c :: text) (c :: cs)
  | short {e c : Char} {text cs : List Char} (short : shortEscape? e = some c)
    (more : Spells text cs) : Spells (c :: text) ('\\' :: e :: cs)
  /-- A character of 16 bits, by its number. -/
  | unit {p q r s : Char} {n : Nat} {text cs : List Char} (hex : hexUnit? p q r s = some n)
    (single : n < 0xd800 ∨ 0xdfff < n) (more : Spells text cs) :
    Spells (Char.ofNat n :: text) ('\\' :: 'u' :: p :: q :: r :: s :: cs)
  /-- A character beyond 16 bits, by two surrogates. -/
  | pair {p q r s p' q' r' s' : Char} {n m : Nat} {text cs : List Char}
    (first : hexUnit? p q r s = some n) (high : 0xd800 ≤ n ∧ n ≤ 0xdbff)
    (second : hexUnit? p' q' r' s' = some m) (low : 0xdc00 ≤ m ∧ m ≤ 0xdfff)
    (more : Spells text cs) :
    Spells (Char.ofNat (0x10000 + (n - 0xd800) * 0x400 + (m - 0xdc00)) :: text)
      ('\\' :: 'u' :: p :: q :: r :: s :: '\\' :: 'u' :: p' :: q' :: r' :: s' :: cs)

section Strings

variable {text cs : List Char}

theorem hexUnit?_hexDigit : ∀ n < 0x20,
    hexUnit? '0' '0' (hexDigit (n / 16)) (hexDigit (n % 16)) = some n := by
  decide

theorem readString?_cons (c : Char) (cs : List Char) (plain : c ≠ '"' ∧ c ≠ '\\')
    (visible : ¬ c.toNat < 0x20) :
    readString? (c :: cs) = (readString? cs).map fun parts => (.char c :: parts.1, parts.2) := by
  rw [readString?.eq_def]
  simp [plain, visible]

theorem readString?_short {e c : Char} (cs : List Char) (short : shortEscape? e = some c) :
    readString? ('\\' :: e :: cs) =
      (readString? cs).map fun parts => (.char c :: parts.1, parts.2) := by
  have named : e ≠ 'u' := by rintro rfl; cases short
  rw [readString?.eq_def]
  simp [short, named]

theorem readString?_unit {p q r s : Char} {n : Nat} (hex : hexUnit? p q r s = some n) :
    readString? ('\\' :: 'u' :: p :: q :: r :: s :: cs) =
      (readString? cs).map fun parts => (.unit n :: parts.1, parts.2) := by
  rw [readString?.eq_def]
  simp [hex]

/-- **A string is read as the text it spells.** -/
theorem Spells.read (spells : Spells text cs) (rest : List Char) :
    ∃ units, readString? (cs ++ '"' :: rest) = some (units, rest) ∧
      joinUnits? units = some text := by
  induction spells with
  | nil => exact ⟨[], by rw [List.nil_append, readString?.eq_def]; rfl, rfl⟩
  | @plain c _ _ plain visible _ ih =>
    obtain ⟨units, read, joined⟩ := ih
    refine ⟨.char c :: units, ?_, ?_⟩
    · rw [List.cons_append, readString?_cons _ _ plain visible, read]
      rfl
    · rw [joinUnits?, joined]
      rfl
  | @short _ c _ _ short _ ih =>
    obtain ⟨units, read, joined⟩ := ih
    refine ⟨.char c :: units, ?_, ?_⟩
    · rw [List.cons_append, List.cons_append, readString?_short _ short, read]
      rfl
    · rw [joinUnits?, joined]
      rfl
  | @unit _ _ _ _ n _ _ hex single _ ih =>
    obtain ⟨units, read, joined⟩ := ih
    refine ⟨.unit n :: units, ?_, ?_⟩
    · simp only [List.cons_append, readString?_unit hex, read]
      rfl
    · rw [joinUnits?.eq_def]
      simp only
      rw [if_neg (by omega), if_neg (by omega), joined]
      rfl
  | @pair _ _ _ _ _ _ _ _ n m _ _ first high second low _ ih =>
    obtain ⟨units, read, joined⟩ := ih
    refine ⟨.unit n :: .unit m :: units, ?_, ?_⟩
    · simp only [List.cons_append, readString?_unit first, readString?_unit second, read]
      rfl
    · rw [joinUnits?.eq_def]
      simp only
      rw [if_pos high, if_pos low, joined]
      rfl

/-- What is written for a character is one of its spellings. -/
theorem Spells.printChar_append (c : Char) (more : Spells text cs) :
    Spells (c :: text) (printChar c ++ cs) := by
  unfold printChar
  iterate 7
    split
    · subst c; exact .short rfl more
  split
  · rename_i control
    have unit := Spells.unit (hexUnit?_hexDigit c.toNat control) (.inl (by omega)) more
    rwa [Char.ofNat_toNat] at unit
  · exact .plain ⟨‹_›, ‹_›⟩ ‹_› more

theorem spells_print (text : List Char) : Spells text (text.flatMap printChar) := by
  induction text with
  | nil => exact .nil
  | cons c text ih => exact ih.printChar_append c

end Strings

/-! ## Trees -/

/-- A tree in which nothing is missing. -/
inductive Tree.Whole : Tree → Prop
  | null : Whole .null
  | bool (b : Bool) : Whole (.bool b)
  | number {l : Literal} (formed : l.WellFormed) : Whole (.number l)
  | string (s : String) : Whole (.string (some s))
  | array {items : List Tree} (whole : ∀ t ∈ items, Whole t) : Whole (.array items true)
  | object {members : List Member} (named : ∀ m ∈ members, m.1.isSome = true)
    (whole : ∀ m ∈ members, Whole m.2) : Whole (.object members true)

namespace Tree

mutual

/-- The tokens of a tree in which nothing is missing. -/
def tokens : Tree → List Token
  | .null => [.null]
  | .bool b => [.bool b]
  | .number l => [.number l]
  | .string s => [.string s]
  | .array [] _ => [.openArray, .closeArray]
  | .array (t :: ts) _ => .openArray :: t.tokens ++ moreItems ts
  | .object [] _ => [.openObject, .closeObject]
  | .object (m :: ms) _ =>
    .openObject :: .string m.1 :: .colon :: m.2.tokens ++ moreMembers ms
  | .fault => [.fault]

/-- The tokens after an item of an array. -/
def moreItems : List Tree → List Token
  | [] => [.closeArray]
  | t :: ts => .comma :: t.tokens ++ moreItems ts

/-- The tokens after a member of an object. -/
def moreMembers : List Member → List Token
  | [] => [.closeObject]
  | m :: ms => .comma :: .string m.1 :: .colon :: m.2.tokens ++ moreMembers ms

end

/-- The characters after an item of an array. -/
def printMore (ts : List Tree) : List Char :=
  ts.flatMap (fun t => ',' :: t.print) ++ [']']

theorem print_array (t : Tree) (ts : List Tree) (closed : Bool) :
    (Tree.array (t :: ts) closed).print = '[' :: (t.print ++ printMore ts) := by
  have items (t : Tree) : printItems (t :: ts) = t.print ++ ts.flatMap fun u => ',' :: u.print := by
    induction ts generalizing t with
    | nil => simp [printItems]
    | cons u us ih =>
      rw [printItems, ih]
      · simp
      · nofun
  simp [print, items, printMore]

/-- The characters of a member. -/
def printMember (m : Member) : List Char :=
  printString (m.1.getD "").toList ++ ':' :: m.2.print

/-- The characters after a member of an object. -/
def printMoreMembers (ms : List Member) : List Char :=
  ms.flatMap (fun m => ',' :: printMember m) ++ ['\x7d']

theorem print_object (m : Member) (ms : List Member) (closed : Bool) :
    (Tree.object (m :: ms) closed).print = '\x7b' :: (printMember m ++ printMoreMembers ms) := by
  have members : ∀ m : Member, printMembers (m :: ms) =
      printMember m ++ ms.flatMap fun n => ',' :: printMember n := by
    induction ms with
    | nil => intro m; simp [printMembers, printMember]
    | cons n ns ih =>
      intro m
      rw [printMembers, ih]
      · simp [printMember]
      · nofun
  simp [print, members, printMoreMembers]

end Tree

/-! ## Visible characters -/

/-- A text without control characters. -/
def Visible (cs : List Char) : Prop :=
  ∀ c ∈ cs, 0x20 ≤ c.toNat

instance (cs : List Char) : Decidable (Visible cs) :=
  decidable_of_decidable_of_iff (p := cs.all (fun c => decide (0x20 ≤ c.toNat)) = true)
    (by simp [Visible])

theorem visible_cons {c : Char} {cs : List Char} :
    Visible (c :: cs) ↔ 0x20 ≤ c.toNat ∧ Visible cs :=
  List.forall_mem_cons

theorem visible_append {as bs : List Char} : Visible (as ++ bs) ↔ Visible as ∧ Visible bs :=
  List.forall_mem_append

theorem Literal.Digits.visible {ds : List Char} (digits : Literal.Digits ds) : Visible ds := by
  intro c hc
  exact Nat.le_trans (by decide) (Char.isDigit_iff_toNat.1 (digits.isDigit c hc)).1

theorem Literal.WellFormed.visible {l : Literal} (formed : l.WellFormed) : Visible l.print := by
  obtain ⟨negative, whole, fraction, exponent⟩ := l
  have sign : ∀ b : Bool, Visible (if b then ['-'] else []) := by
    intro b c hc
    cases b with
    | true => obtain rfl := List.mem_singleton.1 hc; decide
    | false => cases hc
  rw [Literal.print_eq, visible_append, visible_append, visible_append]
  refine ⟨⟨⟨sign negative, formed.whole.visible⟩, ?_⟩, ?_⟩
  · cases fraction with
    | none => exact nofun
    | some ds => exact visible_cons.2 ⟨by decide, (formed.fraction ds rfl).visible⟩
  · cases exponent with
    | none => exact nofun
    | some e =>
      exact visible_cons.2 ⟨by decide, visible_append.2 ⟨sign e.1, (formed.exponent e rfl).visible⟩⟩

theorem visible_printChar (c : Char) : Visible (printChar c) := by
  unfold printChar
  iterate 7
    split
    · decide
  split
  · rename_i control
    have : ∀ n < 0x20, Visible ['\\', 'u', '0', '0', hexDigit (n / 16), hexDigit (n % 16)] := by
      decide
    exact this _ control
  · rename_i visible
    exact visible_cons.2 ⟨by omega, nofun⟩

theorem visible_printString (s : List Char) : Visible (printString s) := by
  refine visible_cons.2 ⟨by decide, visible_append.2 ⟨?_, by decide⟩⟩
  intro c hc
  obtain ⟨d, -, hd⟩ := List.mem_flatMap.1 hc
  exact visible_printChar d c hd

/-- **A tree is written without control characters,** whatever its strings hold. -/
theorem Tree.Whole.visible {t : Tree} (whole : t.Whole) : Visible t.print := by
  induction whole with
  | null => decide
  | bool b => cases b <;> decide
  | number formed => exact formed.visible
  | string s => exact visible_printString _
  | @array items whole ih =>
    cases items with
    | nil => decide
    | cons t ts =>
      rw [Tree.print_array]
      refine visible_cons.2 ⟨by decide, visible_append.2 ⟨ih t List.mem_cons_self,
        visible_append.2 ⟨?_, by decide⟩⟩⟩
      intro c hc
      obtain ⟨u, hu, hc⟩ := List.mem_flatMap.1 hc
      exact visible_cons.2 ⟨by decide, ih u (List.mem_cons_of_mem _ hu)⟩ c hc
  | @object members named whole ih =>
    cases members with
    | nil => decide
    | cons m ms =>
      have member : ∀ n ∈ m :: ms, Visible (Tree.printMember n) := fun n hn =>
        visible_append.2 ⟨visible_printString _, visible_cons.2 ⟨by decide, ih n hn⟩⟩
      rw [Tree.print_object]
      refine visible_cons.2 ⟨by decide, visible_append.2 ⟨member m List.mem_cons_self,
        visible_append.2 ⟨?_, by decide⟩⟩⟩
      intro c hc
      obtain ⟨n, hn, hc⟩ := List.mem_flatMap.1 hc
      exact visible_cons.2 ⟨by decide, member n (List.mem_cons_of_mem _ hn)⟩ c hc

end ContainerInit.Json
