import ContainerInit.Json.Literal

/-!
# Tokens of JSON text

- **Strings** (`readString?`): the units of a string up to its closing quote. Raw control
  characters and unknown escapes are faults. `joinUnits?` puts escaped surrogate pairs together;
  an unpaired surrogate leaves a string without text, but with an end.
- **Tokens** (`Token`): what a text consists of. A literal keeps its parts, a string its text.
- **Scanning** (`scan`): the tokens of a text, up to the first place where there is none; that
  place is the last token, `fault`. Each token takes at least one character
  (`length_ofChars_lt`), so scanning ends.
-/

namespace ContainerInit.Json

/-! ## Strings -/

/-- One element of a written string: a character, or a code unit given by number. -/
inductive TextUnit where
  | char (c : Char)
  | unit (n : Nat)
  deriving DecidableEq

/-- The value of a hexadecimal digit. -/
def hexValue? (c : Char) : Option Nat :=
  if '0' ≤ c ∧ c ≤ '9' then some (c.toNat - '0'.toNat)
  else if 'a' ≤ c ∧ c ≤ 'f' then some (c.toNat - 'a'.toNat + 10)
  else if 'A' ≤ c ∧ c ≤ 'F' then some (c.toNat - 'A'.toNat + 10)
  else none

/-- The number that four hexadecimal digits spell. -/
def hexUnit? (a b c d : Char) : Option Nat :=
  match hexValue? a, hexValue? b, hexValue? c, hexValue? d with
  | some w, some x, some y, some z => some (((w * 16 + x) * 16 + y) * 16 + z)
  | _, _, _, _ => none

/-- The character that a short escape stands for. -/
def shortEscape? (c : Char) : Option Char :=
  if c = '\"' then some '\"'
  else if c = '\\' then some '\\'
  else if c = '/' then some '/'
  else if c = 'b' then some '\x08'
  else if c = 'f' then some '\x0c'
  else if c = 'n' then some '\n'
  else if c = 'r' then some '\r'
  else if c = 't' then some '\t'
  else none

/-- The units of a string whose opening quote has been read, and the text after its closing one. -/
def readString? : List Char → Option (List TextUnit × List Char)
  | [] => none
  | c :: rest =>
    if c = '\"' then some ([], rest)
    else if c = '\\' then
      match rest with
      | [] => none
      | e :: rest =>
        if e = 'u' then
          match rest with
          | a :: b :: c :: d :: rest =>
            (hexUnit? a b c d).bind fun n =>
              (readString? rest).map fun parts => (.unit n :: parts.1, parts.2)
          | _ => none
        else
          (shortEscape? e).bind fun c =>
            (readString? rest).map fun parts => (.char c :: parts.1, parts.2)
    else if c.toNat < 0x20 then none
    else (readString? rest).map fun parts => (.char c :: parts.1, parts.2)

/-- The characters that units stand for; nothing if a surrogate stands without its partner. -/
def joinUnits? : List TextUnit → Option (List Char)
  | [] => some []
  | .char c :: rest => (joinUnits? rest).map (c :: ·)
  | .unit n :: rest =>
    if 0xd800 ≤ n ∧ n ≤ 0xdbff then
      match rest with
      | .unit m :: rest =>
        if 0xdc00 ≤ m ∧ m ≤ 0xdfff then
          (joinUnits? rest).map
            (Char.ofNat (0x10000 + (n - 0xd800) * 0x400 + (m - 0xdc00)) :: ·)
        else none
      | _ => none
    else if 0xdc00 ≤ n ∧ n ≤ 0xdfff then none
    else (joinUnits? rest).map (Char.ofNat n :: ·)

/-! ## Tokens -/

/-- What a JSON text consists of. -/
inductive Token where
  | openArray
  | closeArray
  | openObject
  | closeObject
  | comma
  | colon
  | null
  | bool (b : Bool)
  | number (l : Literal)
  /-- A string; it has no text if it holds an unpaired surrogate. -/
  | string (text : Option String)
  /-- A place where no token starts. -/
  | fault
  deriving DecidableEq

/-- White space that separates tokens. -/
def isSpace (c : Char) : Bool :=
  c == ' ' || c == '\n' || c == '\r' || c == '\t'

namespace Token

/-- What follows the characters of a word, if the text starts with them. -/
def afterWord? : List Char → List Char → Option (List Char)
  | [], cs => some cs
  | _ :: _, [] => none
  | w :: ws, c :: cs => if w = c then afterWord? ws cs else none

/-- A token that is a word. -/
def ofWord (word : List Char) (t : Token) (cs : List Char) : Token × List Char :=
  match afterWord? word cs with
  | some rest => (t, rest)
  | none => (.fault, [])

/-- The token that starts with the character `c`, before `cs`; and the text after the token. After
a fault nothing is left. -/
def ofChars (c : Char) (cs : List Char) : Token × List Char :=
  if c = '[' then (.openArray, cs)
  else if c = ']' then (.closeArray, cs)
  else if c = '\x7b' then (.openObject, cs)
  else if c = '\x7d' then (.closeObject, cs)
  else if c = ',' then (.comma, cs)
  else if c = ':' then (.colon, cs)
  else if c = 'n' then ofWord ['u', 'l', 'l'] .null cs
  else if c = 't' then ofWord ['r', 'u', 'e'] (.bool true) cs
  else if c = 'f' then ofWord ['a', 'l', 's', 'e'] (.bool false) cs
  else if c = '\"' then
    match readString? cs with
    | some (units, rest) => (.string ((joinUnits? units).map String.ofList), rest)
    | none => (.fault, [])
  else
    match Literal.read? (c :: cs) with
    | some (l, rest) => (.number l, rest)
    | none => (.fault, [])

theorem length_afterWord? {ws cs rest : List Char} (h : afterWord? ws cs = some rest) :
    rest.length ≤ cs.length := by
  induction ws generalizing cs with
  | nil => simp [afterWord?] at h; simp [h]
  | cons w ws ih =>
    cases cs with
    | nil => simp [afterWord?] at h
    | cons c cs =>
      simp only [afterWord?] at h
      split at h
      · have := ih h; simp only [List.length_cons]; omega
      · simp at h

theorem length_ofWord (word : List Char) (t : Token) (cs : List Char) :
    (ofWord word t cs).2.length ≤ cs.length := by
  unfold ofWord
  split
  · next h => exact length_afterWord? h
  · simp

end Token

theorem length_readString? {cs rest : List Char} {units : List TextUnit}
    (h : readString? cs = some (units, rest)) : rest.length < cs.length := by
  fun_induction readString? cs generalizing units rest with
  | case1 => simp at h
  | case2 => simp at h; simp [h.2]
  | case3 => simp at h
  | case4 _ _ _ _ _ _ ih =>
    simp only [Option.bind_eq_some_iff, Option.map_eq_some_iff] at h
    obtain ⟨_, -, parts, hr, he⟩ := h
    have := ih hr
    simp only [Prod.mk.injEq] at he
    obtain ⟨-, rfl⟩ := he
    simp only [List.length_cons]; omega
  | case5 => simp at h
  | case6 c _ _ _ ih =>
    simp only [Option.bind_eq_some_iff, Option.map_eq_some_iff] at h
    obtain ⟨_, -, parts, hr, he⟩ := h
    have := ih hr
    simp only [Prod.mk.injEq] at he
    obtain ⟨-, rfl⟩ := he
    simp only [List.length_cons]; omega
  | case7 => simp at h
  | case8 c _ _ _ _ ih =>
    simp only [Option.map_eq_some_iff] at h
    obtain ⟨parts, hr, he⟩ := h
    have := ih hr
    simp only [Prod.mk.injEq] at he
    obtain ⟨-, rfl⟩ := he
    simp only [List.length_cons]; omega

/-- **Each token takes at least one character.** -/
theorem Token.length_ofChars_lt (c : Char) (cs : List Char) :
    (ofChars c cs).2.length < (c :: cs).length := by
  have word (w : List Char) (t : Token) : (ofWord w t cs).2.length < (c :: cs).length := by
    have := length_ofWord w t cs
    simp only [List.length_cons]; omega
  unfold ofChars
  iterate 6 (split; · simp)
  iterate 3 (split; · exact word _ _)
  split
  · split
    · next h => have := length_readString? h; simp only [List.length_cons]; omega
    · simp
  · split
    · next h => exact Literal.length_read? h
    · simp

/-- The tokens of a text, up to the first fault. -/
def scan (cs : List Char) : List Token :=
  match cs with
  | [] => []
  | c :: cs =>
    if isSpace c then scan cs
    else (Token.ofChars c cs).1 :: scan (Token.ofChars c cs).2
termination_by cs.length
decreasing_by
  · simp
  · exact Token.length_ofChars_lt c cs

end ContainerInit.Json
