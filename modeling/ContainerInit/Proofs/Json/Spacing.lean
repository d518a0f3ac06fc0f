import ContainerInit.Proofs.Json.Spelling
import Mathlib.Data.List.Chain

/-!
# The tokens of a text, however it is spaced

- **Layouts** (`Laid`): texts in which tokens stand one after another, each in one of its spellings,
  with white space before, between and after them.
- **Scanning** (`scan_laid`): the tokens of a layout are found again where no number follows another
  directly (`Apart`), and in a tree none does (`Tree.Whole.apart`).
- **What is written** (`Tree.Whole.laid_print`): the text that is written for a tree is one of the
  layouts of its tokens.
-/

namespace ContainerInit.Json

/-! ## Layouts -/

/-- The ways to spell a token. -/
inductive Token.Spelling : Token → List Char → Prop
  | openArray : Spelling .openArray ['[']
  | closeArray : Spelling .closeArray [']']
  | openObject : Spelling .openObject ['\x7b']
  | closeObject : Spelling .closeObject ['\x7d']
  | comma : Spelling .comma [',']
  | colon : Spelling .colon [':']
  | null : Spelling .null ['n', 'u', 'l', 'l']
  | boolTrue : Spelling (.bool true) ['t', 'r', 'u', 'e']
  | boolFalse : Spelling (.bool false) ['f', 'a', 'l', 's', 'e']
  | number {l : Literal} (formed : l.WellFormed) : Spelling (.number l) l.print
  | string {s : String} {cs : List Char} (spells : Spells s.toList cs) :
    Spelling (.string (some s)) ('"' :: cs ++ ['"'])

/-- Texts that consist of the given tokens and of white space anywhere around them. -/
inductive Laid : List Token → List Char → Prop
  | done : Laid [] []
  | space {c : Char} {ks : List Token} {cs : List Char} (space : isSpace c = true)
    (more : Laid ks cs) : Laid ks (c :: cs)
  | token {k : Token} {ks : List Token} {s cs : List Char} (spelling : k.Spelling s)
    (more : Laid ks cs) : Laid (k :: ks) (s ++ cs)

/-- Whether a token is a number. -/
def Token.isNumber : Token → Bool
  | .number _ => true
  | _ => false

/-- No number follows a number directly. -/
abbrev Apart (ks : List Token) : Prop :=
  ks.IsChain fun k next => k.isNumber = true → next.isNumber = false

variable {k : Token} {ks : List Token} {cs rest : List Char}

/-! ## Scanning -/

/-- The first character of a token that is no number does not continue one. -/
theorem Token.Spelling.stopsAt {s : List Char} (spelling : k.Spelling s)
    (other : k.isNumber = false) : Literal.stopsAt (s ++ rest) = true := by
  cases spelling with
  | number => cases other
  | _ => rfl

theorem Laid.stopsAt (laid : Laid ks cs) (other : ∀ k ∈ ks.head?, k.isNumber = false) :
    Literal.stopsAt cs = true := by
  cases laid with
  | done => rfl
  | space space =>
    simp only [isSpace, Bool.or_eq_true, beq_iff_eq] at space
    rcases space with ((rfl | rfl) | rfl) | rfl <;> rfl
  | token spelling => exact spelling.stopsAt (other _ rfl)

theorem scan_cons {c : Char} (dark : isSpace c = false) :
    scan (c :: cs) = (Token.ofChars c cs).1 :: scan (Token.ofChars c cs).2 := by
  rw [scan.eq_def]
  simp [dark]

theorem scan_string {s : String} (spells : Spells s.toList cs) :
    scan ('"' :: cs ++ ['"'] ++ rest) = .string (some s) :: scan rest := by
  obtain ⟨units, read, joined⟩ := spells.read rest
  have token : Token.ofChars '"' (cs ++ '"' :: rest) = (.string (some s), rest) := by
    simp [Token.ofChars, read, joined, String.ofList_toList]
  have split : '"' :: cs ++ ['"'] ++ rest = '"' :: (cs ++ '"' :: rest) := by
    simp
  rw [split, scan_cons rfl, token]

/-- A character that starts a number is no other mark. -/
theorem ne_of_number {c : Char} (start : c = '-' ∨ c.isDigit = true) (d : Char)
    (mark : d ≠ '-' ∧ d.isDigit = false) : c ≠ d := by
  rintro rfl
  rcases start with rfl | start
  · exact mark.1 rfl
  · rw [mark.2] at start
    cases start

theorem scan_number {l : Literal} (formed : l.WellFormed) (stops : Literal.stopsAt rest = true) :
    scan (l.print ++ rest) = .number l :: scan rest := by
  have read := Literal.read?_print formed stops
  obtain ⟨c, cs, print, start⟩ := Literal.print_head formed
  have other := ne_of_number start
  rw [print, List.cons_append] at read ⊢
  have dark : isSpace c = false := by
    simp [isSpace, other ' ' (by decide), other '\n' (by decide), other '\r' (by decide),
      other '\t' (by decide)]
  have token : Token.ofChars c (cs ++ rest) = (.number l, rest) := by
    unfold Token.ofChars
    iterate 10 rw [if_neg (other _ (by decide))]
    rw [read]
  rw [scan_cons dark, token]

theorem scan_spelling {s : List Char} (spelling : k.Spelling s)
    (stops : k.isNumber = true → Literal.stopsAt rest = true) :
    scan (s ++ rest) = k :: scan rest := by
  cases spelling with
  | number formed => exact scan_number formed (stops rfl)
  | string spells => exact scan_string spells
  | _ => exact scan_cons rfl

/-- **The tokens of a text are found again,** however they are spelled and spaced. -/
theorem scan_laid (laid : Laid ks cs) (apart : Apart ks) : scan cs = ks := by
  induction laid with
  | done => rw [scan.eq_def]
  | space space _ ih =>
    rw [scan.eq_def]
    simp [space, ih apart]
  | token spelling more ih =>
    obtain ⟨next, apart⟩ := List.isChain_cons.1 apart
    rw [scan_spelling spelling fun number => more.stopsAt fun k hk => next k hk number, ih apart]

/-! ## The tokens of a tree -/

section Trees

variable {t : Tree}

theorem Apart.cons (mark : k.isNumber = false) (apart : Apart ks) : Apart (k :: ks) := by
  refine List.isChain_cons.2 ⟨fun _ _ number => ?_, apart⟩
  rw [mark] at number
  cases number

/-- No number stands between the tokens of a tree and those that follow. -/
def Tree.StaysApart (t : Tree) : Prop :=
  ∀ ks : List Token, (∀ k ∈ ks.head?, k.isNumber = false) → Apart ks → Apart (t.tokens ++ ks)

theorem apart_moreItems {ts : List Tree} (each : ∀ t ∈ ts, t.StaysApart) (apart : Apart ks) :
    Apart (Tree.moreItems ts ++ ks) := by
  induction ts with
  | nil => exact apart.cons rfl
  | cons t ts ih =>
    have next : ∀ k ∈ (Tree.moreItems ts ++ ks).head?, k.isNumber = false := by
      cases ts <;> rintro _ ⟨⟩ <;> rfl
    have more := ih fun u hu => each u (List.mem_cons_of_mem _ hu)
    have item := each t List.mem_cons_self _ next more
    simpa [Tree.moreItems] using item.cons (k := .comma) rfl

theorem apart_moreMembers {ms : List Member} (each : ∀ m ∈ ms, m.2.StaysApart) (apart : Apart ks) :
    Apart (Tree.moreMembers ms ++ ks) := by
  induction ms with
  | nil => exact apart.cons rfl
  | cons m ms ih =>
    have next : ∀ k ∈ (Tree.moreMembers ms ++ ks).head?, k.isNumber = false := by
      cases ms <;> rintro _ ⟨⟩ <;> rfl
    have more := ih fun n hn => each n (List.mem_cons_of_mem _ hn)
    have value := each m List.mem_cons_self _ next more
    simpa [Tree.moreMembers] using
      ((value.cons (k := .colon) rfl).cons (k := .string m.1) rfl).cons (k := .comma) rfl

/-- In a tree a number is followed by a mark. -/
theorem Tree.Whole.apart (whole : t.Whole) : t.StaysApart := by
  induction whole with
  | number => exact fun ks next apart => List.isChain_cons.2 ⟨fun k hk _ => next k hk, apart⟩
  | @array items whole ih =>
    intro ks next apart
    cases items with
    | nil => exact (apart.cons rfl).cons rfl
    | cons t ts =>
      have more := apart_moreItems (fun u hu => ih u (List.mem_cons_of_mem _ hu)) apart
      have next : ∀ k ∈ (Tree.moreItems ts ++ ks).head?, k.isNumber = false := by
        cases ts <;> rintro _ ⟨⟩ <;> rfl
      simpa [Tree.tokens] using (ih t List.mem_cons_self _ next more).cons (k := .openArray) rfl
  | @object members named whole ih =>
    intro ks next apart
    cases members with
    | nil => exact (apart.cons rfl).cons rfl
    | cons m ms =>
      have more := apart_moreMembers (fun n hn => ih n (List.mem_cons_of_mem _ hn)) apart
      have next : ∀ k ∈ (Tree.moreMembers ms ++ ks).head?, k.isNumber = false := by
        cases ms <;> rintro _ ⟨⟩ <;> rfl
      have value := ih m List.mem_cons_self _ next more
      simpa [Tree.tokens] using
        ((value.cons (k := .colon) rfl).cons (k := .string m.1) rfl).cons (k := .openObject) rfl
  | _ => exact fun ks _ apart => apart.cons rfl

/-- **Every layout of a tree has the tokens of the tree.** -/
theorem Tree.Whole.scan_laid (whole : t.Whole) (laid : Laid t.tokens cs) : scan cs = t.tokens := by
  have apart : Apart (t.tokens ++ []) := whole.apart [] nofun .nil
  rw [List.append_nil] at apart
  exact Json.scan_laid laid apart

/-! ## What is written -/

theorem laid_printString {s : String} (more : Laid ks rest) :
    Laid (.string (some s) :: ks) (printString s.toList ++ rest) :=
  .token (.string (spells_print _)) more

/-- A tree is written as one of its layouts, in front of whatever follows. -/
def Tree.PrintLaid (t : Tree) : Prop :=
  ∀ {ks : List Token} {rest : List Char}, Laid ks rest → Laid (t.tokens ++ ks) (t.print ++ rest)

theorem laid_printMore {ts : List Tree} (each : ∀ t ∈ ts, t.PrintLaid) (more : Laid ks rest) :
    Laid (Tree.moreItems ts ++ ks) (Tree.printMore ts ++ rest) := by
  induction ts with
  | nil => exact .token .closeArray more
  | cons t ts ih =>
    have item := each t List.mem_cons_self (ih fun u hu => each u (List.mem_cons_of_mem _ hu))
    simpa [Tree.moreItems, Tree.printMore] using item.token .comma

theorem laid_printMember {m : Member} (named : m.1.isSome = true)
    (value : Laid (m.2.tokens ++ ks) (m.2.print ++ rest)) :
    Laid (.string m.1 :: .colon :: m.2.tokens ++ ks) (Tree.printMember m ++ rest) := by
  obtain ⟨name, t⟩ := m
  obtain ⟨s, rfl⟩ := Option.isSome_iff_exists.1 named
  simpa [Tree.printMember] using laid_printString (s := s) (value.token .colon)

theorem laid_printMoreMembers {ms : List Member} (named : ∀ m ∈ ms, m.1.isSome = true)
    (each : ∀ m ∈ ms, m.2.PrintLaid) (more : Laid ks rest) :
    Laid (Tree.moreMembers ms ++ ks) (Tree.printMoreMembers ms ++ rest) := by
  induction ms with
  | nil => exact .token .closeObject more
  | cons m ms ih =>
    have member := laid_printMember (named m List.mem_cons_self) (each m List.mem_cons_self
      (ih (fun n hn => named n (List.mem_cons_of_mem _ hn))
        fun n hn => each n (List.mem_cons_of_mem _ hn)))
    simpa [Tree.moreMembers, Tree.printMoreMembers] using member.token .comma

theorem Tree.Whole.printLaid (whole : t.Whole) : t.PrintLaid := by
  induction whole with
  | null => exact .token .null
  | bool b => cases b with
    | true => exact .token .boolTrue
    | false => exact .token .boolFalse
  | number formed => exact .token (.number formed)
  | string s => exact laid_printString
  | @array items whole ih =>
    intro ks rest more
    cases items with
    | nil =>
      show Laid _ ('[' :: ']' :: rest)
      exact .token .openArray (.token .closeArray more)
    | cons t ts =>
      have items := ih t List.mem_cons_self
        (laid_printMore (fun u hu => ih u (List.mem_cons_of_mem _ hu)) more)
      simpa [Tree.print_array, Tree.tokens] using items.token .openArray
  | @object members named whole ih =>
    intro ks rest more
    cases members with
    | nil =>
      show Laid _ ('\x7b' :: '\x7d' :: rest)
      exact .token .openObject (.token .closeObject more)
    | cons m ms =>
      have members := laid_printMember (named m List.mem_cons_self) (ih m List.mem_cons_self
        (laid_printMoreMembers (fun n hn => named n (List.mem_cons_of_mem _ hn))
          (fun n hn => ih n (List.mem_cons_of_mem _ hn)) more))
      simpa [Tree.print_object, Tree.tokens] using members.token .openObject

/-- **What is written for a tree is one of its layouts.** -/
theorem Tree.Whole.laid_print (whole : t.Whole) : Laid t.tokens t.print := by
  simpa using whole.printLaid .done

end Trees

end ContainerInit.Json
