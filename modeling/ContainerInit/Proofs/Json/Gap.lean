import ContainerInit.Proofs.Json.Occurrence

/-!
# A value with one place left open

- **Gaps** (`Gap`): a value but for one place, which lies at the end of a path (`Gap.Leads`), and
  which a tree may fill (`Gap.fill`).
- **Tokens** (`Gap.tokens_fill`): those before the place, those of what fills it, and those after
  it.
- **Texts** (`scan_append`, `Gap.Whole.decode_fill`): what stands before the place is scanned
  whatever follows it, and a text with a layout in the place is decoded as the filled gap is read.
- **Writing** (`Gap.print_fill`, `Gap.laid_print`): what is written for a filled gap is what is
  written for what fills it, between layouts of what stands around the place.
- **Building** (`Document.build_gap`): the reader gets to the place with the containers around it
  open; where no value stands there, or more than one, the text is no value (`Document.build_fault`,
  `Document.build_twice`).
- **Sound readers** (`Reader.IsSound`): a reader that takes sound values only takes no such text
  (`decode_ne_ok`).
-/

namespace ContainerInit.Json

/-! ## Gaps -/

/-- A value with one place left open: the place is the value, or it lies in an item of an array or
in the value of a member of an object. -/
inductive Gap where
  | here
  | item (before : List Tree) (gap : Gap) (after : List Tree)
  | member (before : List Member) (name : Option String) (gap : Gap) (after : List Member)

namespace Gap

/-- The value with the place filled. -/
def fill : Gap → Tree → Tree
  | here, t => t
  | item before gap after, t => .array (before ++ gap.fill t :: after) true
  | member before name gap after, t => .object (before ++ (name, gap.fill t) :: after) true

/-- The place lies at the end of a path. A step of a path is the name of a field and its index in
the array of fields. -/
def Leads : Gap → List (String × Nat) → Prop
  | here, [] => True
  | item before gap _, (_, i) :: path => before.length = i ∧ gap.Leads path
  | member _ name gap _, (n, _) :: path => name = some n ∧ gap.Leads path
  | _, _ => False

theorem leads_here : here.Leads [] := trivial

/-- Nothing is missing around the place. -/
def Whole (g : Gap) : Prop :=
  ∀ t, t.Whole → (g.fill t).Whole

/-- The tokens of items in front of another item. -/
def itemsBefore (items : List Tree) : List Token :=
  items.flatMap fun t => t.tokens ++ [.comma]

/-- The tokens of members in front of another member. -/
def membersBefore (members : List Member) : List Token :=
  members.flatMap fun m => .string m.1 :: .colon :: m.2.tokens ++ [.comma]

/-- The tokens before the place. -/
def before : Gap → List Token
  | here => []
  | item items gap _ => .openArray :: itemsBefore items ++ gap.before
  | member members name gap _ =>
    .openObject :: membersBefore members ++ .string name :: .colon :: gap.before

/-- The tokens after the place. -/
def after : Gap → List Token
  | here => []
  | item _ gap items => gap.after ++ Tree.moreItems items
  | member _ _ gap members => gap.after ++ Tree.moreMembers members

/-- The containers that are open at the place, inside the given ones. -/
def frames : Gap → List Frame → List Frame
  | here, fs => fs
  | item items gap _, fs => gap.frames (.array items.reverse :: fs)
  | member members name gap _, fs => gap.frames (.object members.reverse name :: fs)

variable {t : Tree} {ts : List Token}

/-! ### Tokens -/

theorem moreItems_append (items rest : List Tree) (t : Tree) :
    Tree.moreItems (items ++ t :: rest) =
      .comma :: itemsBefore items ++ t.tokens ++ Tree.moreItems rest := by
  induction items with
  | nil => simp [Tree.moreItems, itemsBefore]
  | cons u items ih => simp [Tree.moreItems, itemsBefore, ih]

theorem moreMembers_append (members rest : List Member) (m : Member) :
    Tree.moreMembers (members ++ m :: rest) =
      .comma :: membersBefore members ++ .string m.1 :: .colon :: m.2.tokens ++
        Tree.moreMembers rest := by
  induction members with
  | nil => simp [Tree.moreMembers, membersBefore]
  | cons n members ih => simp [Tree.moreMembers, membersBefore, ih]

/-- **The tokens of a filled gap** are those of what fills it, between those around the place. -/
theorem tokens_fill (g : Gap) (t : Tree) : (g.fill t).tokens = g.before ++ t.tokens ++ g.after := by
  induction g with
  | here => simp [fill, before, after]
  | item items gap rest ih =>
    cases items with
    | nil => simp [fill, before, after, Tree.tokens, itemsBefore, ih]
    | cons u items => simp [fill, before, after, Tree.tokens, moreItems_append, itemsBefore, ih]
  | member members name gap rest ih =>
    cases members with
    | nil => simp [fill, before, after, Tree.tokens, membersBefore, ih]
    | cons m members =>
      simp [fill, before, after, Tree.tokens, moreMembers_append, membersBefore, ih]

theorem head?_moreItems (items : List Tree) :
    ∀ k ∈ (Tree.moreItems items).head?, k.isNumber = false := by
  cases items <;> (rintro _ ⟨⟩; rfl)

theorem head?_moreMembers (members : List Member) :
    ∀ k ∈ (Tree.moreMembers members).head?, k.isNumber = false := by
  cases members <;> (rintro _ ⟨⟩; rfl)

/-- No number stands after the place. -/
theorem head?_after (g : Gap) : ∀ k ∈ g.after.head?, k.isNumber = false := by
  induction g with
  | here => exact nofun
  | item _ gap items ih =>
    intro k hk
    rw [after, List.head?_append, Option.mem_def, Option.or_eq_some_iff] at hk
    exact hk.elim (ih k) fun hk => head?_moreItems items k hk.2
  | member _ _ gap members ih =>
    intro k hk
    rw [after, List.head?_append, Option.mem_def, Option.or_eq_some_iff] at hk
    exact hk.elim (ih k) fun hk => head?_moreMembers members k hk.2

theorem getLast?_itemsBefore (items : List Tree) :
    ∀ k ∈ (Token.openArray :: itemsBefore items).getLast?, k.isNumber = false := by
  intro k hk
  rcases List.eq_nil_or_concat items with rfl | ⟨front, u, rfl⟩
  · cases hk
    rfl
  · obtain rfl : Token.comma = k := by simpa [itemsBefore, List.getLast?_cons] using hk
    rfl

/-- No number stands before the place. -/
theorem getLast?_before (g : Gap) : ∀ k ∈ g.before.getLast?, k.isNumber = false := by
  induction g with
  | here => exact nofun
  | item items gap _ ih =>
    intro k hk
    rw [before, List.getLast?_append, Option.mem_def, Option.or_eq_some_iff] at hk
    exact hk.elim (ih k) fun hk => getLast?_itemsBefore items k hk.2
  | member members name gap _ ih =>
    intro k hk
    have last : (.colon :: gap.before).getLast? = some k := by
      rw [before, List.getLast?_append, List.getLast?_cons_cons, List.getLast?_cons,
        Option.some_or] at hk
      rwa [List.getLast?_cons]
    rw [List.getLast?_cons] at last
    cases inner : gap.before.getLast? with
    | none =>
      rw [inner] at last
      cases last
      rfl
    | some j =>
      rw [inner] at last
      cases last
      exact ih j inner

end Gap

/-- A field that is written for a record has a gap, and so has whatever lies in it. -/
theorem Tree.exists_gap {fields : List (String × Option Tree)} {name : String} (gap : Gap)
    {u : Tree} {path : List (String × Nat)} (mem : (name, some (gap.fill u)) ∈ fields)
    (leads : gap.Leads path) (i : Nat) :
    ∃ g : Gap, g.Leads ((name, i) :: path) ∧ Tree.record fields = g.fill u := by
  obtain ⟨front, back, rfl⟩ := List.append_of_mem mem
  let members (fields : List (String × Option Tree)) : List Member :=
    fields.filterMap fun f => f.2.map fun t => (some f.1, t)
  exact ⟨.member (members front) (some name) gap (members back), ⟨rfl, leads⟩,
    by simp [Tree.record, Gap.fill, members, List.filterMap_append]⟩

/-! ## Texts -/

theorem Token.Spelling.ne_nil {k : Token} {s : List Char} (spelling : k.Spelling s) : s ≠ [] := by
  cases spelling with
  | number formed =>
    obtain ⟨c, cs, print, -⟩ := Literal.print_head formed
    simp [print]
  | _ => exact nofun

/-- What stands before a place is scanned whatever follows it. -/
theorem scan_append {ks : List Token} {cs rest : List Char} (laid : Laid ks cs) (apart : Apart ks)
    (last : ∀ k ∈ ks.getLast?, k.isNumber = false) : scan (cs ++ rest) = ks ++ scan rest := by
  induction laid with
  | done => rfl
  | @space c ks cs space _ ih =>
    rw [List.cons_append, scan.eq_def]
    simp [space, ih apart last]
  | @token k ks s cs spelling more ih =>
    obtain ⟨next, apart⟩ := List.isChain_cons.1 apart
    have rest_last : ∀ k ∈ ks.getLast?, k.isNumber = false := by
      intro j hj
      refine last j ?_
      rw [List.getLast?_cons, hj]
      rfl
    rw [List.append_assoc, scan_spelling spelling, ih apart rest_last, List.cons_append]
    intro number
    cases ks with
    | nil =>
      rw [last k rfl] at number
      cases number
    | cons j ks =>
      have stops := more.stopsAt fun k hk => next k hk number
      cases more with
      | space => exact stops
      | @token _ _ s cs spelling =>
        obtain ⟨c, s, rfl⟩ := List.exists_cons_of_ne_nil spelling.ne_nil
        exact stops

/-- A layout of tokens may be followed by one of others. -/
theorem Laid.append {ks js : List Token} {cs ds : List Char} (first : Laid ks cs)
    (last : Laid js ds) : Laid (ks ++ js) (cs ++ ds) := by
  induction first with
  | done => exact last
  | space space _ ih => exact .space space ih
  | token spelling _ ih =>
    rw [List.append_assoc]
    exact .token spelling ih

namespace Gap

variable {g : Gap} {cs rest : List Char}

theorem Whole.apart (whole : g.Whole) : Apart g.before ∧ Apart g.after := by
  have apart := (whole .null .null).apart [] nofun .nil
  rw [List.append_nil, tokens_fill, List.append_assoc] at apart
  exact ⟨apart.left_of_append, apart.right_of_append.right_of_append⟩

theorem Whole.scan_before (whole : g.Whole) (laid : Laid g.before cs) :
    scan (cs ++ rest) = g.before ++ scan rest :=
  scan_append laid whole.apart.1 g.getLast?_before

theorem Whole.scan_after (whole : g.Whole) (laid : Laid g.after cs) : scan cs = g.after :=
  scan_laid laid whole.apart.2

/-- A layout of what fills the place, between layouts of what stands around it, is decoded as the
filled gap is read. -/
theorem Whole.decode_fill {α : Type} {t : Tree} {before after : List Char} (whole : g.Whole)
    (first : Laid g.before before) (last : Laid g.after after) (inner : t.Whole)
    (laid : Laid t.tokens cs) (read : Reader α) :
    decode read (String.ofList (before ++ cs ++ after)) = read (g.fill t) := by
  refine decode_laid (whole t inner) ?_ read
  rw [tokens_fill]
  exact (first.append laid).append last

end Gap

/-! ## What is written -/

namespace Gap

variable {u : Tree} {ks : List Token} {rest : List Char}

/-- The characters of items in front of another item. -/
def printItemsBefore (items : List Tree) : List Char :=
  items.flatMap fun t => t.print ++ [',']

/-- The characters of members in front of another member. -/
def printMembersBefore (members : List Member) : List Char :=
  members.flatMap fun m => Tree.printMember m ++ [',']

/-- The characters before the place. -/
def printBefore : Gap → List Char
  | here => []
  | item items gap _ => '[' :: (printItemsBefore items ++ gap.printBefore)
  | member members name gap _ =>
    '\x7b' :: (printMembersBefore members ++
      (printString (name.getD "").toList ++ ':' :: gap.printBefore))

/-- The characters after the place. -/
def printAfter : Gap → List Char
  | here => []
  | item _ gap items => gap.printAfter ++ Tree.printMore items
  | member _ _ gap members => gap.printAfter ++ Tree.printMoreMembers members

theorem printMore_append (items rest : List Tree) (t : Tree) :
    Tree.printMore (items ++ t :: rest) =
      ',' :: (printItemsBefore items ++ (t.print ++ Tree.printMore rest)) := by
  induction items with
  | nil => simp [Tree.printMore, printItemsBefore]
  | cons v items ih =>
    have more : Tree.printMore (v :: (items ++ t :: rest)) =
        ',' :: (v.print ++ Tree.printMore (items ++ t :: rest)) := by simp [Tree.printMore]
    rw [List.cons_append, more, ih]
    simp [printItemsBefore]

theorem printMoreMembers_append (members rest : List Member) (m : Member) :
    Tree.printMoreMembers (members ++ m :: rest) =
      ',' :: (printMembersBefore members ++
        (Tree.printMember m ++ Tree.printMoreMembers rest)) := by
  induction members with
  | nil => simp [Tree.printMoreMembers, printMembersBefore]
  | cons n members ih =>
    have more : Tree.printMoreMembers (n :: (members ++ m :: rest)) =
        ',' :: (Tree.printMember n ++ Tree.printMoreMembers (members ++ m :: rest)) := by
      simp [Tree.printMoreMembers]
    rw [List.cons_append, more, ih]
    simp [printMembersBefore]

/-- **What is written for a filled gap** is what is written for what fills it, between the
characters around the place. -/
theorem print_fill (g : Gap) (t : Tree) :
    (g.fill t).print = g.printBefore ++ t.print ++ g.printAfter := by
  induction g with
  | here => simp [fill, printBefore, printAfter]
  | item items gap rest ih =>
    cases items with
    | nil => simp [fill, printBefore, printAfter, Tree.print_array, printItemsBefore, ih]
    | cons v items =>
      simp [fill, printBefore, printAfter, Tree.print_array, printMore_append, printItemsBefore, ih]
  | member members name gap rest ih =>
    have value : Tree.printMember (name, gap.fill t) = printString (name.getD "").toList ++
        ':' :: (gap.printBefore ++ t.print ++ gap.printAfter) := by rw [Tree.printMember, ih]
    cases members with
    | nil => simp [fill, printBefore, printAfter, Tree.print_object, printMembersBefore, value]
    | cons m members =>
      simp [fill, printBefore, printAfter, Tree.print_object, printMoreMembers_append,
        printMembersBefore, value]

theorem laid_itemsBefore {items : List Tree} (whole : ∀ t ∈ items, t.Whole)
    (more : Laid ks rest) : Laid (itemsBefore items ++ ks) (printItemsBefore items ++ rest) := by
  induction items with
  | nil => exact more
  | cons v items ih =>
    obtain ⟨first, others⟩ := List.forall_mem_cons.1 whole
    simpa [itemsBefore, printItemsBefore] using first.printLaid ((ih others).token .comma)

theorem laid_membersBefore {members : List Member} (named : ∀ m ∈ members, m.1.isSome = true)
    (whole : ∀ m ∈ members, m.2.Whole) (more : Laid ks rest) :
    Laid (membersBefore members ++ ks) (printMembersBefore members ++ rest) := by
  induction members with
  | nil => exact more
  | cons m members ih =>
    obtain ⟨name, names⟩ := List.forall_mem_cons.1 named
    obtain ⟨first, others⟩ := List.forall_mem_cons.1 whole
    simpa [membersBefore, printMembersBefore] using
      laid_printMember name (first.printLaid ((ih names others).token .comma))

theorem laid_printBefore {g : Gap} (whole : (g.fill u).Whole) (more : Laid ks rest) :
    Laid (g.before ++ ks) (g.printBefore ++ rest) := by
  induction g with
  | here => exact more
  | item items gap others ih =>
    cases whole with
    | array whole =>
      have front : ∀ t ∈ items, t.Whole := fun t ht => whole t (List.mem_append_left _ ht)
      have inner := laid_itemsBefore front (ih (whole _ (by simp)))
      simpa [before, printBefore] using inner.token .openArray
  | member members name gap others ih =>
    cases whole with
    | object named whole =>
      have front : ∀ m ∈ members, m.2.Whole := fun m hm => whole m (List.mem_append_left _ hm)
      have names : ∀ m ∈ members, m.1.isSome = true := fun m hm =>
        named m (List.mem_append_left _ hm)
      obtain ⟨s, rfl⟩ := Option.isSome_iff_exists.1 (named (name, gap.fill u) (by simp))
      have value := ih (whole (some s, gap.fill u) (by simp))
      have inner := laid_membersBefore names front (laid_printString (s := s) (value.token .colon))
      simpa [before, printBefore] using inner.token .openObject

theorem laid_printAfter {g : Gap} (whole : (g.fill u).Whole) (more : Laid ks rest) :
    Laid (g.after ++ ks) (g.printAfter ++ rest) := by
  induction g generalizing ks rest with
  | here => exact more
  | item items gap others ih =>
    cases whole with
    | array whole =>
      have back : ∀ t ∈ others, t.PrintLaid := fun t ht =>
        (whole t (List.mem_append_right _ (List.mem_cons_of_mem _ ht))).printLaid
      simpa [after, printAfter] using ih (whole _ (by simp)) (laid_printMore back more)
  | member members name gap others ih =>
    cases whole with
    | object named whole =>
      have back : ∀ m ∈ others, m.2.PrintLaid := fun m hm =>
        (whole m (List.mem_append_right _ (List.mem_cons_of_mem _ hm))).printLaid
      have names : ∀ m ∈ others, m.1.isSome = true := fun m hm =>
        named m (List.mem_append_right _ (List.mem_cons_of_mem _ hm))
      simpa [after, printAfter] using
        ih (whole (name, gap.fill u) (by simp)) (laid_printMoreMembers names back more)

/-- **What is written around the place is one of its layouts.** -/
theorem laid_print {g : Gap} (whole : (g.fill u).Whole) :
    Laid g.before g.printBefore ∧ Laid g.after g.printAfter :=
  ⟨by simpa using laid_printBefore whole .done, by simpa using laid_printAfter whole .done⟩

/-- Nothing is missing around the place of a value in which nothing is. -/
theorem whole_of_fill {g : Gap} (whole : (g.fill u).Whole) : g.Whole := by
  intro t inner
  induction g with
  | here => exact inner
  | item items gap others ih =>
    cases whole with
    | array whole =>
      refine .array fun v hv => ?_
      rcases List.mem_append.1 hv with hv | hv
      · exact whole v (List.mem_append_left _ hv)
      · rcases List.mem_cons.1 hv with rfl | hv
        · exact ih (whole _ (by simp))
        · exact whole v (List.mem_append_right _ (List.mem_cons_of_mem _ hv))
  | member members name gap others ih =>
    cases whole with
    | object named whole =>
      refine .object (fun m hm => ?_) fun m hm => ?_ <;> rcases List.mem_append.1 hm with hm | hm
      · exact named m (List.mem_append_left _ hm)
      · rcases List.mem_cons.1 hm with rfl | hm
        · exact named (name, gap.fill u) (by simp)
        · exact named m (List.mem_append_right _ (List.mem_cons_of_mem _ hm))
      · exact whole m (List.mem_append_left _ hm)
      · rcases List.mem_cons.1 hm with rfl | hm
        · exact ih (whole (name, gap.fill u) (by simp))
        · exact whole m (List.mem_append_right _ (List.mem_cons_of_mem _ hm))

end Gap

/-! ## Building -/

section Building

variable {t : Tree} {ts : List Token} {fs : List Frame}

theorem build_itemsBefore {items done : List Tree} (whole : ∀ t ∈ items, t.Whole) :
    Document.build .value (.array done :: fs) (Gap.itemsBefore items ++ ts) =
      Document.build .value (.array (items.reverse ++ done) :: fs) ts := by
  induction items generalizing done with
  | nil => rfl
  | cons u items ih =>
    obtain ⟨first, rest⟩ := List.forall_mem_cons.1 whole
    have split : Gap.itemsBefore (u :: items) ++ ts =
        u.tokens ++ (.comma :: (Gap.itemsBefore items ++ ts)) := by
      simp [Gap.itemsBefore]
    rw [split, Document.build_tokens first]
    show Document.build (.nextItem (u :: done)) fs _ = _
    rw [Document.build_cons rfl, ih rest, List.reverse_cons, List.append_assoc]
    rfl

theorem build_membersBefore {members done : List Member} {name : Option String}
    (whole : ∀ m ∈ members, m.2.Whole) :
    Document.build (.nextName done) fs
        (Gap.membersBefore members ++ .string name :: .colon :: ts) =
      Document.build .value (.object (members.reverse ++ done) name :: fs) ts := by
  induction members generalizing done with
  | nil =>
    show Document.build (.nextName done) fs (.string name :: .colon :: ts) = _
    rw [Document.build_cons rfl, Document.build_cons rfl]
    rfl
  | cons m members ih =>
    obtain ⟨first, rest⟩ := List.forall_mem_cons.1 whole
    have split : Gap.membersBefore (m :: members) ++ .string name :: .colon :: ts =
        .string m.1 :: .colon :: (m.2.tokens ++
          (.comma :: (Gap.membersBefore members ++ .string name :: .colon :: ts))) := by
      simp [Gap.membersBefore]
    rw [split, Document.build_cons rfl, Document.build_member (Document.build_tokens first),
      Document.build_cons rfl, ih rest, List.reverse_cons, List.append_assoc]
    rfl

/-- The first item of an array is read as any value is, if there is one. -/
theorem build_firstItem_of_ne (start : ∀ k ∈ ts.head?, k ≠ .closeArray) :
    Document.build .firstItem fs ts = Document.build .value (.array [] :: fs) ts := by
  cases ts with
  | nil => rfl
  | cons k ts =>
    have other := start k rfl
    have same : Expect.step? .firstItem k fs = Expect.step? .value k (.array [] :: fs) := by
      cases k <;> first | rfl | exact absurd rfl other
    rw [Document.build, Document.build, same]
    rfl

/-- The name of the first member of an object is read as any name is. -/
theorem build_firstName {members : List Member} {name : Option String} :
    Document.build .firstName fs (Gap.membersBefore members ++ .string name :: ts) =
      Document.build (.nextName []) fs (Gap.membersBefore members ++ .string name :: ts) := by
  cases members with
  | nil => exact (Document.build_cons rfl).trans (Document.build_cons rfl).symm
  | cons m members => exact (Document.build_cons rfl).trans (Document.build_cons rfl).symm

theorem Gap.head?_itemsBefore {items : List Tree} (start : ∀ k ∈ ts.head?, k ≠ .closeArray) :
    ∀ k ∈ (Gap.itemsBefore items ++ ts).head?, k ≠ .closeArray := by
  cases items with
  | nil => exact start
  | cons u items =>
    obtain ⟨k, ks, tokens, other⟩ := u.tokens_head
    intro j hj
    have split : Gap.itemsBefore (u :: items) ++ ts =
        k :: (ks ++ (.comma :: (Gap.itemsBefore items ++ ts))) := by
      simp [Gap.itemsBefore, tokens]
    rw [split] at hj
    cases hj
    exact other

theorem Gap.head?_before {g : Gap} (start : ∀ k ∈ ts.head?, k ≠ .closeArray) :
    ∀ k ∈ (g.before ++ ts).head?, k ≠ .closeArray := by
  cases g with
  | here => exact start
  | item => rintro _ ⟨⟩; exact nofun
  | member => rintro _ ⟨⟩; exact nofun

/-- **The reader gets to the place with the containers around it open.** -/
theorem Document.build_gap {g : Gap} (whole : (g.fill t).Whole)
    (start : ∀ k ∈ ts.head?, k ≠ .closeArray) :
    Document.build .value fs (g.before ++ ts) = Document.build .value (g.frames fs) ts := by
  induction g generalizing fs with
  | here => rfl
  | item items gap rest ih =>
    cases whole with
    | array whole =>
      have split : (Gap.item items gap rest).before ++ ts =
          .openArray :: (Gap.itemsBefore items ++ (gap.before ++ ts)) := by
        simp [Gap.before]
      have before : ∀ u ∈ items, u.Whole := fun u hu => whole u (List.mem_append_left _ hu)
      rw [split, build_cons rfl, build_firstItem_of_ne
        (Gap.head?_itemsBefore (Gap.head?_before start)), build_itemsBefore before, List.append_nil]
      exact ih (whole _ (by simp))
  | member members name gap rest ih =>
    cases whole with
    | object _ whole =>
      have split : (Gap.member members name gap rest).before ++ ts = .openObject ::
          (Gap.membersBefore members ++ .string name :: .colon :: (gap.before ++ ts)) := by
        simp [Gap.before]
      have before : ∀ m ∈ members, m.2.Whole := fun m hm => whole m (List.mem_append_left _ hm)
      rw [split, build_cons rfl, build_firstName, build_membersBefore before, List.append_nil]
      exact ih (whole (name, gap.fill t) (by simp))

end Building

/-! ## Texts that are no value -/

/-- A text is no sound value, or something follows the value. -/
def Document.IsBroken (d : Document) : Prop :=
  d.root.isSound = false ∨ d.trailing = true

theorem Tree.isSound_abandon {t : Tree} (unsound : t.isSound = false) (fs : List Frame) :
    (t.abandon fs).isSound = false := by
  induction fs generalizing t with
  | nil => exact unsound
  | cons f fs ih => cases f <;> exact ih rfl

/-- Where no token stands, no value does. -/
theorem Document.build_fault (fs : List Frame) (ts : List Token) :
    (Document.build .value fs (.fault :: ts)).IsBroken :=
  .inl (Tree.isSound_abandon rfl fs)

/-- A number is not followed by a number, nor by what is no token. -/
theorem Document.build_twice {l : Literal} {k : Token} (fs : List Frame) (ts : List Token)
    (more : k.isNumber = true ∨ k = .fault) :
    (Document.build .value fs (.number l :: k :: ts)).IsBroken := by
  cases fs with
  | nil => exact .inr rfl
  | cons f fs =>
    rw [Document.build_cons rfl]
    cases f with
    | array done =>
      have stop : Expect.step? (.nextItem (.number l :: done)) k fs = none := by
        cases k <;> simp_all [Token.isNumber, Expect.step?]
      show (Document.build (.nextItem (.number l :: done)) fs (k :: ts)).IsBroken
      rw [Document.build, stop]
      exact .inl (Tree.isSound_abandon rfl fs)
    | object done name =>
      have stop : Expect.step? (.nextMember ((name, .number l) :: done)) k fs = none := by
        cases k <;> simp_all [Token.isNumber, Expect.step?]
      show (Document.build (.nextMember ((name, .number l) :: done)) fs (k :: ts)).IsBroken
      rw [Document.build, stop]
      exact .inl (Tree.isSound_abandon rfl fs)

/-! ## Sound readers -/

namespace Tree

mutual

/-- What can be kept as a whole has no fault. -/
theorem isSound_of_isReadable {depth : Nat} :
    ∀ {t : Tree}, t.isReadable depth = true → t.isSound = true
  | .array items closed, readable => by
    simp only [isReadable, Bool.and_eq_true] at readable
    simp [isSound, readable.2, areSound_of_areReadable readable.1.2]
  | .object members closed, readable => by
    simp only [isReadable, Bool.and_eq_true] at readable
    simp [isSound, readable.2, membersAreSound_of_membersAreReadable readable.1.2]
  | .fault, readable => nomatch readable
  | .null, _ | .bool _, _ | .number _, _ | .string _, _ => rfl

theorem areSound_of_areReadable {depth : Nat} :
    ∀ {ts : List Tree}, areReadable depth ts = true → areSound ts = true
  | [], _ => rfl
  | t :: ts, readable => by
    simp only [areReadable, Bool.and_eq_true] at readable
    simp [areSound, isSound_of_isReadable readable.1, areSound_of_areReadable readable.2]

theorem membersAreSound_of_membersAreReadable {depth : Nat} :
    ∀ {ms : List Member}, membersAreReadable depth ms = true → membersAreSound ms = true
  | [], _ => rfl
  | m :: ms, readable => by
    simp only [membersAreReadable, Bool.and_eq_true] at readable
    simp [membersAreSound, isSound_of_isReadable readable.1.2,
      membersAreSound_of_membersAreReadable readable.2]

end

end Tree

/-- A reader takes sound values only. -/
def Reader.IsSound {α : Type} (read : Reader α) : Prop :=
  ∀ t a, read t = .ok a → t.isSound = true

/-- **A broken text is not decoded.** -/
theorem decode_ne_ok {α : Type} {read : Reader α} {text : String} (sound : read.IsSound)
    (broken : (Document.parse text).IsBroken) (a : α) : decode read text ≠ .ok a := by
  intro decoded
  obtain ⟨b, value, decoded⟩ := bind_eq_ok_iff.1 decoded
  obtain ⟨_, ended, -⟩ := bind_eq_ok_iff.1 decoded
  rcases broken with unsound | trailing
  · rw [sound _ b value] at unsound
    cases unsound
  · rw [demand_eq_ok_iff, trailing] at ended
    cases ended

namespace Reader

variable {α β : Type} {read : Reader α}

theorem isSound_text : text.IsSound := by
  intro t s read
  unfold text at read
  split at read
  · rfl
  · cases read

theorem isSound_integer (least greatest : Int) : (integer least greatest).IsSound := by
  intro t i read
  cases t with
  | number => rfl
  | _ => cases read

theorem IsSound.map {f : α → β} (sound : read.IsSound) :
    IsSound fun t => (read t).map f := by
  intro t b read
  obtain ⟨a, read, -⟩ := map_eq_ok_iff.1 read
  exact sound t a read

theorem IsSound.optional (sound : read.IsSound) : (Reader.optional read).IsSound := by
  intro t a read
  unfold Reader.optional at read
  split at read
  · rfl
  · obtain ⟨_, read, -⟩ := map_eq_ok_iff.1 read
    exact sound t _ read

theorem isSound_variant (ofName? : String → Option α) : (variant ofName?).IsSound := by
  intro t a read
  unfold variant at read
  split at read
  · rfl
  · obtain ⟨_, -, read⟩ := bind_eq_ok_iff.1 read
    split at read
    · simp [Tree.isSound, Tree.membersAreSound]
    · cases read
  · cases read

end Reader

/-- A field takes sound values only. -/
def FieldShape.IsSound (f : FieldShape) : Prop :=
  ∀ t, f.check t = .ok () → t.isSound = true

theorem RecordField.isSound {α : Type} {f : RecordField α} (sound : f.read.IsSound) :
    f.shape.IsSound := by
  intro t checked
  obtain ⟨a, read⟩ := RecordField.check_eq_ok_iff.1 checked
  exact sound t a read

namespace Layout

variable {fields : Layout}

theorem areSound_of_readItems {items : List Tree} {r : Record} (sound : ∀ f ∈ fields, f.IsSound)
    (read : fields.readItems items = .ok r) : ∀ t ∈ items, t.isSound = true := by
  induction fields generalizing items r with
  | nil =>
    cases items with
    | nil => exact nofun
    | cons => cases read
  | cons f fields ih =>
    cases items with
    | nil => exact nofun
    | cons t items =>
      obtain ⟨_, checked, read⟩ := bind_eq_ok_iff.1 read
      obtain ⟨_, read, -⟩ := bind_eq_ok_iff.1 read
      obtain ⟨first, rest⟩ := List.forall_mem_cons.1 sound
      exact List.forall_mem_cons.2 ⟨first t checked, ih rest read⟩

/-- **A record is read from sound values only,** if each of its fields is. -/
theorem isSound_readRecord (sound : ∀ f ∈ fields, f.IsSound) :
    Reader.IsSound fields.readRecord := by
  intro t r read
  cases t with
  | object members closed =>
    obtain ⟨rfl, each, -⟩ := readObject_eq_ok_iff.1 read
    have members : ∀ m ∈ members, m.2.isSound = true := by
      intro m hm
      rcases each m hm with ⟨name, f, -, found, checked⟩ | skips
      · exact sound f (mem_of_find? found).1 _ checked
      · exact skips.sound
    simpa [Tree.isSound] using Tree.membersAreSound_iff.2 members
  | array items closed =>
    obtain ⟨_, items, read⟩ := bind_eq_ok_iff.1 read
    obtain ⟨_, ended, -⟩ := bind_eq_ok_iff.1 read
    have each := areSound_of_readItems sound items
    simpa [Tree.isSound, demand_eq_ok_iff.1 ended] using Tree.areSound_iff.2 each
  | _ => cases read

theorem isSound_bind {α : Type} {ofRecord : Record → Except Fault α}
    (sound : ∀ f ∈ fields, f.IsSound) :
    Reader.IsSound fun t => fields.readRecord t >>= ofRecord := by
  intro t a read
  obtain ⟨r, read, -⟩ := bind_eq_ok_iff.1 read
  exact isSound_readRecord sound t r read

end Layout

end ContainerInit.Json
