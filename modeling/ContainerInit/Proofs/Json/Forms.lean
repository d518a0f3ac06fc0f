import ContainerInit.Proofs.Json.Encoding

/-!
# The forms in which a record can be given

- **Plain values** (`Tree.Plain`): the values that members without a field may have; a reader that
  skips them and one that keeps them both take them.
- **Fields** (`Shown`): what may be given for a field besides what is written for it, such as an
  explicit `null`, or a variant as an object (`VariantForm`).
- **Records** (`RecordForm`): an object whose members stand in any order and among foreign ones, or
  an array in declaration order. What is written for a record is one of its forms
  (`recordForm_record`), and every form is read as the record (`RecordForm.encodes`).
-/

namespace ContainerInit.Json

/-! ## Plain values -/

/-- A value at nesting depth `depth` with integers of 64 bits for numbers, text in its strings, and
no container deeper than `Tree.maxDepth`. -/
inductive Tree.Plain : Nat → Tree → Prop
  | null {depth : Nat} : Plain depth .null
  | bool {depth : Nat} (b : Bool) : Plain depth (.bool b)
  | integer {depth : Nat} {l : Literal} (formed : l.WellFormed)
    (integral : l.fraction = none ∧ l.exponent = none)
    (small : Nat.ofDigitChars 10 l.whole 0 < UInt64.size) : Plain depth (.number l)
  | string {depth : Nat} (s : String) : Plain depth (.string (some s))
  | array {depth : Nat} {items : List Tree} (shallow : depth ≤ maxDepth)
    (plain : ∀ t ∈ items, Plain (depth + 1) t) : Plain depth (.array items true)
  | object {depth : Nat} {members : List Member} (shallow : depth ≤ maxDepth)
    (named : ∀ m ∈ members, m.1.isSome = true) (plain : ∀ m ∈ members, Plain (depth + 1) m.2) :
    Plain depth (.object members true)

namespace Tree

theorem areSound_iff {ts : List Tree} : areSound ts = true ↔ ∀ t ∈ ts, t.isSound = true := by
  induction ts with
  | nil => simp [areSound]
  | cons t ts ih => simp [areSound, ih]

theorem membersAreSound_iff {ms : List Member} :
    membersAreSound ms = true ↔ ∀ m ∈ ms, m.2.isSound = true := by
  induction ms with
  | nil => simp [membersAreSound]
  | cons m ms ih => simp [membersAreSound, ih]

theorem areReadable_iff {depth : Nat} {ts : List Tree} :
    areReadable depth ts = true ↔ ∀ t ∈ ts, t.isReadable depth = true := by
  induction ts with
  | nil => simp [areReadable]
  | cons t ts ih => simp [areReadable, ih]

theorem membersAreReadable_iff {depth : Nat} {ms : List Member} :
    membersAreReadable depth ms = true ↔
      ∀ m ∈ ms, m.1.isSome = true ∧ m.2.isReadable depth = true := by
  induction ms with
  | nil => simp [membersAreReadable]
  | cons m ms ih => simp [membersAreReadable, ih]

namespace Plain

variable {depth : Nat} {t : Tree}

theorem whole (plain : t.Plain depth) : t.Whole := by
  induction plain with
  | null => exact .null
  | bool b => exact .bool b
  | integer formed => exact .number formed
  | string s => exact .string s
  | array _ _ ih => exact .array ih
  | object _ named _ ih => exact .object named ih

theorem isSound (plain : t.Plain depth) : t.isSound = true := by
  induction plain with
  | array _ _ ih => simpa [Tree.isSound] using areSound_iff.2 ih
  | object _ _ _ ih => simpa [Tree.isSound] using membersAreSound_iff.2 ih
  | _ => rfl

theorem isReadable (plain : t.Plain depth) : t.isReadable depth = true := by
  induction plain with
  | integer _ integral small =>
    simp only [Tree.isReadable, Literal.fitsDouble, significand_eq small, integral]
    rfl
  | array shallow _ ih => simpa [Tree.isReadable, shallow] using areReadable_iff.2 ih
  | object shallow named _ ih =>
    simpa [Tree.isReadable, shallow] using
      membersAreReadable_iff.2 fun m hm => ⟨named m hm, ih m hm⟩
  | _ => rfl

end Plain

end Tree

/-! ## Fields -/

/-- A variant is given by its name, or by an object that maps its name to `null`. -/
inductive VariantForm (name : String) : Tree → Prop
  | text : VariantForm name (.text name)
  | object : VariantForm name (.object [(some name, .null)] true)

theorem VariantForm.encodes {α : Type} {ofName? : String → Option α} {name : String} {a : α}
    (named : ofName? name = some a) {t : Tree} (form : VariantForm name t) :
    t.Encodes (Reader.variant ofName?) a ∧ t.Encodes (Reader.keptVariant ofName?) a := by
  cases form with
  | text => exact encodes_variant named
  | object =>
    have whole : (Tree.object [(some name, .null)] true).Whole :=
      .object (by simp) (by simpa using .null)
    have found : Reader.variantNamed ofName? name = .ok a := by
      rw [Reader.variantNamed, named]
    refine ⟨⟨whole, ?_⟩, ⟨whole, ?_⟩⟩
    · rw [Reader.variant, found]
      rfl
    · rw [Reader.keptVariant, found]
      rfl

theorem VariantForm.isReadable {name : String} {depth : Nat} {t : Tree}
    (shallow : depth ≤ Tree.maxDepth) (form : VariantForm name t) : t.isReadable depth = true := by
  cases form with
  | text => rfl
  | object => simp [Tree.isReadable, Tree.membersAreReadable, shallow]

/-- A field of a record with its value, and the trees that may be given for it. What is written for
it is one of them. -/
structure Shown extends Entry where
  forms : Tree → Prop
  encoded : ∀ t, forms t → t.Encodes field.read value
  usual : ∀ t ∈ written, forms t

namespace Shown

variable {α : Type}

/-- A field that is always written. -/
def among (field : RecordField α) {a : α} (forms : Tree → Prop) {t : Tree} (usual : forms t)
    (encoded : ∀ u, forms u → u.Encodes field.read a) : Shown where
  toEntry := .present field (encoded t usual)
  forms := forms
  encoded := encoded
  usual := by rintro _ ⟨⟩; exact usual

/-- A field that is always written, in one way. -/
def present (field : RecordField α) {a : α} {t : Tree} (h : t.Encodes field.read a) : Shown :=
  among field (· = t) rfl (by rintro _ rfl; exact h)

/-- A field that holds a variant. -/
def variant (field : RecordField α) {name : String} {a : α}
    (encoded : ∀ t, VariantForm name t → t.Encodes field.read a) : Shown :=
  among field (VariantForm name) .text encoded

/-- A field that may hold nothing, which is given as `null` then. -/
def optionalAmong (field : RecordField (Option α)) {read : Reader α} {toTree : α → Tree}
    (isOptional : field.read = Reader.optional read ∧ field.default = some none) (o : Option α)
    (forms : α → Tree → Prop) (usual : ∀ a, forms a (toTree a))
    (encoded : ∀ a t, forms a t → t.Encodes read a ∧ t ≠ .null) : Shown where
  toEntry := .optional field isOptional o fun a => encoded a _ (usual a)
  forms t :=
    match o with
    | none => t = .null
    | some a => forms a t
  encoded t form := by
    show t.Encodes field.read o
    rw [isOptional.1]
    cases o with
    | none => subst form; exact ⟨.null, rfl⟩
    | some a => exact (encoded a t form).1.optional (encoded a t form).2
  usual t written := by
    cases o with
    | none => cases written
    | some a => cases written; exact usual a

/-- A field that may hold nothing, and whose values are given in one way. -/
def optional (field : RecordField (Option α)) {read : Reader α} {toTree : α → Tree}
    (isOptional : field.read = Reader.optional read ∧ field.default = some none) (o : Option α)
    (h : ∀ a, (toTree a).Encodes read a ∧ toTree a ≠ .null) : Shown :=
  optionalAmong field isOptional o (fun a t => t = toTree a) (fun _ => rfl)
    (by rintro a _ rfl; exact h a)

/-- Whatever is given for a field can be kept at nesting depth `depth`. -/
def Kept (depth : Nat) (s : Shown) : Prop :=
  ∀ t, s.forms t → t.isReadable depth = true

variable {depth : Nat}

theorem variant_kept {field : RecordField α} {name : String} {a : α}
    (shallow : depth ≤ Tree.maxDepth)
    (encoded : ∀ t, VariantForm name t → t.Encodes field.read a) :
    (variant field encoded).Kept depth :=
  fun _ form => form.isReadable shallow

theorem present_kept {field : RecordField α} {a : α} {t : Tree}
    (readable : t.isReadable depth = true) (h : t.Encodes field.read a) :
    (present field h).Kept depth := by
  intro u form
  rwa [show u = t from form]

end Shown

/-! ## Records -/

/-- Trees that are given for fields, under their names and in their order. A field that has its
default may be left out. -/
inductive Shows : List Shown → Record → Prop
  | nil : Shows [] []
  | given {s : Shown} {t : Tree} {fields : List Shown} {r : Record} (form : s.forms t)
    (more : Shows fields r) : Shows (s :: fields) ((s.name, t) :: r)
  | leftOut {s : Shown} {fields : List Shown} {r : Record} (unset : s.field.default = some s.value)
    (more : Shows fields r) : Shows (s :: fields) r

/-- A member of an object at nesting depth `depth` that has none of the given names. -/
structure Foreign (depth : Nat) (names : List String) (m : Member) : Prop where
  named : ∃ name, m.1 = some name ∧ name ∉ names
  plain : m.2.Plain (depth + 1)

/-- The members of an object at nesting depth `depth`: those of the fields and foreign ones, in any
order. -/
def ObjectForm (depth : Nat) (fields : List Shown) (members : List Member) : Prop :=
  ∃ (own : Record) (others : List Member), members.Perm (own.toMembers ++ others) ∧
    Shows fields own ∧ ∀ m ∈ others, Foreign depth (fields.map (·.name)) m

/-- The items of an array: those of the fields in their order. Fields that have their defaults may
be left out at the end. -/
inductive ArrayForm : List Shown → List Tree → Prop
  | done {fields : List Shown} (unset : ∀ s ∈ fields, s.field.default = some s.value) :
    ArrayForm fields []
  | item {s : Shown} {t : Tree} {fields : List Shown} {items : List Tree} (form : s.forms t)
    (more : ArrayForm fields items) : ArrayForm (s :: fields) (t :: items)

/-- A record at nesting depth `depth`, as an object or as an array. -/
inductive RecordForm (depth : Nat) (fields : List Shown) : Tree → Prop
  | object {members : List Member} (form : ObjectForm depth fields members) :
    RecordForm depth fields (.object members true)
  | array {items : List Tree} (form : ArrayForm fields items) :
    RecordForm depth fields (.array items true)

section Records

variable {depth : Nat} {fields : List Shown} {members others : List Member} {items : List Tree}
  {own r : Record} {s : Shown} {t : Tree}

theorem RecordForm.ne_null (form : RecordForm depth fields t) : t ≠ .null := by
  cases form <;> exact nofun

/-- The members of an object may change places. -/
theorem ObjectForm.perm (form : ObjectForm depth fields members) (perm : others.Perm members) :
    ObjectForm depth fields others := by
  obtain ⟨own, foreign, order, rest⟩ := form
  exact ⟨own, foreign, perm.trans order, rest⟩

/-- A foreign member may be inserted anywhere. -/
theorem ObjectForm.insert {a b : List Member} {m : Member} (form : ObjectForm depth fields (a ++ b))
    (foreign : Foreign depth (fields.map (·.name)) m) : ObjectForm depth fields (a ++ m :: b) := by
  obtain ⟨own, others, order, shows, each⟩ := form
  refine ⟨own, m :: others, ?_, shows, List.forall_mem_cons.2 ⟨foreign, each⟩⟩
  exact (List.perm_middle.trans (order.cons m)).trans List.perm_middle.symm

/-! ### What is written -/

theorem shows_record (fields : List Shown) :
    Shows fields (Entry.record (fields.map Shown.toEntry)) := by
  induction fields with
  | nil => exact .nil
  | cons s fields ih =>
    have writes := s.writes
    cases written : s.written with
    | some t => simpa [Entry.record, written] using ih.given (s.usual t written)
    | none =>
      rw [written] at writes
      simpa [Entry.record, written] using ih.leftOut writes

theorem objectForm_members (depth : Nat) (fields : List Shown) :
    ObjectForm depth fields (Entry.members (fields.map Shown.toEntry)) :=
  ⟨_, [], by rw [List.append_nil]; exact .refl _, shows_record fields, nofun⟩

/-- **What is written for a record is one of its forms.** -/
theorem recordForm_record (depth : Nat) (fields : List Shown) :
    RecordForm depth fields (Tree.record (fields.map fun s => (s.name, s.written))) := by
  have tree : Tree.record (fields.map fun s => (s.name, s.written)) =
      .object (Entry.members (fields.map Shown.toEntry)) true := by
    rw [← Entry.tree_eq, List.map_map]
    rfl
  rw [tree]
  exact .object (objectForm_members depth fields)

/-! ### Looking up -/

namespace Shows

theorem names (shows : Shows fields own) : (own.map (·.1)).Sublist (fields.map (·.name)) := by
  induction shows with
  | nil => exact .slnil
  | given _ _ ih => exact ih.cons_cons _
  | leftOut _ _ ih => exact ih.cons _

theorem mem (shows : Shows fields own) {m : String × Tree} (hm : m ∈ own) :
    ∃ s ∈ fields, s.name = m.1 ∧ s.forms m.2 := by
  induction shows with
  | nil => cases hm
  | given form _ ih =>
    rcases List.mem_cons.1 hm with rfl | hm
    · exact ⟨_, List.mem_cons_self, rfl, form⟩
    · obtain ⟨s, hs, found⟩ := ih hm
      exact ⟨s, List.mem_cons_of_mem _ hs, found⟩
  | leftOut _ _ ih =>
    obtain ⟨s, hs, found⟩ := ih hm
    exact ⟨s, List.mem_cons_of_mem _ hs, found⟩

/-- What has no default is given. -/
theorem of_required (shows : Shows (s :: fields) r) (required : s.field.default = none) :
    ∃ (t : Tree) (own : Record), r = (s.name, t) :: own ∧ s.forms t ∧ Shows fields own := by
  cases shows with
  | given form more => exact ⟨_, _, rfl, form, more⟩
  | leftOut unset =>
    rw [required] at unset
    cases unset

/-- Only defaults are left out. -/
theorem given_or_unset (shows : Shows fields own) (hs : s ∈ fields) :
    (∃ t, (s.name, t) ∈ own) ∨ s.field.default = some s.value := by
  induction shows with
  | nil => cases hs
  | given _ _ ih =>
    rcases List.mem_cons.1 hs with rfl | hs
    · exact .inl ⟨_, List.mem_cons_self⟩
    · exact (ih hs).imp_left fun ⟨t, ht⟩ => ⟨t, List.mem_cons_of_mem _ ht⟩
  | leftOut unset _ ih =>
    rcases List.mem_cons.1 hs with rfl | hs
    · exact .inr unset
    · exact ih hs

/-- **Every field has its value again,** from its tree or by its default, in whatever order the
record was read. -/
theorem get (shows : Shows fields own) (distinct : (fields.map (·.name)).Nodup) (perm : r.Perm own)
    (hs : s ∈ fields) : r.get s.field = .ok s.value := by
  have names : (r.map (·.1)).Nodup := (perm.map _).nodup_iff.2 (shows.names.nodup distinct)
  by_cases given : ∃ t, (s.name, t) ∈ own
  · obtain ⟨t, mem⟩ := given
    obtain ⟨u, hu, same, form⟩ := shows.mem mem
    obtain rfl := eq_of_nodup distinct hu hs same
    have found : r.find? u.field.name = some t := Record.find?_eq_some names (perm.mem_iff.2 mem)
    rw [Record.get, found]
    exact (u.encoded t form).reads
  · have absent : r.find? s.field.name = none := by
      refine Record.find?_eq_none fun mem => given ?_
      obtain ⟨⟨_, t⟩, mem, rfl⟩ := List.mem_map.1 mem
      exact ⟨t, perm.mem_iff.1 mem⟩
    rw [Record.get, absent, (shows.given_or_unset hs).resolve_left given]

end Shows

theorem Layout.firstMissing?_of_gets (gets : ∀ s ∈ fields, r.get s.field = .ok s.value) :
    firstMissing? (fields.map (·.shape)) r = none := by
  rw [firstMissing?, List.find?_eq_none]
  intro f hf
  obtain ⟨s, hs, rfl⟩ := List.mem_map.1 hf
  show ¬ (s.field.default.isNone && (r.find? s.field.name).isNone) = true
  have get := gets s hs
  intro missing
  simp only [Bool.and_eq_true, Option.isNone_iff_eq_none] at missing
  rw [Record.get, missing.1, missing.2] at get
  cases get

/-! ### Objects -/

namespace ObjectForm

/-- A member of an object is foreign, or it is given for a field. -/
theorem mem (form : ObjectForm depth fields members) {m : Member} (hm : m ∈ members) :
    m.1.isSome = true ∧ (m.2.Plain (depth + 1) ∨ ∃ s ∈ fields, s.forms m.2) := by
  obtain ⟨own, others, perm, shows, foreign⟩ := form
  rcases List.mem_append.1 (perm.mem_iff.1 hm) with mem | mem
  · obtain ⟨n, hn, rfl⟩ := List.mem_map.1 mem
    obtain ⟨s, hs, -, given⟩ := shows.mem hn
    exact ⟨rfl, .inr ⟨s, hs, given⟩⟩
  · obtain ⟨name, named, -⟩ := (foreign m mem).named
    exact ⟨by rw [named]; rfl, .inl (foreign m mem).plain⟩

theorem whole (form : ObjectForm depth fields members) : (Tree.object members true).Whole := by
  refine .object (fun m hm => (form.mem hm).1) fun m hm => ?_
  rcases (form.mem hm).2 with plain | ⟨s, -, given⟩
  · exact plain.whole
  · exact (s.encoded _ given).whole

theorem kept (form : ObjectForm depth fields members) (each : ∀ s ∈ fields, s.Kept (depth + 1)) :
    ∀ m ∈ members, m.1.isSome = true ∧ m.2.isReadable (depth + 1) = true := by
  refine fun m hm => ⟨(form.mem hm).1, ?_⟩
  rcases (form.mem hm).2 with plain | ⟨s, hs, given⟩
  · exact plain.isReadable
  · exact each s hs _ given

/-- **An object is read as the fields it shows,** in whatever order and among whatever others its
members stand. -/
theorem readObject (form : ObjectForm depth fields members)
    (distinct : (fields.map (·.name)).Nodup) :
    ∃ r, Layout.readObject (fields.map (·.shape)) members true = .ok r ∧
      ∀ s ∈ fields, r.get s.field = .ok s.value := by
  obtain ⟨own, others, perm, shows, foreign⟩ := form
  have shapeNames : (fields.map (·.shape)).map FieldShape.name = fields.map (·.name) := List.map_map
  have takes : ∀ m ∈ own, ∃ f, Layout.find? (fields.map (·.shape)) m.1 = some f ∧
      f.check m.2 = .ok () := by
    intro m hm
    obtain ⟨s, hs, name, form⟩ := shows.mem hm
    refine ⟨s.shape, ?_, ?_⟩
    · rw [← name]
      rw [← shapeNames] at distinct
      exact find?_of_nodup distinct (List.mem_map_of_mem hs)
    · show (s.field.read m.2).map _ = _
      rw [(s.encoded _ form).reads]
      rfl
  have skips : ∀ m ∈ others, Layout.Skips (fields.map (·.shape)) m := fun m hm =>
    ⟨by rw [shapeNames]; exact (foreign m hm).named, (foreign m hm).plain.isSound⟩
  have known := Layout.known_perm (fun m hm => (takes m hm).imp fun _ h => h.1) skips perm
  have taken := (List.reverse_perm _).trans known
  have read : Layout.readMembers (fields.map (·.shape)) [] members =
      .ok ((Layout.known (fields.map (·.shape)) members).reverse ++ []) := by
    refine Layout.readMembers_known (fun m hm => ?_) ?_
    · rcases List.mem_append.1 (perm.mem_iff.1 hm) with mem | mem
      · obtain ⟨n, hn, rfl⟩ := List.mem_map.1 mem
        obtain ⟨f, found, checked⟩ := takes n hn
        exact .inl ⟨n.1, f, rfl, found, checked⟩
      · exact .inr (skips m mem)
    · rw [List.append_nil]
      exact (taken.map _).nodup_iff.2 (shows.names.nodup distinct)
  have gets : ∀ s ∈ fields, Record.get _ s.field = .ok s.value := fun s hs =>
    shows.get distinct taken hs
  refine ⟨(Layout.known (fields.map (·.shape)) members).reverse, ?_, gets⟩
  rw [Layout.readObject, read, List.append_nil]
  simp only [bind, Except.bind, demand, Layout.firstMissing?_of_gets gets]
  rfl

end ObjectForm

/-! ### Arrays -/

namespace ArrayForm

theorem mem (form : ArrayForm fields items) (ht : t ∈ items) : ∃ s ∈ fields, s.forms t := by
  induction form with
  | done => cases ht
  | item form _ ih =>
    rcases List.mem_cons.1 ht with rfl | ht
    · exact ⟨_, List.mem_cons_self, form⟩
    · obtain ⟨s, hs, found⟩ := ih ht
      exact ⟨s, List.mem_cons_of_mem _ hs, found⟩

theorem kept (form : ArrayForm fields items) (each : ∀ s ∈ fields, s.Kept depth) :
    Tree.areReadable depth items = true := by
  refine Tree.areReadable_iff.2 fun t ht => ?_
  obtain ⟨s, hs, given⟩ := form.mem ht
  exact each s hs t given

theorem whole (form : ArrayForm fields items) : (Tree.array items true).Whole := by
  refine .array fun t ht => ?_
  obtain ⟨s, -, given⟩ := form.mem ht
  exact (s.encoded t given).whole

theorem readItems (form : ArrayForm fields items) :
    ∃ r, Layout.readItems (fields.map (·.shape)) items = .ok r ∧ Shows fields r := by
  induction form with
  | @done fields unset =>
    have optional : ∀ s ∈ fields, s.shape.isRequired = false := by
      intro s hs
      show s.field.default.isNone = false
      rw [unset s hs]
      rfl
    have shows : Shows fields [] := by
      clear optional
      induction fields with
      | nil => exact .nil
      | cons s fields ih =>
        exact .leftOut (unset s List.mem_cons_self)
          (ih fun u hu => unset u (List.mem_cons_of_mem _ hu))
    refine ⟨[], ?_, shows⟩
    cases fields with
    | nil => rfl
    | cons s fields => simpa [Layout.readItems] using optional
  | @item s t fields items form more ih =>
    obtain ⟨r, read, shows⟩ := ih
    refine ⟨(s.name, t) :: r, ?_, shows.given form⟩
    have checked : s.shape.check t = .ok () := by
      show (s.field.read t).map _ = _
      rw [(s.encoded t form).reads]
      rfl
    show Layout.readItems (s.shape :: _) _ = _
    rw [Layout.readItems, checked, read]
    rfl

/-- **An array is read as the fields it shows.** -/
theorem readArray (form : ArrayForm fields items) (distinct : (fields.map (·.name)).Nodup) :
    ∃ r, Layout.readArray (fields.map (·.shape)) items true = .ok r ∧
      ∀ s ∈ fields, r.get s.field = .ok s.value := by
  obtain ⟨r, read, shows⟩ := form.readItems
  refine ⟨r, ?_, fun s hs => shows.get distinct (.refl _) hs⟩
  rw [Layout.readArray, read]
  rfl

end ArrayForm

/-! ### Reading -/

/-- **Every form of a record is read as the record.** -/
theorem RecordForm.encodes (form : RecordForm depth fields t) (layout : Layout)
    (shapes : fields.map (·.shape) = layout) (distinct : (layout.map FieldShape.name).Nodup)
    {α : Type} {ofRecord : Record → Except Fault α} {a : α}
    (made : ∀ r : Record, (∀ s ∈ fields, r.get s.field = .ok s.value) → ofRecord r = .ok a) :
    t.Encodes (fun t => do ofRecord (← layout.readRecord t)) a := by
  subst shapes
  have distinct : (fields.map (·.name)).Nodup := by rwa [List.map_map] at distinct
  cases form with
  | object form =>
    obtain ⟨r, read, gets⟩ := form.readObject distinct
    refine ⟨form.whole, ?_⟩
    show (Layout.readObject _ _ true >>= ofRecord) = _
    rw [read]
    exact made r gets
  | array form =>
    obtain ⟨r, read, gets⟩ := form.readArray distinct
    refine ⟨form.whole, ?_⟩
    show (Layout.readArray _ _ true >>= ofRecord) = _
    rw [read]
    exact made r gets

end Records

end ContainerInit.Json
