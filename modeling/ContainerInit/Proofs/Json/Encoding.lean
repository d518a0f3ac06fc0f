import ContainerInit.Json.Record
import ContainerInit.Proofs.Json.Reading

/-!
# Trees that encode values

- **Encoding** (`Tree.Encodes`): nothing is missing in a tree, and a reader takes it for a value.
  A value that is encoded survives being written and decoded (`Tree.Encodes.decode_render`).
- **Simple values**: booleans, texts, integers of a range with its extremes, lists, pairs, optional
  values, and variants by their names.
- **Fields** (`RecordField.Writes`, `Entry`): what is written for a field stands for its value; a
  field that is left out has its value as its default.
- **Records** (`Layout.readMembers_known`): members under names of their own are taken in, whatever
  others stand among them, and it does not matter in which order (`Layout.known_perm`).
-/

namespace ContainerInit.Json

variable {α β : Type}

/-- A tree in which nothing is missing and that is read as the value `a`. -/
structure Tree.Encodes (t : Tree) (read : Reader α) (a : α) : Prop where
  whole : t.Whole
  reads : read t = .ok a

/-- **What is encoded is decoded.** -/
theorem Tree.Encodes.decode_render {t : Tree} {read : Reader α} {a : α} (h : t.Encodes read a) :
    decode read t.render = .ok a := by
  rw [Json.decode_render h.whole, h.reads]

/-! ## Simple values -/

theorem encodes_text (s : String) : (Tree.text s).Encodes Reader.text s :=
  ⟨.string s, rfl⟩

theorem encodes_bool (b : Bool) : (Tree.bool b).Encodes Reader.bool b :=
  ⟨.bool b, rfl⟩

theorem whole_int (i : Int) : (Tree.int i).Whole :=
  .number (Literal.wellFormed_ofInt i)

/-- An integer in the range is read as itself. -/
theorem integer_int {least greatest i : Int} (above : least ≤ i) (below : i ≤ greatest) :
    Reader.integer least greatest (.int i) = .ok i :=
  Reader.integer_number.2 ⟨Literal.toInt?_ofInt i, above, below⟩

theorem encodes_uint32 (n : UInt32) : (Tree.nat n.toNat).Encodes Reader.uint32 n := by
  refine ⟨whole_int _, ?_⟩
  have below : (n.toNat : Int) ≤ .ofNat (UInt32.size - 1) :=
    Int.ofNat_le.2 (Nat.le_pred_of_lt n.toNat_lt)
  rw [Reader.uint32, Tree.nat, integer_int (Int.natCast_nonneg _) below]
  simp [Except.map]

theorem encodes_uint64 (n : UInt64) : (Tree.nat n.toNat).Encodes Reader.uint64 n := by
  refine ⟨whole_int _, ?_⟩
  have below : (n.toNat : Int) ≤ .ofNat (UInt64.size - 1) :=
    Int.ofNat_le.2 (Nat.le_pred_of_lt n.toNat_lt)
  rw [Reader.uint64, Tree.nat, integer_int (Int.natCast_nonneg _) below]
  simp [Except.map]

theorem encodes_int32 (i : Int32) : (Tree.int i.toInt).Encodes Reader.int32 i := by
  refine ⟨whole_int _, ?_⟩
  rw [Reader.int32, integer_int i.minValue_le_toInt i.toInt_le]
  simp [Except.map]

theorem encodes_int64 (i : Int64) : (Tree.int i.toInt).Encodes Reader.int64 i := by
  refine ⟨whole_int _, ?_⟩
  rw [Reader.int64, integer_int i.minValue_le_toInt i.toInt_le]
  simp [Except.map]

/-! ## Values kept for later -/

/-- Digits that spell less than 2^64 all go into the significand. -/
theorem significand_eq {cs : List Char} {n : Nat} (small : Nat.ofDigitChars 10 cs n < UInt64.size) :
    Literal.significand n cs = (Nat.ofDigitChars 10 cs n, []) := by
  induction cs generalizing n with
  | nil => rfl
  | cons c cs ih =>
    rw [Nat.ofDigitChars_cons, Nat.mul_comm] at small ⊢
    have first : n * 10 + (c.toNat - '0'.toNat) < UInt64.size := by
      have grows := Nat.le_mul_of_pos_left (n * 10 + (c.toNat - '0'.toNat))
        (Nat.pow_pos (n := cs.length) (show 0 < 10 by decide))
      rw [Nat.ofDigitChars_eq_ofDigitChars_zero] at small
      omega
    rw [Literal.significand, if_pos first, ih small]

/-- An integer that 64 bits can hold is finite in double precision. -/
theorem isReadable_int {i : Int} (small : i.natAbs < UInt64.size) (depth : Nat) :
    (Tree.int i).isReadable depth = true := by
  have value : Nat.ofDigitChars 10 (Nat.toDigits 10 i.natAbs) 0 = i.natAbs :=
    Nat.ofDigitChars_toDigits (by decide) (by decide)
  have taken : Literal.significand 0 (Nat.toDigits 10 i.natAbs) = (i.natAbs, []) := by
    rw [significand_eq (by rwa [value]), value]
  show (Literal.ofInt i).fitsDouble = true
  simp only [Literal.fitsDouble, Literal.ofInt, taken]
  rfl

/-! ## Compound values -/

section Compound

variable {read : Reader α} {a : α} {toTree : α → Tree}

theorem encodes_list (each : ∀ a, (toTree a).Encodes read a) (as : List α) :
    (Tree.list (as.map toTree)).Encodes (Reader.list read) as := by
  have items : Reader.each read (as.map toTree) = .ok as := by
    induction as with
    | nil => rfl
    | cons a as ih =>
      rw [List.map_cons, Reader.each, (each a).reads, ih]
      rfl
  refine ⟨.array ?_, ?_⟩
  · intro t ht
    obtain ⟨a, -, rfl⟩ := List.mem_map.1 ht
    exact (each a).whole
  · simp only [Tree.list, Reader.list, items]
    rfl

theorem encodes_pair {s t : Tree} {first : Reader α} {second : Reader β} {a : α} {b : β}
    (hs : s.Encodes first a) (ht : t.Encodes second b) :
    (Tree.list [s, t]).Encodes (Reader.pair first second) (a, b) := by
  refine ⟨.array ?_, ?_⟩
  · simp [hs.whole, ht.whole]
  · simp only [Tree.list, Reader.pair, hs.reads, ht.reads]
    rfl

/-- A value that is not written as `null` is no value left out. -/
theorem Tree.Encodes.optional {t : Tree} (h : t.Encodes read a) (present : t ≠ .null) :
    t.Encodes (Reader.optional read) (some a) := by
  refine ⟨h.whole, ?_⟩
  rw [Reader.optional, h.reads]
  · rfl
  · exact present

theorem encodes_variant {ofName? : String → Option α} {name : String}
    (named : ofName? name = some a) :
    (Tree.text name).Encodes (Reader.variant ofName?) a ∧
      (Tree.text name).Encodes (Reader.keptVariant ofName?) a := by
  have found : Reader.variantNamed ofName? name = .ok a := by
    rw [Reader.variantNamed, named]
  exact ⟨⟨.string name, found⟩, ⟨.string name, found⟩⟩

end Compound

/-! ## Fields -/

/-- What is written for a field whose value is `a`: a tree that encodes it, or nothing where that is
the field's default. -/
def RecordField.Writes (f : RecordField α) (a : α) : Option Tree → Prop
  | some t => t.Encodes f.read a
  | none => f.default = some a

/-- A field of a record with its value and what is written for it. -/
structure Entry where
  {type : Type}
  field : RecordField type
  value : type
  written : Option Tree
  writes : field.Writes value written

namespace Entry

/-- An entry for a field that is always written. -/
def present (field : RecordField α) {a : α} {t : Tree} (h : t.Encodes field.read a) : Entry :=
  ⟨field, a, some t, h⟩

/-- An entry for a field that is left out where it holds nothing. -/
def optional (field : RecordField (Option α)) {read : Reader α} {toTree : α → Tree}
    (isOptional : field.read = Reader.optional read ∧ field.default = some none) (o : Option α)
    (h : ∀ a, (toTree a).Encodes read a ∧ toTree a ≠ .null) : Entry where
  field := field
  value := o
  written := o.map toTree
  writes := by
    cases o with
    | none => exact isOptional.2
    | some a =>
      show (toTree a).Encodes field.read (some a)
      rw [isOptional.1]
      exact (h a).1.optional (h a).2

/-- The name under which an entry is written. -/
def name (e : Entry) : String := e.field.name

/-- What a layout knows of an entry's field. -/
def shape (e : Entry) : FieldShape := e.field.shape

/-- The trees that are written for entries, under their names. -/
def record (entries : List Entry) : Record :=
  entries.filterMap fun e => e.written.map fun t => (e.name, t)

/-- The members that are written for entries. -/
def members (entries : List Entry) : List Member :=
  (record entries).map fun m => (some m.1, m.2)

theorem tree_eq (entries : List Entry) :
    Tree.record (entries.map fun e => (e.name, e.written)) = .object (members entries) true := by
  simp only [Tree.record, members, record, List.filterMap_map, List.map_filterMap]
  congr 2
  funext e
  simp [Option.map_map, Function.comp_def]

end Entry

/-! ## Records -/

section Records

universe u

variable {γ : Type u}

/-- What lies under a name of its own is found under it. -/
theorem find?_of_nodup {name : γ → String} {l : List γ} {a : γ} (distinct : (l.map name).Nodup)
    (mem : a ∈ l) : l.find? (fun b => name b == name a) = some a := by
  induction l with
  | nil => cases mem
  | cons b l ih =>
    obtain ⟨fresh, distinct⟩ := List.nodup_cons.1 distinct
    rcases List.mem_cons.1 mem with rfl | mem
    · simp
    · have other : name b ≠ name a := fun same => fresh (List.mem_map.2 ⟨a, mem, same.symm⟩)
      rw [List.find?_cons_of_neg (by simpa using other), ih distinct mem]

theorem eq_of_nodup {name : γ → String} {l : List γ} {a b : γ} (distinct : (l.map name).Nodup)
    (ha : a ∈ l) (hb : b ∈ l) (same : name a = name b) : a = b := by
  have found := find?_of_nodup distinct ha
  rw [same, find?_of_nodup distinct hb] at found
  exact (Option.some.inj found).symm

/-- Two elements stand one before the other among the rest. -/
theorem perm_pair {m n : γ} {l others : List γ} (perm : l.Perm (m :: n :: others)) :
    ∃ a b c : List γ, (a ++ b ++ c).Perm others ∧
      (l = a ++ m :: (b ++ n :: c) ∨ l = a ++ n :: (b ++ m :: c)) := by
  obtain ⟨a, b, rfl⟩ := List.append_of_mem (perm.mem_iff.2 List.mem_cons_self)
  have rest : (a ++ b).Perm (n :: others) := (List.perm_middle.symm.trans perm).cons_inv
  rcases List.mem_append.1 (rest.mem_iff.2 List.mem_cons_self) with mem | mem
  · obtain ⟨a, c, rfl⟩ := List.append_of_mem mem
    refine ⟨a, c, b, ?_, .inr (by simp)⟩
    rw [List.append_assoc, List.cons_append] at rest
    rw [List.append_assoc]
    exact (List.perm_middle.symm.trans rest).cons_inv
  · obtain ⟨b, c, rfl⟩ := List.append_of_mem mem
    refine ⟨a, b, c, ?_, .inl (by simp)⟩
    rw [← List.append_assoc] at rest
    exact (List.perm_middle.symm.trans rest).cons_inv

theorem Record.find?_eq_some {r : Record} {m : String × Tree} (distinct : (r.map (·.1)).Nodup)
    (mem : m ∈ r) : r.find? m.1 = some m.2 := by
  rw [Record.find?, find?_of_nodup distinct mem]
  rfl

theorem Record.find?_eq_none {r : Record} {name : String} (fresh : name ∉ r.map (·.1)) :
    r.find? name = none := by
  have absent : List.find? (fun m : String × Tree => m.1 == name) r = none := by
    rw [List.find?_eq_none]
    intro m hm same
    exact fresh (List.mem_map.2 ⟨m, hm, by simpa using same⟩)
  rw [Record.find?, absent]
  rfl

/-- The members that a record stands for. -/
def Record.toMembers (r : Record) : List Member :=
  r.map fun m => (some m.1, m.2)

/-! ### Members -/

namespace Layout

variable {fields : Layout} {members others : List Member} {seen own : Record}

/-- A member that is skipped: no field has its name. -/
structure Skips (fields : Layout) (m : Member) : Prop where
  foreign : ∃ name, m.1 = some name ∧ name ∉ fields.map FieldShape.name
  sound : m.2.isSound = true

/-- A member that is taken for a field. -/
def Takes (fields : Layout) (m : Member) : Prop :=
  ∃ name f, m.1 = some name ∧ fields.find? name = some f ∧ f.check m.2 = .ok ()

/-- The members that a layout has fields for. -/
def known (fields : Layout) (members : List Member) : Record :=
  members.filterMap fun m => m.1.bind fun name => (fields.find? name).map fun _ => (name, m.2)

theorem Skips.find? {m : Member} (skips : fields.Skips m) :
    ∃ name, m.1 = some name ∧ fields.find? name = none := by
  obtain ⟨name, named, foreign⟩ := skips.foreign
  refine ⟨name, named, List.find?_eq_none.2 fun f hf same => foreign ?_⟩
  exact List.mem_map.2 ⟨f, hf, by simpa using same⟩

/-- Members under names of their own are taken in, among others that are skipped. -/
theorem readMembers_known (each : ∀ m ∈ members, fields.Takes m ∨ fields.Skips m)
    (distinct : (((fields.known members).reverse ++ seen).map (·.1)).Nodup) :
    fields.readMembers seen members = .ok ((fields.known members).reverse ++ seen) := by
  induction members generalizing seen with
  | nil => rfl
  | cons m members ih =>
    have rest : ∀ n ∈ members, fields.Takes n ∨ fields.Skips n := fun n hn =>
      each n (List.mem_cons_of_mem _ hn)
    obtain ⟨_, t⟩ := m
    rcases each _ List.mem_cons_self with ⟨name, f, rfl, found, checked⟩ | skips
    · have first : fields.known ((some name, t) :: members) =
          (name, t) :: fields.known members := by
        simp [known, found]
      rw [first, List.reverse_cons, List.append_assoc] at distinct ⊢
      have fresh : seen.find? name = none := by
        refine Record.find?_eq_none fun mem => ?_
        rw [List.map_append] at distinct
        exact (List.nodup_cons.1 (List.nodup_append.1 distinct).2.1).1 mem
      rw [readMembers]
      simp only [found, fresh, checked]
      exact ih rest distinct
    · obtain ⟨name, rfl, unknown⟩ := skips.find?
      have first : fields.known ((some name, t) :: members) = fields.known members := by
        simp [known, unknown]
      rw [first] at distinct ⊢
      rw [readMembers]
      simp only [unknown, skips.sound, demand]
      exact ih rest distinct

/-- The members that are taken from an object are those that are known, in whatever order. -/
theorem known_perm (found : ∀ m ∈ own, ∃ f, fields.find? m.1 = some f)
    (skips : ∀ m ∈ others, fields.Skips m) (perm : members.Perm (own.toMembers ++ others)) :
    (fields.known members).Perm own := by
  have taken : fields.known own.toMembers = own := by
    clear perm
    induction own with
    | nil => rfl
    | cons m own ih =>
      obtain ⟨f, known⟩ := found m List.mem_cons_self
      have rest := ih fun n hn => found n (List.mem_cons_of_mem _ hn)
      simpa [Layout.known, Record.toMembers, known] using rest
  have skipped : fields.known others = [] := by
    refine List.filterMap_eq_nil_iff.2 fun m hm => ?_
    obtain ⟨name, named, unknown⟩ := (skips m hm).find?
    simp [named, unknown]
  have same : fields.known (own.toMembers ++ others) = own := by
    rw [Layout.known, List.filterMap_append]
    exact (congrArg₂ (· ++ ·) taken skipped).trans (List.append_nil own)
  rw [← same]
  exact perm.filterMap _

end Layout

end Records

end ContainerInit.Json
