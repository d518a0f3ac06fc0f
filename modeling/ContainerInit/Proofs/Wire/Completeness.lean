import ContainerInit.Proofs.Wire.Fields

/-!
# Objects are accepted exactly when they are complete

- **Decisions** (`Json.Decides`): what the occurrences of fields among the members of an object say
  about the result of reading it.
- **Records** (`Restores.decides`): the records of every type are decided by their fields.
- **Payloads** (`Payload.decides`): the kind is one of the fields, and says which others there are.
- **Errors** (`ControllerError.decides`): so is the kind of an error; the details are read when both
  are known.
- **The wire** (`completeness_decides`): this holds of every text of an object whose members are
  valid, for every type.
-/

namespace ContainerInit

namespace Json

/-! ## Decisions -/

/-- A member of an object at nesting depth `depth` has a value of the field of its name, or it is
foreign. -/
def Layout.Valid (fields : Layout) (depth : Nat) (m : Member) : Prop :=
  (∃ f ∈ fields, m.1 = some f.name ∧ m.2.Whole ∧ f.check m.2 = .ok ()) ∨
  Foreign depth (fields.map FieldShape.name) m

/-- The value of a field is that of a member, or it is the default and there is no member. -/
def Shown.GivenBy (s : Shown) (members : List Member) : Prop :=
  (∃ t, (some s.name, t) ∈ members ∧ s.field.read t = .ok s.value) ∨
  (occurs s.name members = 0 ∧ s.field.default = some s.value)

/-- Fields are missing and none is repeated; of those that are missing, this one is declared
first. -/
structure Layout.FirstMissing (fields : Layout) (f : FieldShape) (members : List Member) : Prop where
  once : ∀ g ∈ fields, occurs g.name members ≤ 1
  first : fields.firstAbsent? members = some f

/-- This field is repeated, and every other one occurs as often as it may. -/
structure Layout.OnlyRepeated (fields : Layout) (f : FieldShape) (members : List Member) : Prop where
  mem : f ∈ fields
  twice : 2 ≤ occurs f.name members
  others : ∀ g ∈ fields, g.name ≠ f.name → g.Allows (occurs g.name members)

/-- Members are read as a value exactly if they are complete; the value is what they give. Otherwise
the first missing field is named, or the one that is repeated. -/
structure Decides {α : Type} (fields : Layout) (shown : α → List Shown) (members : List Member)
    (result : Except Fault α) : Prop where
  accepted : (∃ a, result = .ok a) ↔ fields.Complete members
  given : ∀ a, result = .ok a →
    (shown a).map (·.shape) = fields ∧ ∀ s ∈ shown a, s.GivenBy members
  missing : ∀ f, fields.FirstMissing f members → result = .error (.missingField f.name)
  repeated : ∀ f, fields.OnlyRepeated f members → result = .error (.duplicateField f.name)

section Records

variable {α : Type} {fields : Layout} {members : List Member} {depth : Nat}

theorem Layout.Valid.whole {m : Member} (valid : fields.Valid depth m) :
    m.1.isSome = true ∧ m.2.Whole := by
  rcases valid with ⟨f, -, named, whole, -⟩ | foreign
  · exact ⟨by simp [named], whole⟩
  · obtain ⟨name, named, -⟩ := foreign.named
    exact ⟨by simp [named], foreign.plain.whole⟩

theorem Layout.Valid.whole_object (valid : ∀ m ∈ members, fields.Valid depth m) :
    (Tree.object members true).Whole :=
  .object (fun m hm => (valid m hm).whole.1) fun m hm => (valid m hm).whole.2

theorem Layout.Valid.reads (distinct : (fields.map FieldShape.name).Nodup)
    (valid : ∀ m ∈ members, fields.Valid depth m) : fields.Reads members := by
  intro m hm
  rcases valid m hm with ⟨f, hf, named, -, checked⟩ | foreign
  · exact .inl ⟨f.name, f, named, find?_of_nodup distinct hf, checked⟩
  · exact .inr ⟨foreign.named, foreign.plain.isSound⟩

/-- A field that a record shows is given by the members that were taken. -/
theorem Shown.givenBy {s : Shown} (mem : s.shape ∈ fields)
    (get : Record.get (fields.known members).reverse s.field = .ok s.value) :
    s.GivenBy members := by
  cases found : Record.find? (fields.known members).reverse s.name with
  | none =>
    refine .inr ⟨(Layout.find?_known_eq_none_iff mem).1 found, ?_⟩
    have found : Record.find? (fields.known members).reverse s.field.name = none := found
    rw [Record.get, found] at get
    cases default : s.field.default with
    | none => simp [default] at get
    | some a => simpa [default] using get
  | some t =>
    have taken := List.mem_reverse.1 (Record.mem_of_find? found)
    refine .inl ⟨t, (Layout.mem_known_iff.1 taken).1, ?_⟩
    have found : Record.find? (fields.known members).reverse s.field.name = some t := found
    rwa [Record.get, found] at get

/-- Where a field that is declared first is missing, nothing is read. -/
theorem Decides.of_missing {shown : α → List Shown} {f : FieldShape}
    (required : f.isRequired = true) (absent : occurs f.name members = 0)
    (first : fields.firstAbsent? members = some f) :
    Decides fields shown members (.error (.missingField f.name)) where
  accepted := by
    refine ⟨nofun, fun complete => ?_⟩
    have := (complete f (List.mem_of_find?_eq_some first)).2 required
    omega
  given := nofun
  missing g missing := by
    rw [missing.first] at first
    cases first
    rfl
  repeated g repeated := by
    have other : f.name ≠ g.name := by
      intro same
      have := repeated.twice
      rw [← same] at this
      omega
    have := (repeated.others f (List.mem_of_find?_eq_some first) other).2 required
    omega

/-- Where a field is repeated, nothing is read. -/
theorem Decides.of_repeated {shown : α → List Shown} {f : FieldShape} (hf : f ∈ fields)
    (twice : 2 ≤ occurs f.name members) :
    Decides fields shown members (.error (.duplicateField f.name)) where
  accepted := by
    refine ⟨nofun, fun complete => ?_⟩
    have := (complete f hf).1
    omega
  given := nofun
  missing g missing := by
    have := missing.once f hf
    omega
  repeated g repeated := by
    by_cases same : f.name = g.name
    · rw [same]
    · have := (repeated.others f hf same).1
      omega

/-- Where nothing is missing or repeated, a value is read. -/
theorem Decides.of_complete {shown : α → List Shown} {a : α} (complete : fields.Complete members)
    (shapes : (shown a).map (·.shape) = fields) (given : ∀ s ∈ shown a, s.GivenBy members) :
    Decides fields shown members (.ok a) where
  accepted := ⟨fun _ => complete, fun _ => ⟨a, rfl⟩⟩
  given := by
    rintro _ ⟨⟩
    exact ⟨shapes, given⟩
  missing f missing := by
    have none : fields.firstAbsent? members = none := by
      refine Layout.firstAbsent?_eq_none_iff.2 fun g hg required => ?_
      have := (complete g hg).2 required
      omega
    rw [missing.first] at none
    cases none
  repeated f repeated := by
    have := (complete f repeated.mem).1
    have := repeated.twice
    omega

end Records

end Json

open Json

/-! ## Records -/

/-- **A record is decided by its fields.** -/
theorem Restores.decides {α : Type} {fields : Layout} {members : List Member}
    {ofRecord : Record → Except Fault α} {shown : α → List Shown}
    (restores : Restores fields ofRecord shown) (reads : fields.Reads members) :
    Decides fields shown members (fields.readObject members true >>= ofRecord) where
  accepted := by
    constructor
    · rintro ⟨a, read⟩
      obtain ⟨r, read, -⟩ := bind_eq_ok_iff.1 read
      exact (Layout.readObject_eq_ok_iff.1 read).2.2.1
    · intro complete
      have read := Layout.readObject_eq_ok_iff.2 ⟨rfl, reads, complete, rfl⟩
      obtain ⟨a, made⟩ := restores.total _ fun f hf =>
        Layout.readObject_held restores.distinct read hf
      exact ⟨a, bind_eq_ok_iff.2 ⟨_, read, made⟩⟩
  given := by
    intro a read
    obtain ⟨r, read, made⟩ := bind_eq_ok_iff.1 read
    obtain ⟨-, -, -, rfl⟩ := Layout.readObject_eq_ok_iff.1 read
    have shapes := restores.shapes _ a made
    refine ⟨shapes, fun s hs => Shown.givenBy ?_ (restores.shows _ a made s hs)⟩
    rw [← shapes]
    exact List.mem_map_of_mem hs
  missing := by
    rintro f ⟨once, first⟩
    rw [Layout.readObject_missing reads once first]
    rfl
  repeated := by
    rintro f ⟨mem, twice, others⟩
    rw [Layout.readObject_repeated reads mem twice fun g hg other => (others g hg other).1]
    rfl

/-! ## Payloads -/

namespace Payload

/-- The fields of the payloads of a kind, the kind first. -/
def taggedLayout (k : PayloadKind) : Layout := kindField.shape :: layout k

/-- If the kind is given once, it is this one. -/
def IsOfKind (k : PayloadKind) (members : List Member) : Prop :=
  occurs "kind" members = 1 → ∀ t, (some "kind", t) ∈ members → readKind t = .ok k

variable {k : PayloadKind} {members a b c : List Member} {t u : Tree} {depth : Nat}

theorem name_ne_kind {f : FieldShape} (hf : f ∈ layout k) : f.name ≠ "kind" := by
  have distinct : "kind" ∉ (layout k).map FieldShape.name := by
    cases k <;> decide
  exact fun same => distinct (same ▸ List.mem_map_of_mem hf)

theorem readKind_of_valid (valid : (taggedLayout k).Valid 1 (some "kind", t)) :
    ∃ k', readKind t = .ok k' := by
  rcases valid with ⟨f, hf, named, -, checked⟩ | foreign
  · rcases List.mem_cons.1 hf with rfl | hf
    · exact RecordField.check_eq_ok_iff.1 checked
    · exact absurd (Option.some.inj named).symm (name_ne_kind hf)
  · obtain ⟨_, ⟨⟩, foreign⟩ := foreign.named
    exact absurd List.mem_cons_self foreign

theorem keeps_of_valid {m : Member} (valid : (taggedLayout k).Valid 1 m)
    (other : m.1 ≠ some "kind") : Keeps 2 m := by
  rcases valid with ⟨f, hf, named, -, checked⟩ | foreign
  · rcases List.mem_cons.1 hf with rfl | hf
    · exact absurd named other
    · exact ⟨⟨_, named, name_ne_kind hf⟩, isReadable_of_check (by decide) hf checked⟩
  · obtain ⟨name, named, -⟩ := foreign.named
    exact ⟨⟨name, named, fun same => other (same ▸ named)⟩, foreign.plain.isReadable⟩

theorem keeps_of_absent (valid : ∀ m ∈ members, (taggedLayout k).Valid 1 m)
    (absent : occurs "kind" members = 0) : ∀ m ∈ members, Keeps 2 m := by
  intro m hm
  refine keeps_of_valid (valid m hm) fun kind => ?_
  exact occurs_eq_zero_iff.1 absent m.2 (by rwa [← kind])

/-- Without a kind, the kind is missing. -/
theorem readAt_noKind (keeps : ∀ m ∈ members, Keeps (depth + 1) m) :
    readAt depth (.object members true) = .error (.missingField "kind") := by
  have kept : split (depth + 1) members none [] = .ok (none, members.reverse.reverse) := by
    simpa [split] using @split_append (depth + 1) none members [] [] keeps
  rw [readAt, kept]
  rfl

/-- With one kind, the fields of that kind are read. -/
theorem readAt_oneKind (found : readKind t = .ok k) (keeps : ∀ m ∈ a ++ b, Keeps (depth + 1) m) :
    readAt depth (.object (a ++ (some "kind", t) :: b) true) =
      ((layout k).readObject (a ++ b) true >>= ofRecord k) := by
  rw [readAt, split_kind found keeps]
  rfl

/-- A second kind is a repetition. -/
theorem readAt_twoKinds (found : readKind t = .ok k) (before : ∀ m ∈ a, Keeps (depth + 1) m)
    (between : ∀ m ∈ b, Keeps (depth + 1) m) :
    readAt depth (.object (a ++ (some "kind", t) :: (b ++ (some "kind", u) :: c)) true) =
      .error (.duplicateField "kind") := by
  have again : split (depth + 1) (a ++ (some "kind", t) :: (b ++ (some "kind", u) :: c)) none [] =
      .error (.duplicateField "kind") := by
    rw [split_append before, split, if_pos rfl, found]
    show split (depth + 1) (b ++ _) (some k) _ = _
    rw [split_append between, split, if_pos rfl]
  rw [readAt, again]
  rfl

theorem valid_fields {m : Member} (valid : (taggedLayout k).Valid 1 m) (other : m.1 ≠ some "kind") :
    (layout k).Valid 1 m := by
  rcases valid with ⟨f, hf, named, whole, checked⟩ | foreign
  · rcases List.mem_cons.1 hf with rfl | hf
    · exact absurd named other
    · exact .inl ⟨f, hf, named, whole, checked⟩
  · obtain ⟨name, named, fresh⟩ := foreign.named
    exact .inr ⟨⟨name, named, fun mem => fresh (List.mem_cons_of_mem _ mem)⟩, foreign.plain⟩

/-- The kind beside the fields of that kind. -/
theorem decides_tagged {result : Except Fault Payload} (found : readKind t = .ok k)
    (once : occurs "kind" (a ++ (some "kind", t) :: b) = 1)
    (made : ∀ p, result = .ok p → p.kind = k)
    (inner : Decides (layout k) shownFields (a ++ b) result) :
    Decides (taggedLayout k) shown (a ++ (some "kind", t) :: b) result := by
  have same {name : String} (other : name ≠ "kind") :
      occurs name (a ++ (some "kind", t) :: b) = occurs name (a ++ b) := by
    rw [occurs_append, occurs_append, occurs_cons_of_ne (by simpa using other.symm)]
  have fields {f : FieldShape} (hf : f ∈ layout k) := same (name_ne_kind hf)
  have kind : kindField.shape.Allows (occurs "kind" (a ++ (some "kind", t) :: b)) := by
    simp [FieldShape.Allows, once]
  constructor
  · rw [inner.accepted, Layout.Complete, Layout.Complete, taggedLayout, List.forall_mem_cons]
    refine ⟨fun complete => ⟨kind, fun f hf => ?_⟩, fun complete f hf => ?_⟩
    · rw [fields hf]
      exact complete f hf
    · rw [← fields hf]
      exact complete.2 f hf
  · intro p read
    obtain ⟨shapes, given⟩ := inner.given p read
    refine ⟨congrArg (kindField.shape :: ·) shapes, List.forall_mem_cons.2 ⟨?_, fun s hs => ?_⟩⟩
    · refine .inl ⟨t, by simp [Entry.name, Shown.present, Shown.among, Entry.present,
        kindField], ?_⟩
      show readKind t = .ok p.kind
      rw [found, made p read]
    · have hf : s.shape ∈ layout k := shapes ▸ List.mem_map_of_mem hs
      rcases given s hs with ⟨u, mem, value⟩ | ⟨absent, default⟩
      · exact .inl ⟨u, by simpa using (List.mem_append.1 mem).imp_right .inr, value⟩
      · exact .inr ⟨(fields hf).trans absent, default⟩
  · rintro f ⟨unrepeated, first⟩
    refine inner.missing f ⟨fun g hg => ?_, ?_⟩
    · rw [← fields hg]
      exact unrepeated g (List.mem_cons_of_mem _ hg)
    · rw [taggedLayout, Layout.firstAbsent?, List.find?_cons_of_neg] at first
      · rw [← first]
        exact find?_congr fun g hg => by rw [fields hg]
      · show ¬ (_ && occurs "kind" _ == 0) = true
        simp [once]
  · rintro f ⟨mem, twice, others⟩
    rcases List.mem_cons.1 mem with rfl | hf
    · have := kind.1
      have twice : 2 ≤ occurs "kind" _ := twice
      omega
    · refine inner.repeated f ⟨hf, by rwa [← fields hf], fun g hg other => ?_⟩
      rw [← fields hg]
      exact others g (List.mem_cons_of_mem _ hg) other

/-- **A payload is decided by its kind and the fields of that kind.** -/
theorem decides (valid : ∀ m ∈ members, (taggedLayout k).Valid 1 m) (kind : IsOfKind k members) :
    Decides (taggedLayout k) shown members (read (.object members true)) := by
  by_cases absent : occurs "kind" members = 0
  · rw [read, readAt_noKind (keeps_of_absent valid absent)]
    refine .of_missing (f := kindField.shape) rfl absent (List.find?_cons_of_pos ?_)
    show (_ && occurs "kind" _ == 0) = true
    simp [absent, kindField, RecordField.shape]
  · obtain ⟨a, t, b, rfl, before⟩ := exists_first absent
    have total : occurs "kind" (a ++ (some "kind", t) :: b) = occurs "kind" b + 1 := by
      rw [occurs_append, occurs_cons_self, before, Nat.zero_add]
    have mem : (some "kind", t) ∈ a ++ (some "kind", t) :: b := by simp
    have others : ∀ m ∈ a ++ b, (taggedLayout k).Valid 1 m := fun m hm =>
      valid m (by simpa using (List.mem_append.1 hm).imp_right .inr)
    by_cases last : occurs "kind" b = 0
    · have none : occurs "kind" (a ++ b) = 0 := by rw [occurs_append, before, last]
      have found := kind (by rw [total, last]) t mem
      have fields : (layout k).Reads (a ++ b) := by
        refine Layout.Valid.reads (restores k).distinct fun m hm => valid_fields (others m hm) ?_
        exact fun is => occurs_eq_zero_iff.1 none m.2 (is ▸ hm)
      rw [read, readAt_oneKind found (keeps_of_absent others none)]
      refine decides_tagged found (by rw [total, last]) ?_ ((restores k).decides fields)
      intro p made
      obtain ⟨_, -, made⟩ := bind_eq_ok_iff.1 made
      exact (shows_of_ofRecord made).1
    · obtain ⟨b, u, c, rfl, between⟩ := exists_first last
      obtain ⟨k', found⟩ := readKind_of_valid (valid _ mem)
      have keeps : ∀ m ∈ a ++ b, Keeps 2 m := by
        refine keeps_of_absent (fun m hm => others m ?_) (by rw [occurs_append, before, between])
        rcases List.mem_append.1 hm with hm | hm <;> simp [hm]
      rw [read, readAt_twoKinds found (fun m hm => keeps m (List.mem_append_left _ hm))
        fun m hm => keeps m (List.mem_append_right _ hm)]
      refine .of_repeated (f := kindField.shape) List.mem_cons_self ?_
      show 2 ≤ occurs "kind" _
      omega

end Payload

/-! ## Errors -/

namespace ControllerError

/-- The kind and the details of the errors of a kind. -/
def taggedLayout (k : Kind) : Layout := [kindField.shape, (detailsField k).shape]

/-- The first kind that is given, if any is, is this one. -/
def FirstKind (k : Kind) (members : List Member) : Prop :=
  ∀ a t b, members = a ++ (some "error_type", t) :: b → occurs "error_type" a = 0 →
    Reader.variant Kind.ofName? t = .ok k

/-- The first kind that is given is this one, and the details can be kept until it is known. -/
structure IsOfKind (k : Kind) (members : List Member) : Prop where
  first : FirstKind k members
  readable : ∀ t, (some "details", t) ∈ members → t.isReadable 2 = true

/-- How often what has been read stands for a kind. -/
def Progress.kinds : Progress → Nat
  | .nothing | .details _ => 0
  | .kind _ | .whole _ => 1

/-- How often what has been read stands for details. -/
def Progress.parts : Progress → Nat
  | .nothing | .kind _ => 0
  | .details _ | .whole _ => 1

/-- What has been read is what members give for an error of a kind. -/
def Progress.Fits (k : Kind) (members : List Member) : Progress → Prop
  | .nothing => True
  | .kind k' => k' = k ∧ ∃ t, (some "error_type", t) ∈ members ∧ Reader.variant Kind.ofName? t = .ok k
  | .details d => (some "details", d) ∈ members
  | .whole e => (∃ t, (some "error_type", t) ∈ members ∧ Reader.variant Kind.ofName? t = .ok k) ∧
    ∃ d, (some "details", d) ∈ members ∧ readDetails k d = .ok e

/-- A member of an error: its kind, details that can be kept, or one to be skipped. -/
inductive Suits : Member → Prop
  | kind (t : Tree) : Suits (some "error_type", t)
  | details {t : Tree} (readable : t.isReadable 2 = true) : Suits (some "details", t)
  | other {m : Member} (skips : Skips m) : Suits m

variable {k : Kind} {members all : List Member} {m : Member} {so : Progress} {t : Tree}

theorem FirstKind.tail (first : FirstKind k (m :: members)) (other : m.1 ≠ some "error_type") :
    FirstKind k members := by
  intro a t b split none
  refine first (m :: a) t b (by rw [split]; rfl) ?_
  rw [occurs_cons_of_ne other, none]

/-- What comes of reading members, when a kind and details are given so many times in all. -/
inductive Outcome (k : Kind) (members : List Member) (kinds parts : Nat) :
    Except Fault Progress → Prop
  | taken {so : Progress} (fits : so.Fits k members) (once : so.kinds = kinds ∧ so.parts = parts) :
    Outcome k members kinds parts (.ok so)
  | kindTwice (twice : 2 ≤ kinds) :
    Outcome k members kinds parts (.error (.duplicateField "error_type"))
  | detailsTwice (twice : 2 ≤ parts) :
    Outcome k members kinds parts (.error (.duplicateField "details"))

/-- **Members are taken for a kind and for details, or a repeated name is reported.** -/
theorem readMembers_outcome (sub : ∀ m ∈ members, m ∈ all) (suits : ∀ m ∈ members, Suits m)
    (first : so.kinds = 0 → FirstKind k members)
    (known : ∀ d, (some "details", d) ∈ all → ∃ e, readDetails k d = .ok e) (fits : so.Fits k all) :
    Outcome k all (so.kinds + occurs "error_type" members) (so.parts + occurs "details" members)
      (readMembers so members) := by
  induction members generalizing so with
  | nil => exact .taken fits ⟨rfl, rfl⟩
  | cons m members ih =>
    obtain ⟨mem, sub⟩ := List.forall_mem_cons.1 sub
    obtain ⟨suit, suits⟩ := List.forall_mem_cons.1 suits
    have ih (so : Progress) := @ih so sub suits
    cases suit with
    | kind t =>
      have other : occurs "details" ((some "error_type", t) :: members) = occurs "details" members :=
        occurs_cons_of_ne (by simp)
      rw [occurs_cons_self, other]
      cases so with
      | nothing =>
        have kind := first rfl [] t members rfl rfl
        have next := ih (.kind k) (fun none => by cases none) ⟨rfl, t, mem, kind⟩
        rw [readMembers, if_pos rfl, kind]
        simpa [bind, Except.bind, Progress.kinds, Progress.parts, Nat.add_comm] using next
      | details d =>
        have kind := first rfl [] t members rfl rfl
        obtain ⟨e, read⟩ := known d fits
        have next := ih (.whole e) (fun none => by cases none) ⟨⟨t, mem, kind⟩, d, fits, read⟩
        rw [readMembers, if_pos rfl, kind]
        simpa [bind, Except.bind, read, Progress.kinds, Progress.parts, Nat.add_comm] using next
      | kind _ =>
        rw [readMembers, if_pos rfl]
        exact .kindTwice (by simp only [Progress.kinds]; omega)
      | whole _ =>
        rw [readMembers, if_pos rfl]
        exact .kindTwice (by simp only [Progress.kinds]; omega)
    | @details t readable =>
      have tail (none : so.kinds = 0) : FirstKind k members := (first none).tail (by simp)
      have other : occurs "error_type" ((some "details", t) :: members) =
          occurs "error_type" members := occurs_cons_of_ne (by simp)
      rw [occurs_cons_self, other]
      cases so with
      | nothing =>
        have next := ih (.details t) tail mem
        rw [readMembers, if_neg (by decide), if_pos rfl, readable]
        simpa [bind, Except.bind, demand, Progress.kinds, Progress.parts, Nat.add_comm] using next
      | kind _ =>
        obtain ⟨rfl, kind⟩ := fits
        obtain ⟨e, read⟩ := known t mem
        have next := ih (.whole e) (fun none => by cases none) ⟨kind, t, mem, read⟩
        rw [readMembers, if_neg (by decide), if_pos rfl, read]
        simpa [bind, Except.bind, Progress.kinds, Progress.parts, Nat.add_comm] using next
      | details _ =>
        rw [readMembers, if_neg (by decide), if_pos rfl]
        exact .detailsTwice (by simp only [Progress.parts]; omega)
      | whole _ =>
        rw [readMembers, if_neg (by decide), if_pos rfl]
        exact .detailsTwice (by simp only [Progress.parts]; omega)
    | other skips =>
      obtain ⟨name, named, noKind, noDetails⟩ := skips.other
      have kind : m.1 ≠ some "error_type" := by simpa [named] using noKind
      have details : m.1 ≠ some "details" := by simpa [named] using noDetails
      have skip : readMembers so (m :: members) = readMembers so members :=
        readMembers_append (a := [m]) (by simpa using skips)
      rw [occurs_cons_of_ne kind, occurs_cons_of_ne details, skip]
      exact ih _ (fun none => (first none).tail kind) fits

theorem kind_of_readDetails {e : ControllerError} (read : readDetails k t = .ok e) : e.kind = k := by
  cases k
  case signalFailed =>
    rw [readDetails, readSignalFailed.eq_def] at read
    split at read
    · obtain ⟨_, -, read⟩ := bind_eq_ok_iff.1 read
      simp only [bind_eq_ok_iff] at read
      obtain ⟨_, -, _, -, _, -, ⟨⟩⟩ := read
      rfl
    · cases read
  all_goals
    obtain ⟨_, -, ⟨⟩⟩ := bind_eq_ok_iff.1 read
    rfl

theorem suits_of_valid (valid : (taggedLayout k).Valid 1 m)
    (readable : ∀ t, m = (some "details", t) → t.isReadable 2 = true) : Suits m := by
  obtain ⟨n, t⟩ := m
  rcases valid with ⟨f, hf, named, -, -⟩ | foreign
  · simp only [taggedLayout, List.mem_cons, List.not_mem_nil, or_false] at hf
    rcases hf with rfl | rfl
    · obtain rfl : n = some "error_type" := named
      exact .kind t
    · obtain rfl : n = some "details" := named
      exact .details (readable t rfl)
  · obtain ⟨name, named, fresh⟩ := foreign.named
    simp only [taggedLayout, List.map_cons, List.map_nil, List.mem_cons, not_or] at fresh
    exact .other ⟨⟨name, named, fresh.1, fresh.2.1⟩, foreign.plain.isSound⟩

theorem details_of_valid (valid : (taggedLayout k).Valid 1 (some "details", t)) :
    ∃ e, readDetails k t = .ok e := by
  rcases valid with ⟨f, hf, named, -, checked⟩ | foreign
  · simp only [taggedLayout, List.mem_cons, List.not_mem_nil, or_false] at hf
    rcases hf with rfl | rfl
    · simp [kindField, RecordField.shape] at named
    · exact RecordField.check_eq_ok_iff.1 checked
  · obtain ⟨_, ⟨⟩, fresh⟩ := foreign.named
    simp [taggedLayout, detailsField, RecordField.shape] at fresh

/-- **An error is decided by its kind and its details.** -/
theorem decides (valid : ∀ m ∈ members, (taggedLayout k).Valid 1 m) (kind : IsOfKind k members) :
    Decides (taggedLayout k) shown members (read (.object members true)) := by
  have suits : ∀ m ∈ members, Suits m := fun m hm =>
    suits_of_valid (valid m hm) fun t is => kind.readable t (is ▸ hm)
  have fits : Progress.nothing.Fits k members := trivial
  have outcome := readMembers_outcome (fun _ hm => hm) suits (fun _ => kind.first)
    (fun d hd => details_of_valid (valid _ hd)) fits
  simp only [Progress.kinds, Progress.parts, Nat.zero_add] at outcome
  have names : kindField.shape.name = "error_type" ∧ (detailsField k).shape.name = "details" :=
    ⟨rfl, rfl⟩
  rw [read]
  generalize readMembers .nothing members = found at outcome
  cases outcome with
  | kindTwice twice => exact .of_repeated (f := kindField.shape) List.mem_cons_self twice
  | detailsTwice twice =>
    exact .of_repeated (f := (detailsField k).shape) (by simp [taggedLayout]) twice
  | @taken so fits once =>
    obtain ⟨kinds, parts⟩ := once
    have noKind (absent : occurs "error_type" members = 0) :
        (taggedLayout k).firstAbsent? members = some kindField.shape := by
      simp [Layout.firstAbsent?, taggedLayout, absent, kindField, RecordField.shape]
    cases so with
    | nothing => exact .of_missing (f := kindField.shape) rfl kinds.symm (noKind kinds.symm)
    | details => exact .of_missing (f := kindField.shape) rfl kinds.symm (noKind kinds.symm)
    | kind =>
      refine .of_missing (f := (detailsField k).shape) rfl parts.symm ?_
      have kinds : 1 = occurs "error_type" members := kinds
      have parts : 0 = occurs "details" members := parts
      simp [Layout.firstAbsent?, taggedLayout, ← kinds, ← parts, kindField, detailsField,
        RecordField.shape]
    | whole e =>
      obtain ⟨⟨s, hs, kind⟩, d, hd, details⟩ := fits
      have same := kind_of_readDetails details
      subst same
      refine .of_complete ?_ rfl ?_
      · have kinds : 1 = occurs "error_type" members := kinds
        have parts : 1 = occurs "details" members := parts
        simp [Layout.Complete, taggedLayout, FieldShape.Allows, names, ← kinds, ← parts]
      · exact List.forall_mem_cons.2 ⟨.inl ⟨s, hs, kind⟩,
          List.forall_mem_cons.2 ⟨.inl ⟨d, hd, details⟩, List.forall_mem_nil _⟩⟩

/-! ### Details of a failed signal -/

/-- The error that the details of a failed signal make. -/
def ofSignalRecord (r : Record) : Except Fault ControllerError := do
  return .signalFailed (← r.get idField) (← r.get signalField) (← r.get reasonField)

/-- The details of an error as a record, if they are one. -/
def signalFields : ControllerError → List Shown
  | .signalFailed id signal reason => signalShown id signal reason
  | _ => []

theorem restores_signal : Restores signalLayout ofSignalRecord signalFields where
  distinct := by decide
  total r held := by
    simp only [signalLayout, List.forall_mem_cons] at held
    obtain ⟨id, signal, reason, -⟩ := held
    obtain ⟨_, id⟩ := RecordField.exists_get id
    obtain ⟨_, signal⟩ := RecordField.exists_get signal
    obtain ⟨_, reason⟩ := RecordField.exists_get reason
    exact ⟨_, by simp only [ofSignalRecord, id, signal, reason]; rfl⟩
  shapes r e made := by
    simp only [ofSignalRecord, bind_eq_ok_iff] at made
    obtain ⟨_, -, _, -, _, -, ⟨⟩⟩ := made
    rfl
  shows r e made := by
    simp only [ofSignalRecord, bind_eq_ok_iff] at made
    obtain ⟨_, id, _, signal, _, reason, ⟨⟩⟩ := made
    simpa [signalFields, signalShown, Shown.present, Shown.among, Entry.present] using
      ⟨id, signal, reason⟩

/-- With one kind and one set of details, an error is read as its details are. -/
theorem read_of_perm {s : Tree} {others : List Member}
    (perm : members.Perm ((some "error_type", s) :: (some "details", t) :: others))
    (kind : Reader.variant Kind.ofName? s = .ok k) (readable : t.isReadable 2 = true)
    (skips : ∀ m ∈ others, Skips m) : read (.object members true) = readDetails k t := by
  obtain ⟨a, b, c, rest, order⟩ := perm_pair perm
  have skip : ∀ m ∈ a ++ b ++ c, Skips m := fun m hm => skips m (rest.mem_iff.1 hm)
  simp only [List.mem_append, or_imp, forall_and] at skip
  obtain ⟨⟨before, between⟩, after⟩ := skip
  have found : readMembers .nothing members = (readDetails k t).map .whole := by
    rcases order with rfl | rfl
    · rw [readMembers_append before, readMembers, if_pos rfl, kind]
      show readMembers (.kind k) _ = _
      rw [readMembers_append between, readMembers, if_neg (by decide), if_pos rfl]
      cases readDetails k t with
      | error => rfl
      | ok e => exact readMembers_skips after
    · rw [readMembers_append before, readMembers, if_neg (by decide), if_pos rfl, readable]
      show readMembers (.details t) _ = _
      rw [readMembers_append between, readMembers, if_pos rfl, kind]
      show (readDetails k t >>= _) = _
      cases readDetails k t with
      | error => rfl
      | ok e => exact readMembers_skips after
  rw [read, found]
  cases readDetails k t <;> rfl

end ControllerError

/-! ## The wire -/

/-- Every text of an object whose members are valid, and suit each other where that is asked for, is
decided by how often its fields occur. -/
def DecidedByCompleteness {α : Type} (read : Reader α) (fields : Layout) (shown : α → List Shown)
    (suit : List Member → Prop) : Prop :=
  ∀ (members : List Member) (cs : List Char), (∀ m ∈ members, fields.Valid 1 m) → suit members →
    Laid (Tree.object members true).tokens cs →
    Decides fields shown members (decode read (String.ofList cs))

/-- Every text of an error of a failed signal is decided by how often the fields of its details
occur among theirs. -/
def SignalDetailsDecide : Prop :=
  ∀ (members details others : List Member) (kind : Tree) (cs : List Char),
    members.Perm ((some "error_type", kind) :: (some "details", .object details true) :: others) →
    VariantForm "signal_failed" kind →
    (∀ m ∈ others, Foreign 1 ["error_type", "details"] m) →
    (∀ m ∈ details, ControllerError.signalLayout.Valid 2 m) →
    Laid (Tree.object members true).tokens cs →
    Decides ControllerError.signalLayout ControllerError.signalFields details
      (decode ControllerError.read (String.ofList cs))

section Wire

variable {α : Type} {read : Reader α} {fields : Layout} {shown : α → List Shown}

theorem DecidedByCompleteness.of_reading {suit : List Member → Prop}
    (decides : ∀ members : List Member, (∀ m ∈ members, fields.Valid 1 m) → suit members →
      Decides fields shown members (read (.object members true))) :
    DecidedByCompleteness read fields shown suit := by
  intro members cs valid suits laid
  rw [decode_laid (Layout.Valid.whole_object valid) laid]
  exact decides members valid suits

theorem DecidedByCompleteness.of_restores {ofRecord : Record → Except Fault α}
    (restores : Restores fields ofRecord shown)
    (reads : ∀ t, read t = (fields.readRecord t >>= ofRecord)) :
    DecidedByCompleteness read fields shown fun _ => True := by
  refine .of_reading fun members valid _ => ?_
  rw [reads]
  exact restores.decides (Layout.Valid.reads restores.distinct valid)

/-- Whatever is valid among the details of a failed signal can be kept. -/
theorem ControllerError.isReadable_details {details : List Member}
    (valid : ∀ m ∈ details, signalLayout.Valid 2 m) :
    (Tree.object details true).isReadable 2 = true := by
  have text {name : String} {t : Tree}
      (checked : (RecordField.mk name Reader.text none).shape.check t = .ok ()) :
      t.isReadable 3 = true := by
    obtain ⟨_, read⟩ := RecordField.check_eq_ok_iff.1 checked
    exact isReadable_of_text read
  have members : ∀ m ∈ details, m.1.isSome = true ∧ m.2.isReadable 3 = true := by
    intro m hm
    refine ⟨(valid m hm).whole.1, ?_⟩
    rcases valid m hm with ⟨f, hf, -, -, checked⟩ | foreign
    · simp only [signalLayout, List.mem_cons, List.not_mem_nil, or_false] at hf
      rcases hf with rfl | rfl | rfl <;> exact text checked
    · exact foreign.plain.isReadable
  simpa [Tree.isReadable, Tree.maxDepth] using Tree.membersAreReadable_iff.2 members

theorem signalDetailsDecide : SignalDetailsDecide := by
  intro members details others kind cs perm form foreign valid laid
  have kind := (form.encodes (ControllerError.Kind.ofName?_name .signalFailed)).1
  have skips : ∀ m ∈ others, ControllerError.Skips m := by
    intro m hm
    obtain ⟨name, named, fresh⟩ := (foreign m hm).named
    simp only [List.mem_cons, List.not_mem_nil, not_or] at fresh
    exact ⟨⟨name, named, fresh.1, fresh.2.1⟩, (foreign m hm).plain.isSound⟩
  have members : ∀ m ∈ members, m.1.isSome = true ∧ m.2.Whole := by
    intro m hm
    rcases List.mem_cons.1 (perm.mem_iff.1 hm) with rfl | hm
    · exact ⟨rfl, kind.whole⟩
    · rcases List.mem_cons.1 hm with rfl | hm
      · exact ⟨rfl, Layout.Valid.whole_object valid⟩
      · obtain ⟨name, named, -⟩ := (foreign m hm).named
        exact ⟨by simp [named], (foreign m hm).plain.whole⟩
  have read := ControllerError.read_of_perm perm kind.reads
    (ControllerError.isReadable_details valid) skips
  rw [decode_laid (.object (fun m hm => (members m hm).1) fun m hm => (members m hm).2) laid, read]
  exact ControllerError.restores_signal.decides
    (Layout.Valid.reads ControllerError.restores_signal.distinct valid)

/-- **Objects are accepted exactly when they are complete:** for every type, an object whose members
have values of their fields, among foreign ones, is decoded exactly if each required field occurs
once and each other field once at most, the kinds of payloads and errors and the details of errors
being required. Each field of what is decoded has the value that its member gives, or its default.
Where fields are missing only, the first one in declaration order is named; where one is repeated
only, that one is. -/
theorem completeness_decides :
    DecidedByCompleteness ExecOptions.read ExecOptions.layout ExecOptions.shown (fun _ => True) ∧
    DecidedByCompleteness ExecHandle.read ExecHandle.layout ExecHandle.shown (fun _ => True) ∧
    DecidedByCompleteness ResourceSpec.read ResourceSpec.layout ResourceSpec.shown (fun _ => True) ∧
    DecidedByCompleteness CheckpointConfig.read CheckpointConfig.layout CheckpointConfig.shown
      (fun _ => True) ∧
    DecidedByCompleteness ExitStatus.read ExitStatus.layout ExitStatus.shown (fun _ => True) ∧
    DecidedByCompleteness ProcessSnapshot.read ProcessSnapshot.layout ProcessSnapshot.shown
      (fun _ => True) ∧
    DecidedByCompleteness Event.read Event.layout Event.shown (fun _ => True) ∧
    (∀ k, DecidedByCompleteness Payload.read (Payload.taggedLayout k) Payload.shown
      (Payload.IsOfKind k)) ∧
    (∀ k, DecidedByCompleteness ControllerError.read (ControllerError.taggedLayout k)
      ControllerError.shown (ControllerError.IsOfKind k)) ∧
    SignalDetailsDecide :=
  ⟨.of_restores ExecOptions.restores fun _ => rfl, .of_restores ExecHandle.restores fun _ => rfl,
    .of_restores ResourceSpec.restores fun _ => rfl,
    .of_restores CheckpointConfig.restores fun _ => rfl,
    .of_restores ExitStatus.restores fun _ => rfl, .of_restores ProcessSnapshot.restores fun _ => rfl,
    .of_restores Event.restores fun _ => rfl, fun _ => .of_reading fun _ => Payload.decides,
    fun _ => .of_reading fun _ => ControllerError.decides, signalDetailsDecide⟩

/-- The members of the payload of an exit whose code is given twice, the kind last. -/
def twoCodes : List Member :=
  [(some "status", .int 1), (some "note", .list []), (some "previous", .text "running"),
    (some "status", .int 2), (some "kind", .text "exit_recorded")]

theorem completeness_decides_twoCodes :
    decode Payload.read (Tree.object twoCodes true).render = .error (.duplicateField "status") := by
  have kind : Payload.kindField.shape ∈ Payload.taggedLayout .exitRecorded := by
    simp [Payload.taggedLayout]
  have status : Payload.statusField.shape ∈ Payload.taggedLayout .exitRecorded := by
    simp [Payload.taggedLayout, Payload.layout]
  have previous : Payload.previousField.shape ∈ Payload.taggedLayout .exitRecorded := by
    simp [Payload.taggedLayout, Payload.layout]
  have valid : ∀ m ∈ twoCodes, (Payload.taggedLayout .exitRecorded).Valid 1 m := by
    simp only [twoCodes, List.forall_mem_cons]
    exact ⟨.inl ⟨_, status, rfl, whole_int 1, rfl⟩,
      .inr ⟨⟨"note", rfl, by decide⟩, .array (by decide) (List.forall_mem_nil _)⟩,
      .inl ⟨_, previous, rfl, .string _, rfl⟩, .inl ⟨_, status, rfl, whole_int 2, rfl⟩,
      .inl ⟨_, kind, rfl, .string _, rfl⟩, List.forall_mem_nil _⟩
  have ofKind : Payload.IsOfKind .exitRecorded twoCodes := by
    intro _ t mem
    obtain rfl : t = .text "exit_recorded" := by simpa [twoCodes] using mem
    rfl
  have repeated : (Payload.taggedLayout .exitRecorded).OnlyRepeated Payload.statusField.shape
      twoCodes := by
    refine ⟨status, by decide, ?_⟩
    simp only [Payload.taggedLayout, Payload.layout, List.forall_mem_cons]
    exact ⟨fun _ => ⟨by decide, fun _ => by decide⟩, fun other => absurd rfl other,
      fun _ => ⟨by decide, fun _ => by decide⟩, List.forall_mem_nil _⟩
  exact (completeness_decides.2.2.2.2.2.2.2.1 .exitRecorded twoCodes _ valid ofKind
    (Layout.Valid.whole_object valid).laid_print).repeated _ repeated

end Wire

end ContainerInit
