import ContainerInit.Proofs.Json.Forms
import Mathlib.Data.List.Nodup

/-!
# A record is read exactly if it is complete

- **Results** (`bind_eq_ok_iff` and so on): when a chain of readers succeeds.
- **Occurrences** (`occurs`, `Layout.Complete`): how often a field may stand among the members of an
  object, in whatever order and among whatever others.
- **Objects** (`Layout.readObject_eq_ok_iff`): an object is a record exactly if each member is valid
  for its field or has none, and the members are complete.
- **Rejections** (`Layout.readObject_repeated`, `Layout.readObject_missing`): one repeated field is
  named, and so is the first missing one in declaration order.
- **Records** (`Layout.readRecord_held`): whatever is read as a record holds a value of every field,
  or has left it out by its default.
-/

namespace ContainerInit.Json

/-! ## Results -/

section Results

variable {ε α β : Type}

theorem bind_eq_ok_iff {x : Except ε α} {f : α → Except ε β} {b : β} :
    (x >>= f) = .ok b ↔ ∃ a, x = .ok a ∧ f a = .ok b := by
  cases x with
  | error e => simp [bind, Except.bind]
  | ok a => simp [bind, Except.bind]

theorem map_eq_ok_iff {x : Except ε α} {f : α → β} {b : β} :
    x.map f = .ok b ↔ ∃ a, x = .ok a ∧ f a = b := by
  cases x with
  | error e => simp [Except.map]
  | ok a => simp [Except.map]

theorem demand_eq_ok_iff {b : Bool} {u : Unit} : demand b = .ok u ↔ b = true := by
  cases b <;> simp [demand]

theorem RecordField.check_eq_ok_iff {f : RecordField α} {t : Tree} :
    f.shape.check t = .ok () ↔ ∃ a, f.read t = .ok a := by
  simp [RecordField.shape, map_eq_ok_iff]

end Results

/-! ## Occurrences -/

/-- How often a name occurs among members. -/
def occurs (name : String) (members : List Member) : Nat :=
  members.countP fun m => m.1 == some name

/-- How often a field may occur: once at most, and exactly once if it is required. -/
def FieldShape.Allows (f : FieldShape) (n : Nat) : Prop :=
  n ≤ 1 ∧ (f.isRequired = true → n = 1)

/-- Each field occurs as often as it may. -/
def Layout.Complete (fields : Layout) (members : List Member) : Prop :=
  ∀ f ∈ fields, f.Allows (occurs f.name members)

/-- The first field in declaration order that is required and does not occur. -/
def Layout.firstAbsent? (fields : Layout) (members : List Member) : Option FieldShape :=
  List.find? (fun f => f.isRequired && occurs f.name members == 0) fields

variable {fields : Layout} {f : FieldShape} {members others : List Member} {name : String} {t : Tree}

theorem occurs_eq_zero_iff : occurs name members = 0 ↔ ∀ t, (some name, t) ∉ members := by
  rw [occurs, List.countP_eq_zero]
  constructor
  · intro none t mem
    exact none _ mem (by simp)
  · rintro none ⟨_, t⟩ mem same
    exact none t (by simpa using (beq_iff_eq.1 same) ▸ mem)

theorem occurs_append :
    occurs name (members ++ others) = occurs name members + occurs name others :=
  List.countP_append

theorem occurs_cons_self : occurs name ((some name, t) :: members) = occurs name members + 1 :=
  List.countP_cons_of_pos (by simp)

theorem occurs_cons_of_ne {m : Member} (other : m.1 ≠ some name) :
    occurs name (m :: members) = occurs name members :=
  List.countP_cons_of_neg (by simpa using other)

/-- A name that occurs has a first place. -/
theorem exists_first (occur : occurs name members ≠ 0) : ∃ a t b,
    members = a ++ (some name, t) :: b ∧ occurs name a = 0 := by
  induction members with
  | nil => exact absurd rfl occur
  | cons m members ih =>
    obtain ⟨n, t⟩ := m
    by_cases same : n = some name
    · subst same
      exact ⟨[], t, members, rfl, rfl⟩
    · rw [occurs_cons_of_ne same] at occur
      obtain ⟨a, u, b, rfl, none⟩ := ih occur
      exact ⟨(n, t) :: a, u, b, rfl, by rw [occurs_cons_of_ne same, none]⟩

theorem find?_congr {α : Type} {p q : α → Bool} {l : List α} (same : ∀ a ∈ l, p a = q a) :
    l.find? p = l.find? q := by
  induction l with
  | nil => rfl
  | cons a l ih =>
    obtain ⟨first, rest⟩ := List.forall_mem_cons.1 same
    rw [List.find?_cons, List.find?_cons, first, ih rest]

namespace Record

variable {r : Record}

theorem find?_cons {n : String} :
    find? ((n, t) :: r) name = if n = name then some t else r.find? name := by
  by_cases same : n = name <;> simp [find?, same]

theorem mem_of_find? (found : r.find? name = some t) : (name, t) ∈ r := by
  obtain ⟨⟨n, u⟩, first, rfl⟩ := Option.map_eq_some_iff.1 found
  have same : n = name := by simpa using List.find?_some first
  exact same ▸ List.mem_of_find?_eq_some first

theorem find?_eq_none_iff : r.find? name = none ↔ (r.map (·.1)).count name = 0 := by
  rw [List.count_eq_zero]
  refine ⟨fun none mem => ?_, find?_eq_none⟩
  obtain ⟨m, taken, rfl⟩ := List.mem_map.1 mem
  have other := List.find?_eq_none.1 (Option.map_eq_none_iff.1 none) m taken
  simp at other

end Record

namespace Layout

theorem mem_of_find? (found : fields.find? name = some f) : f ∈ fields ∧ f.name = name :=
  ⟨List.mem_of_find?_eq_some found, by simpa using List.find?_some found⟩

theorem find?_eq_none_iff : fields.find? name = none ↔ name ∉ fields.map FieldShape.name := by
  simp [find?, List.find?_eq_none]

/-- The members that are taken are those under the names of fields. -/
theorem mem_known_iff : (name, t) ∈ fields.known members ↔
    (some name, t) ∈ members ∧ name ∈ fields.map FieldShape.name := by
  have named : (fields.find? name).isSome = true ↔ name ∈ fields.map FieldShape.name := by
    rw [← not_iff_not, ← find?_eq_none_iff, Option.not_isSome_iff_eq_none]
  rw [← named, known, List.mem_filterMap]
  constructor
  · rintro ⟨⟨n, u⟩, mem, taken⟩
    obtain ⟨n', rfl, taken⟩ := Option.bind_eq_some_iff.1 taken
    obtain ⟨f, found, ⟨⟩⟩ := Option.map_eq_some_iff.1 taken
    exact ⟨mem, by simp [found]⟩
  · rintro ⟨mem, some⟩
    obtain ⟨f, found⟩ := Option.isSome_iff_exists.1 some
    exact ⟨_, mem, by simp [found]⟩

/-- A field is taken as often as it occurs. -/
theorem count_known (hf : f ∈ fields) :
    ((fields.known members).map (·.1)).count f.name = occurs f.name members := by
  induction members with
  | nil => rfl
  | cons m members ih =>
    obtain ⟨n, t⟩ := m
    rw [occurs] at ih ⊢
    rw [List.countP_cons]
    cases n with
    | none =>
      have same : fields.known ((none, t) :: members) = fields.known members := rfl
      rw [same, ih]
      rfl
    | some n =>
      cases found : fields.find? n with
      | none =>
        have same : fields.known ((some n, t) :: members) = fields.known members := by
          simp [known, found]
        have other : n ≠ f.name := fun is =>
          find?_eq_none_iff.1 found (is ▸ List.mem_map_of_mem hf)
        simp [same, ih, other]
      | some g =>
        have first : fields.known ((some n, t) :: members) = (n, t) :: fields.known members := by
          simp [known, found]
        rw [first, List.map_cons, List.count_cons, ih]
        simp

/-- No name is taken twice exactly if no field occurs twice. -/
theorem nodup_known_iff : ((fields.known members).map (·.1)).Nodup ↔
    ∀ f ∈ fields, occurs f.name members ≤ 1 := by
  rw [List.nodup_iff_count_le_one]
  constructor
  · intro once f hf
    rw [← count_known hf]
    exact once _
  · intro once name
    by_cases taken : name ∈ (fields.known members).map (·.1)
    · obtain ⟨⟨_, t⟩, mem, rfl⟩ := List.mem_map.1 taken
      obtain ⟨f, hf, rfl⟩ := List.mem_map.1 (mem_known_iff.1 mem).2
      rw [count_known hf]
      exact once f hf
    · rw [List.count_eq_zero_of_not_mem taken]
      exact Nat.zero_le 1

/-- A field is found exactly if it occurs. -/
theorem find?_known_eq_none_iff (hf : f ∈ fields) :
    Record.find? (fields.known members).reverse f.name = none ↔ occurs f.name members = 0 := by
  rw [Record.find?_eq_none_iff, List.map_reverse, List.count_reverse, count_known hf]

/-! ## Objects -/

/-- Each member is valid for its field, or is skipped. -/
def Reads (fields : Layout) (members : List Member) : Prop :=
  ∀ m ∈ members, fields.Takes m ∨ fields.Skips m

theorem nodup_seen {seen : Record} (distinct : (seen.map (·.1)).Nodup)
    (fresh : seen.find? name = none) : (((name, t) :: seen).map (·.1)).Nodup := by
  rw [Record.find?_eq_none_iff, List.count_eq_zero] at fresh
  exact List.nodup_cons.2 ⟨fresh, distinct⟩

theorem reads_of_readMembers {seen r : Record} (read : fields.readMembers seen members = .ok r) :
    fields.Reads members := by
  induction members generalizing seen with
  | nil => exact nofun
  | cons m members ih =>
    obtain ⟨_ | name, t⟩ := m
    · cases read
    · rw [readMembers] at read
      refine List.forall_mem_cons.2 ?_
      split at read
      · rename_i unknown
        obtain ⟨_, sound, read⟩ := bind_eq_ok_iff.1 read
        refine ⟨.inr ⟨⟨name, rfl, find?_eq_none_iff.1 unknown⟩, demand_eq_ok_iff.1 sound⟩, ih read⟩
      · rename_i f found
        split at read
        · cases read
        · obtain ⟨_, checked, read⟩ := bind_eq_ok_iff.1 read
          exact ⟨.inl ⟨name, f, rfl, found, checked⟩, ih read⟩

/-- Valid members are taken in, or a repeated name is reported. -/
theorem readMembers_cases {seen : Record} (each : fields.Reads members)
    (distinct : (seen.map (·.1)).Nodup) :
    (((fields.known members).reverse ++ seen).map (·.1)).Nodup ∨
    ∃ name, fields.readMembers seen members = .error (.duplicateField name) ∧
      2 ≤ (((fields.known members).reverse ++ seen).map (·.1)).count name := by
  induction members generalizing seen with
  | nil => exact .inl distinct
  | cons m members ih =>
    obtain ⟨first, rest⟩ := List.forall_mem_cons.1 each
    obtain ⟨_, t⟩ := m
    rcases first with ⟨name, f, rfl, found, checked⟩ | skips
    · have taken : fields.known ((some name, t) :: members) =
          (name, t) :: fields.known members := by
        simp [known, found]
      rw [taken, List.reverse_cons, List.append_assoc, List.singleton_append, readMembers]
      simp only [found]
      cases before : seen.find? name with
      | some u =>
        refine .inr ⟨name, rfl, ?_⟩
        have again : seen.find? name ≠ none := by simp [before]
        rw [Ne, Record.find?_eq_none_iff] at again
        simp only [List.map_append, List.map_cons, List.count_append, List.count_cons_self]
        omega
      | none =>
        simp only [checked]
        exact ih rest (nodup_seen distinct before)
    · obtain ⟨name, rfl, unknown⟩ := skips.find?
      have same : fields.known ((some name, t) :: members) = fields.known members := by
        simp [known, unknown]
      rw [same, readMembers]
      simp only [unknown, skips.sound, demand]
      exact ih rest distinct

theorem readMembers_of_once (each : fields.Reads members)
    (once : ∀ f ∈ fields, occurs f.name members ≤ 1) :
    fields.readMembers [] members = .ok (fields.known members).reverse := by
  have distinct : ((((fields.known members).reverse ++ [] : Record)).map (·.1)).Nodup := by
    rw [List.append_nil, List.map_reverse, List.nodup_reverse]
    exact nodup_known_iff.2 once
  simpa using readMembers_known each distinct

/-- One repeated field is named. -/
theorem readObject_repeated {closed : Bool} (each : fields.Reads members) (hf : f ∈ fields)
    (twice : 2 ≤ occurs f.name members)
    (others : ∀ g ∈ fields, g.name ≠ f.name → occurs g.name members ≤ 1) :
    fields.readObject members closed = .error (.duplicateField f.name) := by
  have total : ((((fields.known members).reverse ++ [] : Record)).map (·.1)).Perm
      ((fields.known members).map (·.1)) := by
    rw [List.append_nil]
    exact (List.reverse_perm _).map _
  have unseen : (([] : Record).map (·.1)).Nodup := .nil
  rcases readMembers_cases each unseen with distinct | ⟨name, read, repeated⟩
  · have once := nodup_known_iff.1 (total.nodup_iff.1 distinct) f hf
    omega
  · rw [total.count_eq] at repeated
    have taken := List.count_pos_iff.1 (Nat.lt_of_lt_of_le Nat.zero_lt_two repeated)
    obtain ⟨⟨_, t⟩, mem, rfl⟩ := List.mem_map.1 taken
    obtain ⟨g, hg, same⟩ := List.mem_map.1 (mem_known_iff.1 mem).2
    rw [← same, count_known hg] at repeated
    have is : g.name = f.name := by
      by_contra other
      have := others g hg other
      omega
    rw [readObject, read, ← same, is]
    rfl

theorem firstAbsent?_eq_none_iff : fields.firstAbsent? members = none ↔
    ∀ f ∈ fields, f.isRequired = true → occurs f.name members ≠ 0 := by
  rw [firstAbsent?, List.find?_eq_none]
  simp

theorem firstMissing?_known :
    fields.firstMissing? (fields.known members).reverse = fields.firstAbsent? members := by
  refine find?_congr fun f hf => congrArg _ ?_
  rw [Bool.eq_iff_iff, Option.isNone_iff_eq_none, find?_known_eq_none_iff hf, beq_iff_eq]

/-- The first missing field in declaration order is named. -/
theorem readObject_missing (each : fields.Reads members)
    (once : ∀ g ∈ fields, occurs g.name members ≤ 1) (first : fields.firstAbsent? members = some f) :
    fields.readObject members true = .error (.missingField f.name) := by
  rw [readObject, readMembers_of_once each once]
  simp only [bind, Except.bind, demand, firstMissing?_known, first]
  rfl

/-- **An object is a record exactly if its members are valid and complete.** -/
theorem readObject_eq_ok_iff {closed : Bool} {r : Record} :
    fields.readObject members closed = .ok r ↔ closed = true ∧ fields.Reads members ∧
      fields.Complete members ∧ r = (fields.known members).reverse := by
  have complete : fields.Complete members ↔ (∀ f ∈ fields, occurs f.name members ≤ 1) ∧
      ∀ f ∈ fields, f.isRequired = true → occurs f.name members ≠ 0 := by
    rw [← forall₂_and]
    refine forall₂_congr fun f hf => and_congr_right fun once => imp_congr_right fun _ => ?_
    omega
  rw [complete]
  constructor
  · intro read
    obtain ⟨s, members, read⟩ := bind_eq_ok_iff.1 read
    obtain ⟨_, ended, read⟩ := bind_eq_ok_iff.1 read
    have each := reads_of_readMembers members
    have unseen : (([] : Record).map (·.1)).Nodup := .nil
    rcases readMembers_cases each unseen with distinct | ⟨name, failed, -⟩
    · rw [List.append_nil, List.map_reverse, List.nodup_reverse] at distinct
      have once := nodup_known_iff.1 distinct
      rw [readMembers_of_once each once] at members
      cases members
      split at read
      · cases read
      · rename_i none
        cases read
        rw [firstMissing?_known] at none
        exact ⟨demand_eq_ok_iff.1 ended, each, ⟨once, firstAbsent?_eq_none_iff.1 none⟩, rfl⟩
    · rw [failed] at members
      cases members
  · rintro ⟨rfl, each, ⟨once, present⟩, rfl⟩
    rw [readObject, readMembers_of_once each once]
    simp only [bind, Except.bind, demand, firstMissing?_known, firstAbsent?_eq_none_iff.2 present]
    rfl

end Layout

/-! ## Records -/

/-- A record holds a value of a field, or has left it out by its default. -/
def FieldShape.Held (f : FieldShape) (r : Record) : Prop :=
  (∃ t, r.find? f.name = some t ∧ f.check t = .ok ()) ∨
  (r.find? f.name = none ∧ f.isRequired = false)

theorem RecordField.exists_get {α : Type} {f : RecordField α} {r : Record} (held : f.shape.Held r) :
    ∃ a, r.get f = .ok a := by
  rcases held with ⟨t, found, checked⟩ | ⟨absent, optional⟩
  · obtain ⟨a, read⟩ := RecordField.check_eq_ok_iff.1 checked
    have found : r.find? f.name = some t := found
    exact ⟨a, by rw [Record.get, found]; exact read⟩
  · have absent : r.find? f.name = none := absent
    have default : f.default ≠ none := by
      intro none
      simp [RecordField.shape, none] at optional
    obtain ⟨a, default⟩ := Option.ne_none_iff_exists'.1 default
    exact ⟨a, by rw [Record.get, absent, default]⟩

namespace Layout

variable {r : Record}

theorem readObject_held (distinct : (fields.map FieldShape.name).Nodup) {closed : Bool}
    (read : fields.readObject members closed = .ok r) (hf : f ∈ fields) : f.Held r := by
  obtain ⟨-, each, complete, rfl⟩ := readObject_eq_ok_iff.1 read
  cases found : Record.find? (fields.known members).reverse f.name with
  | none =>
    have absent := (find?_known_eq_none_iff hf).1 found
    refine .inr ⟨found, Bool.eq_false_iff.2 fun required => ?_⟩
    have := (complete f hf).2 required
    omega
  | some t =>
    have mem := mem_known_iff.1 (List.mem_reverse.1 (Record.mem_of_find? found))
    refine .inl ⟨t, found, ?_⟩
    rcases each _ mem.1 with ⟨_, g, ⟨⟩, known, checked⟩ | skips
    · have same : fields.find? f.name = some f := find?_of_nodup distinct hf
      rw [same] at known
      cases known
      exact checked
    · obtain ⟨_, ⟨⟩, foreign⟩ := skips.foreign
      exact absurd mem.2 foreign

theorem readItems_held {items : List Tree} (distinct : (fields.map FieldShape.name).Nodup)
    (read : fields.readItems items = .ok r) (hf : f ∈ fields) : f.Held r := by
  induction fields generalizing items r with
  | nil => cases hf
  | cons g fields ih =>
    cases items with
    | nil =>
      rw [readItems] at read
      split at read
      · cases read
      · rename_i none
        cases read
        refine .inr ⟨rfl, Bool.eq_false_iff.2 fun required => none ?_⟩
        exact List.any_eq_true.2 ⟨f, hf, required⟩
      · intro absent
        cases absent
    | cons t items =>
      obtain ⟨_, checked, read⟩ := bind_eq_ok_iff.1 read
      obtain ⟨s, more, read⟩ := bind_eq_ok_iff.1 read
      cases read
      obtain ⟨fresh, distinct⟩ := List.nodup_cons.1 distinct
      rcases List.mem_cons.1 hf with rfl | hf
      · exact .inl ⟨t, by simp [Record.find?_cons], checked⟩
      · have other : g.name ≠ f.name := fun same => fresh (same ▸ List.mem_map_of_mem hf)
        have held := ih distinct more hf
        unfold FieldShape.Held at held ⊢
        rwa [Record.find?_cons, if_neg other]

/-- **What is read as a record holds every field** that has no default, and no others than values of
its fields. -/
theorem readRecord_held (distinct : (fields.map FieldShape.name).Nodup)
    (read : fields.readRecord t = .ok r) : ∀ f ∈ fields, f.Held r := by
  intro f hf
  cases t with
  | object members closed => exact readObject_held distinct read hf
  | array items closed =>
    obtain ⟨s, read, ended⟩ := bind_eq_ok_iff.1 read
    obtain ⟨_, -, ended⟩ := bind_eq_ok_iff.1 ended
    cases ended
    exact readItems_held distinct read hf
  | _ => cases read

end Layout

end ContainerInit.Json
