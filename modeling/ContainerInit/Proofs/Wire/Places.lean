import ContainerInit.Proofs.Json.Gap
import ContainerInit.Proofs.Wire.Fields

/-!
# What a place in a text decides about the value

- **Open fields** (`Layout.Opens`): a record with one of its fields left open, in an object or in an
  array.
- **Focus** (`Focus`): at a place of a value that can be read, whatever else is put there decides
  alone whether the value can be read, and what the value then has there. A focus on a field's value
  is a focus on the field (`Restores.focus`), also if it may hold nothing (`Focus.optional`).
- **Places in texts** (`Place`, `Opening`): the texts around a place in a form of a value, and
  around one at which a reader takes something. What is written for a value has such places
  (`Place.written`), and a reader of the forms takes what stands there (`Place.opening`).
- **Payloads** (`Payload.readAt_object_eq_ok_iff`, `Payload.focus_status`): the fields of a payload
  are read from what has been kept beside its kind, and so the status of an exit is in focus too.
- **Integers and moments** (`ResourceSpec.focus_cpuShares`, `ResourceSpec.exists_gap` and so on):
  the places of these in the values of every type, and in what is written for them.
-/

namespace ContainerInit

open Json

/-! ## Open fields -/

namespace Json

/-- A tree with a place for the value of a field: records that are read from it hold there what is
put there, and if one is read, then so is another one with another value of the field. -/
structure Layout.Opens (fields : Layout) (f : FieldShape) (fill : Tree → Tree) : Prop where
  found : ∀ t r, fields.readRecord (fill t) = .ok r → r.find? f.name = some t
  filled : ∀ t₀ r₀ t, fields.readRecord (fill t₀) = .ok r₀ → f.check t = .ok () →
    ∃ r, fields.readRecord (fill t) = .ok r

namespace Layout

variable {fields : Layout} {f : FieldShape}

theorem opens_member (distinct : (fields.map FieldShape.name).Nodup) (hf : f ∈ fields)
    (before after : List Member) :
    fields.Opens f fun t => .object (before ++ (some f.name, t) :: after) true := by
  have known : fields.find? f.name = some f := find?_of_nodup distinct hf
  have occurs_eq (name : String) (t u : Tree) :
      occurs name (before ++ (some f.name, t) :: after) =
        occurs name (before ++ (some f.name, u) :: after) := by
    simp [occurs, List.countP_append, List.countP_cons]
  constructor
  · intro t r read
    have read : fields.readObject _ true = .ok r := read
    obtain ⟨-, -, complete, rfl⟩ := readObject_eq_ok_iff.1 read
    have distinct : ((fields.known (before ++ (some f.name, t) :: after)).reverse.map
        (·.1)).Nodup := by
      rw [List.map_reverse, List.nodup_reverse]
      exact nodup_known_iff.2 fun g hg => (complete g hg).1
    refine Record.find?_eq_some (m := (f.name, t)) distinct (List.mem_reverse.2 ?_)
    exact mem_known_iff.2 ⟨by simp, List.mem_map_of_mem hf⟩
  · intro t₀ r₀ t read checked
    have read : fields.readObject _ true = .ok r₀ := read
    obtain ⟨-, each, complete, -⟩ := readObject_eq_ok_iff.1 read
    refine ⟨_, readObject_eq_ok_iff.2 ⟨rfl, ?_, fun g hg => ?_, rfl⟩⟩
    · intro m hm
      rcases List.mem_append.1 hm with hm | hm
      · exact each m (List.mem_append_left _ hm)
      · rcases List.mem_cons.1 hm with rfl | hm
        · exact .inl ⟨f.name, f, rfl, known, checked⟩
        · exact each m (List.mem_append_right _ (List.mem_cons_of_mem _ hm))
    · rw [occurs_eq g.name t t₀]
      exact complete g hg

theorem find?_of_readItems {i : Nat} {before after : List Tree} {t : Tree} {r : Record}
    (distinct : (fields.map FieldShape.name).Nodup) (place : fields[i]? = some f)
    (index : before.length = i) (read : fields.readItems (before ++ t :: after) = .ok r) :
    r.find? f.name = some t := by
  induction before generalizing fields i r with
  | nil =>
    subst index
    cases fields with
    | nil => cases place
    | cons g fields =>
      cases place
      obtain ⟨_, -, read⟩ := bind_eq_ok_iff.1 read
      obtain ⟨_, -, read⟩ := bind_eq_ok_iff.1 read
      cases read
      simp [Record.find?_cons]
  | cons u before ih =>
    subst index
    cases fields with
    | nil => cases place
    | cons g fields =>
      obtain ⟨fresh, distinct⟩ := List.nodup_cons.1 distinct
      have place : fields[before.length]? = some f := place
      have other : g.name ≠ f.name := fun same =>
        fresh (same ▸ List.mem_map_of_mem (List.mem_of_getElem? place))
      obtain ⟨_, -, read⟩ := bind_eq_ok_iff.1 read
      obtain ⟨_, more, read⟩ := bind_eq_ok_iff.1 read
      cases read
      rw [Record.find?_cons, if_neg other]
      exact ih distinct place rfl more

theorem readItems_filled {i : Nat} {before after : List Tree} {t₀ t : Tree} {r₀ : Record}
    (place : fields[i]? = some f) (index : before.length = i)
    (read : fields.readItems (before ++ t₀ :: after) = .ok r₀) (checked : f.check t = .ok ()) :
    ∃ r, fields.readItems (before ++ t :: after) = .ok r := by
  induction before generalizing fields i r₀ with
  | nil =>
    subst index
    cases fields with
    | nil => cases place
    | cons g fields =>
      cases place
      obtain ⟨_, -, read⟩ := bind_eq_ok_iff.1 read
      obtain ⟨r, more, -⟩ := bind_eq_ok_iff.1 read
      exact ⟨_, bind_eq_ok_iff.2 ⟨_, checked, bind_eq_ok_iff.2 ⟨r, more, rfl⟩⟩⟩
  | cons u before ih =>
    subst index
    cases fields with
    | nil => cases place
    | cons g fields =>
      obtain ⟨_, first, read⟩ := bind_eq_ok_iff.1 read
      obtain ⟨_, more, -⟩ := bind_eq_ok_iff.1 read
      obtain ⟨r, more⟩ := ih (show fields[before.length]? = some f from place) rfl more
      exact ⟨_, bind_eq_ok_iff.2 ⟨_, first, bind_eq_ok_iff.2 ⟨r, more, rfl⟩⟩⟩

theorem readArray_eq_ok_iff {items : List Tree} {r : Record} :
    fields.readArray items true = .ok r ↔ fields.readItems items = .ok r := by
  rw [readArray]
  cases fields.readItems items <;> rfl

theorem opens_item (distinct : (fields.map FieldShape.name).Nodup) {i : Nat} {before : List Tree}
    (place : fields[i]? = some f) (index : before.length = i) (after : List Tree) :
    fields.Opens f fun t => .array (before ++ t :: after) true where
  found _ _ read := find?_of_readItems distinct place index (readArray_eq_ok_iff.1 read)
  filled _ _ _ read checked := by
    obtain ⟨r, read⟩ := readItems_filled place index (readArray_eq_ok_iff.1 read) checked
    exact ⟨r, readArray_eq_ok_iff.2 read⟩

end Layout

theorem Gap.Leads.here {g : Gap} (leads : g.Leads []) : g = .here := by
  cases g with
  | here => rfl
  | _ => exact leads.elim

theorem Gap.fill_ne_null {g : Gap} {u : Tree} (present : u ≠ .null) : g.fill u ≠ .null := by
  cases g with
  | here => exact present
  | _ => exact nofun

theorem Reader.optional_of_ne_null {α : Type} {read : Reader α} {t : Tree} (present : t ≠ .null) :
    Reader.optional read t = (read t).map some := by
  cases t with
  | null => exact absurd rfl present
  | _ => rfl

end Json

/-! ## Focus -/

/-- Wherever something can be read at the place at the end of a path, what else is put there decides
whether a value is read, and what is seen of the value there. What is put there is not `null`. -/
def Focus {α γ : Type} (read : Reader α) (path : List (String × Nat)) (inner : Reader γ)
    (get : α → Option γ) : Prop :=
  ∀ g : Gap, g.Leads path → ∀ u₀ a₀, u₀ ≠ .null → read (g.fill u₀) = .ok a₀ →
    (get a₀).isSome = true → ∀ u, u ≠ .null →
      (∀ a, read (g.fill u) = .ok a → ∃ c, inner u = .ok c ∧ get a = some c) ∧
      ∀ c, inner u = .ok c → ∃ a, read (g.fill u) = .ok a

section Focusing

variable {α β γ : Type} {inner : Reader γ} {path : List (String × Nat)}

theorem Focus.here (read : Reader α) : Focus read [] read some := by
  intro g leads _ _ _ _ _ u _
  rw [leads.here]
  exact ⟨fun a read => ⟨a, read, rfl⟩, fun c read => ⟨c, read⟩⟩

/-- A field that may hold nothing holds something where it is not `null`. -/
theorem Focus.optional {read : Reader α} {get : α → Option γ} (focus : Focus read path inner get) :
    Focus (Reader.optional read) path inner fun o => o.bind get := by
  intro g leads u₀ o₀ present₀ value₀ shown u present
  rw [Reader.optional_of_ne_null (Gap.fill_ne_null present₀)] at value₀
  obtain ⟨a₀, inside₀, rfl⟩ := map_eq_ok_iff.1 value₀
  obtain ⟨seen, taken⟩ := focus g leads u₀ a₀ present₀ inside₀ shown u present
  rw [Reader.optional_of_ne_null (Gap.fill_ne_null present)]
  constructor
  · intro o value
    obtain ⟨a, inside, rfl⟩ := map_eq_ok_iff.1 value
    exact seen a inside
  · intro c value
    obtain ⟨a, inside⟩ := taken c value
    exact ⟨some a, map_eq_ok_iff.2 ⟨a, inside, rfl⟩⟩

theorem Focus.present (read : Reader α) : Focus (Reader.optional read) [] read fun o => o := by
  have focus := (Focus.here read).optional
  simpa using focus

/-- **A place in the value of a field is a place in the record.** -/
theorem Restores.focus {fields : Layout} {ofRecord : Record → Except Fault α}
    {shown : α → List Shown} (restores : Restores fields ofRecord shown) {f : RecordField β}
    {i : Nat} (place : fields[i]? = some f.shape) {get : α → Option γ} {getField : β → Option γ}
    (holds : ∀ r a, ofRecord r = .ok a → ∃ b, r.get f = .ok b ∧ get a = getField b)
    (focus : Focus f.read path inner getField) :
    Focus (fun t => fields.readRecord t >>= ofRecord) ((f.name, i) :: path) inner get := by
  intro g leads u₀ a₀ present₀ read₀ shown u present
  -- the place lies in the value of the field, whether the record is an object or an array
  have opens : ∃ gap : Gap, gap.Leads path ∧ ∃ fill, fields.Opens f.shape fill ∧
      ∀ t, g.fill t = fill (gap.fill t) := by
    cases g with
    | here => exact leads.elim
    | item before gap after =>
      exact ⟨gap, leads.2, _, Layout.opens_item restores.distinct place leads.1 after, fun _ => rfl⟩
    | member before name gap after =>
      obtain ⟨rfl, leads⟩ := leads
      have hf : f.shape ∈ fields := List.mem_of_getElem? place
      exact ⟨gap, leads, _, Layout.opens_member restores.distinct hf before after, fun _ => rfl⟩
  obtain ⟨gap, leads, fill, opens, split⟩ := opens
  have field {t : Tree} {r : Record} {a : α} (read : fields.readRecord (fill t) = .ok r)
      (made : ofRecord r = .ok a) : ∃ b, f.read t = .ok b ∧ get a = getField b := by
    obtain ⟨b, held, same⟩ := holds r a made
    have found : r.find? f.name = _ := opens.found t r read
    rw [Record.get, found] at held
    exact ⟨b, held, same⟩
  rw [split] at read₀
  obtain ⟨r₀, read₀, made₀⟩ := bind_eq_ok_iff.1 read₀
  obtain ⟨b₀, value₀, same₀⟩ := field read₀ made₀
  obtain ⟨seen, taken⟩ := focus gap leads u₀ b₀ present₀ value₀ (same₀ ▸ shown) u present
  constructor
  · intro a read
    rw [split] at read
    obtain ⟨r, read, made⟩ := bind_eq_ok_iff.1 read
    obtain ⟨b, value, same⟩ := field read made
    rw [same]
    exact seen b value
  · intro c read
    obtain ⟨b, value⟩ := taken c read
    obtain ⟨r, read⟩ := opens.filled _ r₀ (gap.fill u) read₀
      (RecordField.check_eq_ok_iff.2 ⟨b, value⟩)
    obtain ⟨a, made⟩ := restores.total r (Layout.readRecord_held restores.distinct read)
    exact ⟨a, by rw [split]; exact bind_eq_ok_iff.2 ⟨r, read, made⟩⟩

end Focusing

/-! ## Places in texts -/

section Texts

variable {α γ : Type} {read : Reader α} {toTree : α → Tree} {form : α → Tree → Prop}
  {path : List (String × Nat)} {put : α → Option Tree} {get : α → Option γ}
  {before after : List Char}

/-- Texts around a place at the end of a path in the values of a type: with what some value puts
there between them, they lay out one of the forms of that value. -/
def Place (form : α → Tree → Prop) (path : List (String × Nat)) (put : α → Option Tree)
    (before after : List Char) : Prop :=
  ∃ (g : Gap) (a : α) (u : Tree), g.Leads path ∧ put a = some u ∧ form a (g.fill u) ∧
    Laid g.before before ∧ Laid g.after after

/-- Texts around a place at which a reader takes something: they are laid out around the end of a
path, and with some tree there, a value is read in which something is seen there. -/
def Opening (read : Reader α) (path : List (String × Nat)) (get : α → Option γ)
    (before after : List Char) : Prop :=
  ∃ (g : Gap) (u : Tree) (a : α), g.Leads path ∧ g.Whole ∧ u ≠ .null ∧ read (g.fill u) = .ok a ∧
    (get a).isSome = true ∧ Laid g.before before ∧ Laid g.after after

/-- A reader of the forms takes something at each of their places. -/
theorem Place.opening (encodes : ∀ a t, form a t → t.Encodes read a)
    (seen : ∀ a u, put a = some u → u ≠ .null ∧ (get a).isSome = true)
    (place : Place form path put before after) : Opening read path get before after := by
  obtain ⟨g, a, u, leads, puts, form, first, last⟩ := place
  have encoded := encodes a _ form
  exact ⟨g, u, a, leads, Gap.whole_of_fill encoded.whole, (seen a u puts).1, encoded.reads,
    (seen a u puts).2, first, last⟩

/-- What is written around a gap in a form has its place there. -/
theorem Place.of_gap (encodes : ∀ a t, form a t → t.Encodes read a) {g : Gap} {a : α} {u : Tree}
    (leads : g.Leads path) (puts : put a = some u) (given : form a (g.fill u)) :
    Place form path put g.printBefore g.printAfter := by
  obtain ⟨first, last⟩ := Gap.laid_print (encodes a _ given).whole
  exact ⟨g, a, u, leads, puts, given, first, last⟩

/-- **What is written for a value has a place for each gap in it.** -/
theorem Place.written (encodes : ∀ a t, form a t → t.Encodes read a)
    (usual : ∀ a, form a (toTree a)) {a : α} {u : Tree} (puts : put a = some u)
    (gap : ∃ g : Gap, g.Leads path ∧ toTree a = g.fill u) :
    ∃ before after, Place form path put before after ∧
      (toTree a).render = String.ofList (before ++ u.print ++ after) := by
  obtain ⟨g, leads, same⟩ := gap
  have given := usual a
  rw [same] at given ⊢
  exact ⟨_, _, .of_gap encodes leads puts given, congrArg String.ofList (g.print_fill u)⟩

end Texts

/-! ## Payloads -/

namespace Payload

section Inversion

variable {depth : Nat} {k : PayloadKind} {p : Payload} {members kept : List Member}

theorem split_some_eq_ok {found : Option PayloadKind × List Member}
    (split : split depth members (some k) kept = .ok found) :
    (∀ m ∈ members, Keeps depth m) ∧ found = (some k, kept.reverse ++ members) := by
  induction members generalizing kept with
  | nil =>
    cases split
    exact ⟨nofun, by simp⟩
  | cons m members ih =>
    obtain ⟨_ | name, t⟩ := m
    · cases split
    rw [Payload.split] at split
    by_cases tag : name = "kind"
    · rw [if_pos tag] at split
      cases split
    · rw [if_neg tag] at split
      obtain ⟨_, readable, split⟩ := bind_eq_ok_iff.1 split
      obtain ⟨keeps, rfl⟩ := ih split
      refine ⟨List.forall_mem_cons.2 ⟨⟨⟨name, rfl, tag⟩, demand_eq_ok_iff.1 readable⟩, keeps⟩, ?_⟩
      simp

theorem split_none_eq_ok {found : List Member}
    (split : split depth members none kept = .ok (some k, found)) :
    ∃ a t b, members = a ++ (some "kind", t) :: b ∧ readKind t = .ok k ∧
      (∀ m ∈ a ++ b, Keeps depth m) ∧ found = kept.reverse ++ (a ++ b) := by
  induction members generalizing kept with
  | nil => cases split
  | cons m members ih =>
    obtain ⟨_ | name, t⟩ := m
    · cases split
    rw [Payload.split] at split
    by_cases tag : name = "kind"
    · rw [if_pos tag] at split
      obtain ⟨_, kind, split⟩ := bind_eq_ok_iff.1 split
      obtain ⟨keeps, same⟩ := split_some_eq_ok split
      cases same
      exact ⟨[], t, members, by rw [tag]; rfl, kind, keeps, rfl⟩
    · rw [if_neg tag] at split
      obtain ⟨_, readable, split⟩ := bind_eq_ok_iff.1 split
      obtain ⟨a, u, b, rfl, kind, keeps, rfl⟩ := ih split
      refine ⟨(some name, t) :: a, u, b, rfl, kind, ?_, by simp⟩
      exact List.forall_mem_cons.2 ⟨⟨⟨name, rfl, tag⟩, demand_eq_ok_iff.1 readable⟩, keeps⟩

/-- **A payload is read from an object exactly if** it has one kind, its other members can be kept,
and the fields of the kind are read from them. -/
theorem readAt_object_eq_ok_iff {closed : Bool} :
    readAt depth (.object members closed) = .ok p ↔ closed = true ∧ ∃ k a t b,
      members = a ++ (some "kind", t) :: b ∧ readKind t = .ok k ∧
      (∀ m ∈ a ++ b, Keeps (depth + 1) m) ∧
      ((layout k).readObject (a ++ b) true >>= ofRecord k) = .ok p := by
  constructor
  · intro read
    obtain ⟨⟨kind, kept⟩, split, read⟩ := bind_eq_ok_iff.1 read
    obtain ⟨_, closed, read⟩ := bind_eq_ok_iff.1 read
    refine ⟨demand_eq_ok_iff.1 closed, ?_⟩
    cases kind with
    | none => cases read
    | some k =>
      obtain ⟨a, t, b, rfl, kind, keeps, rfl⟩ := split_none_eq_ok split
      exact ⟨k, a, t, b, rfl, kind, keeps, read⟩
  · rintro ⟨rfl, k, a, t, b, rfl, kind, keeps, read⟩
    rw [readAt, split_kind kind keeps]
    exact read

/-- A payload is read from an array exactly if its first item is a kind, the others can be kept, and
the fields of the kind are read from them. -/
theorem readAt_array_eq_ok_iff {t : Tree} {items : List Tree} {closed : Bool} :
    readAt depth (.array (t :: items) closed) = .ok p ↔ closed = true ∧ ∃ k, readKind t = .ok k ∧
      Tree.areReadable (depth + 1) items = true ∧
      ((layout k).readArray items true >>= ofRecord k) = .ok p := by
  constructor
  · intro read
    obtain ⟨k, kind, read⟩ := bind_eq_ok_iff.1 read
    obtain ⟨_, both, read⟩ := bind_eq_ok_iff.1 read
    obtain ⟨readable, closed⟩ := Bool.and_eq_true_iff.1 (demand_eq_ok_iff.1 both)
    exact ⟨closed, k, kind, readable, read⟩
  · rintro ⟨rfl, k, kind, readable, read⟩
    rw [readAt, kind, readable]
    exact read

end Inversion

/-- The status that a payload holds, if it is of an exit. -/
def status? : Payload → Option Int32
  | exitRecorded status _ => some status
  | _ => none

theorem kind_of_status {k : PayloadKind} {r : Record} {p : Payload} (made : ofRecord k r = .ok p)
    (held : p.status?.isSome = true) : k = .exitRecorded := by
  rw [← (shows_of_ofRecord made).1]
  cases p with
  | exitRecorded => rfl
  | _ => cases held

/-- One of two members is taken out of a list: the other stays in its place, whatever its value. -/
theorem exists_without {a b before after : List Member} {m n : Option String} {t u : Tree}
    (other : n ≠ m) (same : before ++ (n, u) :: after = a ++ (m, t) :: b) :
    ∃ front back, a ++ b = front ++ (n, u) :: back ∧ ∀ v, ∃ a' b',
      before ++ (n, v) :: after = a' ++ (m, t) :: b' ∧ a' ++ b' = front ++ (n, v) :: back := by
  rcases List.append_eq_append_iff.1 same with ⟨c, rfl, tail⟩ | ⟨c, rfl, tail⟩
  · cases c with
    | nil => exact absurd (congrArg Prod.fst (List.cons.inj tail).1) other
    | cons d c =>
      obtain ⟨rfl, rfl⟩ := List.cons.inj tail
      exact ⟨before, c ++ b, by simp, fun v => ⟨before ++ (n, v) :: c, b, by simp, by simp⟩⟩
  · cases c with
    | nil => exact absurd (congrArg Prod.fst (List.cons.inj tail).1).symm other
    | cons d c =>
      obtain ⟨rfl, rfl⟩ := List.cons.inj tail
      exact ⟨a ++ c, after, by simp, fun v => ⟨a, c ++ (n, v) :: after, by simp, by simp⟩⟩

/-- Members are kept, whatever the value of one of them is, as long as that can be kept. -/
theorem keeps_put {depth : Nat} {front back : List Member} {name : Option String} {t u : Tree}
    (keeps : ∀ m ∈ front ++ (name, t) :: back, Keeps depth m)
    (readable : u.isReadable depth = true) :
    ∀ m ∈ front ++ (name, u) :: back, Keeps depth m := by
  rw [List.forall_mem_append, List.forall_mem_cons] at keeps ⊢
  obtain ⟨first, own, last⟩ := keeps
  exact ⟨first, ⟨own.other, readable⟩, last⟩

/-- The status among the fields of an exit that have been kept. -/
theorem focus_kept : Focus (fun t => (layout .exitRecorded).readRecord t >>= ofRecord .exitRecorded)
    [("status", 0)] Reader.int32 status? :=
  (restores .exitRecorded).focus (f := statusField) rfl
    (fun r p made => by
      obtain ⟨status, held, made⟩ := bind_eq_ok_iff.1 made
      obtain ⟨_, -, made⟩ := bind_eq_ok_iff.1 made
      cases made
      exact ⟨status, held, rfl⟩)
    (Focus.here _)

/-- **The status of an exit,** which is kept before it is looked at. -/
theorem focus_status (depth : Nat) : Focus (readAt depth) [("status", 1)] Reader.int32 status? := by
  intro g leads u₀ p₀ present₀ read₀ held u present
  cases g with
  | here => exact leads.elim
  | item before gap after =>
    obtain ⟨one, leads⟩ := leads
    obtain ⟨t, rfl⟩ := List.length_eq_one_iff.1 one
    obtain rfl := leads.here
    obtain ⟨-, k, kind, readable, read₀⟩ := readAt_array_eq_ok_iff.1 read₀
    obtain ⟨_, -, made⟩ := bind_eq_ok_iff.1 read₀
    obtain rfl := kind_of_status made held
    obtain ⟨-, others⟩ := List.forall_mem_cons.1 (Tree.areReadable_iff.1 readable)
    obtain ⟨seen, taken⟩ := focus_kept (.item [] .here after) ⟨rfl, trivial⟩ u₀ p₀ present₀ read₀
      held u present
    constructor
    · intro p read
      obtain ⟨-, _, again, -, read⟩ := readAt_array_eq_ok_iff.1 read
      rw [kind] at again
      cases again
      exact seen p read
    · intro c value
      obtain ⟨p, read⟩ := taken c value
      have readable : Tree.areReadable (depth + 1) (u :: after) = true :=
        Tree.areReadable_iff.2 (List.forall_mem_cons.2 ⟨isReadable_of_int32 value, others⟩)
      exact ⟨p, readAt_array_eq_ok_iff.2 ⟨rfl, _, kind, readable, read⟩⟩
  | member before name gap after =>
    obtain ⟨rfl, leads⟩ := leads
    obtain rfl := leads.here
    obtain ⟨-, k, a, t, b, same, kind, keeps, read₀⟩ := readAt_object_eq_ok_iff.1 read₀
    obtain ⟨_, -, made⟩ := bind_eq_ok_iff.1 read₀
    obtain rfl := kind_of_status made held
    obtain ⟨front, back, rest, placed⟩ := exists_without (by decide) same
    rw [rest] at keeps read₀
    obtain ⟨seen, taken⟩ := focus_kept (.member front (some "status") .here back) ⟨rfl, trivial⟩
      u₀ p₀ present₀ read₀ held u present
    obtain ⟨a', b', whole, rest⟩ := placed u
    have kept (readable : u.isReadable (depth + 1) = true) :
        ∀ m ∈ a' ++ b', Keeps (depth + 1) m := by
      rw [rest]
      exact keeps_put keeps readable
    constructor
    · intro p read
      -- whichever member was taken for the kind this time, the status has been kept
      have readable : u.isReadable (depth + 1) = true := by
        obtain ⟨-, _, c, _, d, same, -, keeps, -⟩ := readAt_object_eq_ok_iff.1 read
        obtain ⟨_, _, rest, -⟩ := exists_without (by decide) same
        exact (keeps (some "status", u) (by simp [rest, Gap.fill])).readable
      refine seen p ?_
      rw [Gap.fill, Gap.fill, whole, readAt, split_kind kind (kept readable), rest] at read
      exact read
    · intro c value
      obtain ⟨p, read⟩ := taken c value
      refine ⟨p, readAt_object_eq_ok_iff.2 ⟨rfl, _, a', t, b', whole, kind,
        kept (isReadable_of_int32 value), ?_⟩⟩
      rw [rest]
      exact read

end Payload

/-! ## Integers and moments -/

namespace ResourceSpec

theorem focus_cpuShares : Focus read [("cpu_shares", 0)] Reader.uint64 cpuShares :=
  restores.focus (f := cpuSharesField) rfl
    (fun r s made => ⟨s.cpuShares, restores.shows r s made _ (.head _), rfl⟩) (Focus.present _)

theorem focus_cpuQuota : Focus read [("cpu_quota", 1)] Reader.int64 cpuQuota :=
  restores.focus (f := cpuQuotaField) rfl
    (fun r s made => ⟨s.cpuQuota, restores.shows r s made _ (.tail _ (.head _)), rfl⟩)
    (Focus.present _)

theorem focus_cpuPeriod : Focus read [("cpu_period", 2)] Reader.uint64 cpuPeriod :=
  restores.focus (f := cpuPeriodField) rfl
    (fun r s made => ⟨s.cpuPeriod, restores.shows r s made _ (.tail _ (.tail _ (.head _))), rfl⟩)
    (Focus.present _)

theorem focus_memoryLimit : Focus read [("memory_limit", 3)] Reader.int64 memoryLimit :=
  restores.focus (f := memoryLimitField) rfl
    (fun r s made => ⟨s.memoryLimit,
      restores.shows r s made _ (.tail _ (.tail _ (.tail _ (.head _)))), rfl⟩)
    (Focus.present _)

theorem focus_pidsLimit : Focus read [("pids_limit", 4)] Reader.int64 pidsLimit :=
  restores.focus (f := pidsLimitField) rfl
    (fun r s made => ⟨s.pidsLimit,
      restores.shows r s made _ (.tail _ (.tail _ (.tail _ (.tail _ (.head _))))), rfl⟩)
    (Focus.present _)

/-- What is written for a limit stands in its member. -/
theorem exists_gap {s : ResourceSpec} {f : Shown} (mem : f ∈ s.shown) {u : Tree}
    (written : f.written = some u) (i : Nat) :
    ∃ g : Gap, g.Leads [(f.name, i)] ∧ s.toTree = g.fill u := by
  have place : (f.name, some u) ∈ s.shown.map fun f => (f.name, f.written) :=
    List.mem_map.2 ⟨f, mem, by rw [written]⟩
  exact Tree.exists_gap .here place Gap.leads_here i

end ResourceSpec

theorem ExecHandle.focus_pid : Focus read [("pid", 1)] Reader.uint32 pid :=
  restores.focus (f := pidField) rfl
    (fun r h made => ⟨h.pid, restores.shows r h made _ (.tail _ (.head _)), rfl⟩) (Focus.present _)

theorem ExecHandle.exists_gap_pid {h : ExecHandle} {n : UInt32} (held : h.pid = some n) :
    ∃ g : Gap, g.Leads [("pid", 1)] ∧ h.toTree = g.fill (.nat n.toNat) :=
  Tree.exists_gap .here (by simp [held, Gap.fill]) Gap.leads_here 1

namespace ExitStatus

theorem focus_code : Focus read [("code", 0)] Reader.int32 fun s => some s.code :=
  restores.focus (f := codeField) rfl
    (fun r s made => ⟨s.code, restores.shows r s made _ (.head _), rfl⟩) (Focus.here _)

theorem focus_exitedAt : Focus read [("exited_at", 1)] Moment.read fun s => some s.exitedAt :=
  restores.focus (f := exitedAtField) rfl
    (fun r s made => ⟨s.exitedAt, restores.shows r s made _ (.tail _ (.head _)), rfl⟩)
    (Focus.here _)

theorem exists_gap_code (s : ExitStatus) :
    ∃ g : Gap, g.Leads [("code", 0)] ∧ s.toTree = g.fill (.int s.code.toInt) :=
  Tree.exists_gap .here (by simp [Gap.fill]) Gap.leads_here 0

theorem exists_gap_exitedAt (s : ExitStatus) :
    ∃ g : Gap, g.Leads [("exited_at", 1)] ∧ s.toTree = g.fill s.exitedAt.toTree :=
  Tree.exists_gap .here (by simp [Gap.fill]) Gap.leads_here 1

end ExitStatus

/-- **A place in the exit of a snapshot.** -/
theorem ProcessSnapshot.focus_exit {γ : Type} {path : List (String × Nat)} {inner : Reader γ}
    {get : ExitStatus → γ} (focus : Focus ExitStatus.read path inner fun s => some (get s)) :
    Focus read (("exit", 2) :: path) inner fun s => s.exit.map get :=
  restores.focus (f := exitField) rfl
    (fun r s made => ⟨s.exit, restores.shows r s made _ (.tail _ (.tail _ (.head _))),
      by cases s.exit <;> rfl⟩)
    focus.optional

theorem ProcessSnapshot.exists_gap_exit {s : ProcessSnapshot} {e : ExitStatus} {u : Tree}
    {path : List (String × Nat)} (exit : s.exit = some e)
    (gap : ∃ g : Gap, g.Leads path ∧ e.toTree = g.fill u) :
    ∃ g : Gap, g.Leads (("exit", 2) :: path) ∧ s.toTree = g.fill u := by
  obtain ⟨g, leads, inner⟩ := gap
  exact Tree.exists_gap g (by simp [exit, inner]) leads 2

theorem Payload.exists_gap_status {p : Payload} {status : Int32} (held : p.status? = some status) :
    ∃ g : Gap, g.Leads [("status", 1)] ∧ p.toTree = g.fill (.int status.toInt) := by
  cases p with
  | exitRecorded =>
    cases held
    exact Tree.exists_gap .here (by simp [Gap.fill]) Gap.leads_here 1
  | _ => cases held

namespace Event

theorem focus_timestamp :
    Focus read [("timestamp_ns", 0)] Reader.uint64 fun e => some e.timestamp :=
  restores.focus (f := timestampField) rfl
    (fun r e made => ⟨e.timestamp, restores.shows r e made _ (.head _), rfl⟩) (Focus.here _)

theorem focus_status :
    Focus read [("payload", 3), ("status", 1)] Reader.int32 fun e => e.payload.status? :=
  restores.focus (f := payloadField) rfl
    (fun r e made => ⟨e.payload,
      restores.shows r e made _ (.tail _ (.tail _ (.tail _ (.head _)))), rfl⟩)
    (Payload.focus_status 2)

theorem exists_gap_timestamp (e : Event) :
    ∃ g : Gap, g.Leads [("timestamp_ns", 0)] ∧ e.toTree = g.fill (.nat e.timestamp.toNat) :=
  Tree.exists_gap .here (by simp [Gap.fill]) Gap.leads_here 0

theorem exists_gap_status {e : Event} {status : Int32} (held : e.payload.status? = some status) :
    ∃ g : Gap, g.Leads [("payload", 3), ("status", 1)] ∧ e.toTree = g.fill (.int status.toInt) := by
  obtain ⟨g, leads, inner⟩ := Payload.exists_gap_status held
  exact Tree.exists_gap g (by simp [inner]) leads 3

end Event

/-- The number that is no signal is the value of the only member. -/
theorem InvalidSignal.focus_number :
    Focus read [("InvalidSignal", 0)] Reader.uint32 fun e => some e.number := by
  intro g leads u₀ e₀ present₀ read₀ held u present
  cases g with
  | here => exact leads.elim
  | item => cases read₀
  | member before name gap after =>
    obtain ⟨rfl, leads⟩ := leads
    obtain rfl := leads.here
    cases before with
    | nil =>
      obtain ⟨_, -, read₀⟩ := bind_eq_ok_iff.1 read₀
      obtain ⟨_, -, read₀⟩ := bind_eq_ok_iff.1 read₀
      obtain ⟨_, ended, -⟩ := bind_eq_ok_iff.1 read₀
      constructor
      · intro e read
        obtain ⟨_, -, read⟩ := bind_eq_ok_iff.1 read
        obtain ⟨n, number, read⟩ := bind_eq_ok_iff.1 read
        obtain ⟨_, -, ⟨⟩⟩ := bind_eq_ok_iff.1 read
        exact ⟨n, number, rfl⟩
      · intro n number
        exact ⟨⟨n⟩, bind_eq_ok_iff.2 ⟨_, rfl, bind_eq_ok_iff.2 ⟨n, number,
          bind_eq_ok_iff.2 ⟨_, ended, rfl⟩⟩⟩⟩
    | cons m before =>
      -- something follows the member that is read
      obtain ⟨_ | name, t⟩ := m
      · cases read₀
      · obtain ⟨_, -, read₀⟩ := bind_eq_ok_iff.1 read₀
        obtain ⟨_, -, read₀⟩ := bind_eq_ok_iff.1 read₀
        obtain ⟨_, ended, -⟩ := bind_eq_ok_iff.1 read₀
        cases before <;> cases ended

theorem InvalidSignal.exists_gap_number (e : InvalidSignal) :
    ∃ g : Gap, g.Leads [("InvalidSignal", 0)] ∧ e.toTree = g.fill (.nat e.number.toNat) :=
  Tree.exists_gap .here (by simp [Gap.fill]) Gap.leads_here 0

end ContainerInit
