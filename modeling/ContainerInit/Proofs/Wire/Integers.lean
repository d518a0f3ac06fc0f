import ContainerInit.Proofs.Json.Numeral
import ContainerInit.Proofs.Wire.Places
import ContainerInit.Proofs.Wire.RoundTrip
import Mathlib.Algebra.Group.Int.Defs

/-!
# Integers do not wrap

- **Integers of a range** (`Reader.IsInteger`): the words of 32 and 64 bits, with or without a sign,
  are read from the integers of their range.
- **Sound values** (`Event.isSound_read` and so on): the readers of values with integers take no
  broken text, also where members are kept before they are looked at.
- **Numerals in values** (`NeverWraps`, `integers_never_wrap`): where a value has an integer, a
  numeral is taken exactly if it is the text of an integer in range, and then as that integer.
-/

namespace ContainerInit

open Json

/-! ## Integers of a range -/

namespace Json.Reader

/-- The reader takes the integers from `least` to `greatest`, each as the value that stands for
it. -/
def IsInteger {β : Type} (read : Reader β) (toInt : β → Int) (least greatest : Int) : Prop :=
  ∀ l i, (∃ b, read (.number l) = .ok b ∧ toInt b = i) ↔
    l.toInt? = some i ∧ least ≤ i ∧ i ≤ greatest

theorem isInteger_map {β : Type} {f : Int → β} {toInt : β → Int} {least greatest : Int}
    (back : ∀ i, least ≤ i → i ≤ greatest → toInt (f i) = i) :
    IsInteger (fun t => (integer least greatest t).map f) toInt least greatest := by
  intro l i
  constructor
  · rintro ⟨b, read, rfl⟩
    obtain ⟨j, inner, rfl⟩ := map_eq_ok_iff.1 read
    obtain ⟨value, above, below⟩ := integer_number.1 inner
    rw [back j above below]
    exact ⟨value, above, below⟩
  · rintro ⟨value, above, below⟩
    exact ⟨f i, map_eq_ok_iff.2 ⟨i, integer_number.2 ⟨value, above, below⟩, rfl⟩,
      back i above below⟩

theorem isInteger_uint32 : uint32.IsInteger (fun n => n.toNat) 0 (2 ^ 32 - 1) := by
  refine isInteger_map fun i above below => ?_
  have below : i ≤ 4294967295 := below
  rw [UInt32.toNat_ofNat_of_lt' (by unfold UInt32.size; omega)]
  exact Int.toNat_of_nonneg above

theorem isInteger_uint64 : uint64.IsInteger (fun n => n.toNat) 0 (2 ^ 64 - 1) := by
  refine isInteger_map fun i above below => ?_
  have below : i ≤ 18446744073709551615 := below
  rw [UInt64.toNat_ofNat_of_lt' (by unfold UInt64.size; omega)]
  exact Int.toNat_of_nonneg above

theorem isInteger_int32 : int32.IsInteger Int32.toInt (-2 ^ 31) (2 ^ 31 - 1) :=
  isInteger_map fun _ above below => Int32.toInt_ofInt_of_le above (Int.lt_add_one_of_le below)

theorem isInteger_int64 : int64.IsInteger Int64.toInt (-2 ^ 63) (2 ^ 63 - 1) :=
  isInteger_map fun _ above below => Int64.toInt_ofInt_of_le above (Int.lt_add_one_of_le below)

end Json.Reader

/-! ## Sound values -/

theorem Moment.isSound_read : Reader.IsSound Moment.read := by
  intro t m read
  unfold Moment.read at read
  split at read
  · rfl
  · cases read

theorem InvalidSignal.isSound_read : Reader.IsSound InvalidSignal.read := by
  intro t e read
  unfold InvalidSignal.read at read
  split at read
  · cases (bind_eq_ok_iff.1 read).choose_spec.2
  · obtain ⟨_, -, read⟩ := bind_eq_ok_iff.1 read
    obtain ⟨n, number, read⟩ := bind_eq_ok_iff.1 read
    obtain ⟨_, ended, -⟩ := bind_eq_ok_iff.1 read
    obtain ⟨none, closed⟩ := Bool.and_eq_true_iff.1 (demand_eq_ok_iff.1 ended)
    have sound := (Reader.isSound_integer _ _).map _ _ number
    simp [Tree.isSound, Tree.membersAreSound, closed, sound, List.isEmpty_iff.1 none]
  · cases read

theorem ResourceSpec.isSound_read : Reader.IsSound ResourceSpec.read := by
  have unsigned : (Reader.optional Reader.uint64).IsSound :=
    (Reader.isSound_integer _ _).map.optional
  have signed : (Reader.optional Reader.int64).IsSound := (Reader.isSound_integer _ _).map.optional
  refine Layout.isSound_bind ?_
  simp only [layout, List.forall_mem_cons]
  exact ⟨RecordField.isSound unsigned, RecordField.isSound signed, RecordField.isSound unsigned,
    RecordField.isSound signed, RecordField.isSound signed, List.forall_mem_nil _⟩

theorem ExecHandle.isSound_read : Reader.IsSound ExecHandle.read := by
  have pid : (Reader.optional Reader.uint32).IsSound := (Reader.isSound_integer _ _).map.optional
  refine Layout.isSound_bind ?_
  simp only [layout, List.forall_mem_cons]
  exact ⟨RecordField.isSound Reader.isSound_text, RecordField.isSound pid, List.forall_mem_nil _⟩

theorem ExitStatus.isSound_read : Reader.IsSound ExitStatus.read := by
  have code : Reader.int32.IsSound := (Reader.isSound_integer _ _).map
  refine Layout.isSound_bind ?_
  simp only [layout, List.forall_mem_cons]
  exact ⟨RecordField.isSound code, RecordField.isSound Moment.isSound_read,
    List.forall_mem_nil _⟩

theorem ProcessSnapshot.isSound_read : Reader.IsSound ProcessSnapshot.read := by
  refine Layout.isSound_bind ?_
  simp only [layout, List.forall_mem_cons]
  exact ⟨RecordField.isSound Reader.isSound_text,
    RecordField.isSound (Reader.isSound_variant _),
    RecordField.isSound ExitStatus.isSound_read.optional, List.forall_mem_nil _⟩

namespace Payload

theorem isSound_readKind : Reader.IsSound readKind := by
  intro t k read
  unfold readKind at read
  split at read
  · rfl
  · cases read

/-- **What is kept of a payload is sound,** and the rest is its kind. -/
theorem isSound_readAt (depth : Nat) : Reader.IsSound (readAt depth) := by
  intro t p read
  cases t with
  | object members closed =>
    obtain ⟨rfl, _, a, t, b, rfl, kind, keeps, -⟩ := readAt_object_eq_ok_iff.1 read
    have sound (m : Member) (keeps : Keeps (depth + 1) m) : m.2.isSound = true :=
      Tree.isSound_of_isReadable keeps.readable
    have members : ∀ m ∈ a ++ (some "kind", t) :: b, m.2.isSound = true := by
      rw [List.forall_mem_append] at keeps
      rw [List.forall_mem_append, List.forall_mem_cons]
      exact ⟨fun m hm => sound m (keeps.1 m hm), isSound_readKind t _ kind,
        fun m hm => sound m (keeps.2 m hm)⟩
    simpa [Tree.isSound] using Tree.membersAreSound_iff.2 members
  | array items closed =>
    cases items with
    | nil =>
      obtain ⟨_, -, read⟩ := bind_eq_ok_iff.1 read
      cases read
    | cons t items =>
      obtain ⟨rfl, _, kind, readable, -⟩ := readAt_array_eq_ok_iff.1 read
      simp [Tree.isSound, Tree.areSound, isSound_readKind t _ kind,
        Tree.areSound_of_areReadable readable]
  | _ => cases read

end Payload

theorem Event.isSound_read : Reader.IsSound Event.read := by
  have timestamp : Reader.uint64.IsSound := (Reader.isSound_integer _ _).map
  refine Layout.isSound_bind ?_
  simp only [layout, List.forall_mem_cons]
  exact ⟨RecordField.isSound timestamp, RecordField.isSound (Reader.isSound_variant _),
    RecordField.isSound Reader.isSound_text, RecordField.isSound (Payload.isSound_readAt 2),
    List.forall_mem_nil _⟩

/-! ## Numerals in values -/

/-- Between two texts, a numeral is taken exactly if it is the text of an integer from `least` to
`greatest`, and the value then holds that integer. -/
def TakesIntegers {α : Type} (read : Reader α) (least greatest : Int) (held : α → Option Int)
    (before after : List Char) : Prop :=
  ∀ numeral, numeral ≠ [] → Numeral numeral →
    ((∃ a, decode read (String.ofList (before ++ numeral ++ after)) = .ok a) ↔
      ∃ i, IntegerText numeral i ∧ least ≤ i ∧ i ≤ greatest) ∧
    ∀ a, decode read (String.ofList (before ++ numeral ++ after)) = .ok a →
      ∃ i, IntegerText numeral i ∧ held a = some i

/-- So the text of an integer in range is taken as that integer, -/
theorem TakesIntegers.takes {α : Type} {read : Reader α} {least greatest i : Int}
    {held : α → Option Int} {before numeral after : List Char}
    (takes : TakesIntegers read least greatest held before after) (text : IntegerText numeral i)
    (bounds : least ≤ i ∧ i ≤ greatest) :
    ∃ a, decode read (String.ofList (before ++ numeral ++ after)) = .ok a ∧ held a = some i := by
  obtain ⟨accepted, value⟩ := takes numeral text.numeral.1 text.numeral.2
  obtain ⟨a, read⟩ := accepted.2 ⟨i, text, bounds⟩
  obtain ⟨j, other, held⟩ := value a read
  exact ⟨a, read, by rw [held, other.unique text]⟩

/-- and that of any other integer is refused. -/
theorem TakesIntegers.refuses {α : Type} {read : Reader α} {least greatest i : Int}
    {held : α → Option Int} {before numeral after : List Char}
    (takes : TakesIntegers read least greatest held before after) (text : IntegerText numeral i)
    (outside : ¬ (least ≤ i ∧ i ≤ greatest)) (a : α) :
    decode read (String.ofList (before ++ numeral ++ after)) ≠ .ok a := by
  intro read
  obtain ⟨j, other, bounds⟩ := (takes numeral text.numeral.1 text.numeral.2).1.1 ⟨a, read⟩
  exact outside (other.unique text ▸ bounds)

theorem TakesIntegers.of_focus {α β : Type} {read : Reader α} {path : List (String × Nat)}
    {inner : Reader β} {get : α → Option β} {toInt : β → Int} {least greatest : Int}
    {before after : List Char} (focus : Focus read path inner get) (sound : read.IsSound)
    (range : inner.IsInteger toInt least greatest) (opening : Opening read path get before after) :
    TakesIntegers read least greatest (fun a => (get a).map toInt) before after := by
  intro numeral nonempty digits
  obtain ⟨g, u₀, a₀, leads, whole, present, read₀, shown, first, last⟩ := opening
  rcases decode_numeral sound whole first last nonempty digits with
    ⟨l, integer, same⟩ | ⟨none, refused⟩
  · obtain ⟨seen, taken⟩ := focus g leads u₀ a₀ present read₀ shown (.number l) nofun
    have holds {a : α} (read : decode read (String.ofList (before ++ numeral ++ after)) = .ok a) :
        ∃ i, (IntegerText numeral i ∧ least ≤ i ∧ i ≤ greatest) ∧ (get a).map toInt = some i := by
      rw [same] at read
      obtain ⟨b, value, held⟩ := seen a read
      obtain ⟨text, bounds⟩ := (range l _).1 ⟨b, value, rfl⟩
      exact ⟨toInt b, ⟨(integer _).1 text, bounds⟩, by rw [held]; rfl⟩
    refine ⟨⟨fun ⟨a, read⟩ => ?_, fun ⟨i, text, bounds⟩ => ?_⟩, fun a read => ?_⟩
    · obtain ⟨i, text, -⟩ := holds read
      exact ⟨i, text⟩
    · obtain ⟨b, value, -⟩ := (range l i).2 ⟨(integer i).2 text, bounds⟩
      rw [same]
      exact taken b value
    · obtain ⟨i, text, held⟩ := holds read
      exact ⟨i, text.1, held⟩
  · refine ⟨⟨fun ⟨a, read⟩ => ?_, fun ⟨i, text, _⟩ => ?_⟩, fun a read => ?_⟩
    · exact absurd read (refused a)
    · exact absurd text (none i)
    · exact absurd read (refused a)

/-- The texts around the integer that a value holds at the end of a path, in any form of the
value. -/
abbrev IntegerPlace {α : Type} (form : α → Tree → Prop) (path : List (String × Nat))
    (held : α → Option Int) : List Char → List Char → Prop :=
  Place form path fun a => (held a).map Tree.int

/-- The integers from `least` to `greatest` at the end of a path do not wrap. -/
structure NeverWraps {α : Type} (read : Reader α) (toTree : α → Tree) (form : α → Tree → Prop)
    (path : List (String × Nat)) (least greatest : Int) (held : α → Option Int) : Prop where
  /-- What is written for a value that holds an integer has a place for it. -/
  written : ∀ a i, held a = some i → ∃ before after, IntegerPlace form path held before after ∧
    (toTree a).render = String.ofList (before ++ (Tree.int i).print ++ after)
  /-- In every form of every value, the numeral in the place decides whether a value is read, and
  what it holds. -/
  placed : ∀ before after, IntegerPlace form path held before after →
    TakesIntegers read least greatest held before after
  /-- And so in any other text in which the reader takes something there. -/
  elsewhere : ∀ before after, Opening read path held before after →
    TakesIntegers read least greatest held before after

theorem NeverWraps.of_focus {α β : Type} {read : Reader α} {toTree : α → Tree}
    {form : α → Tree → Prop} {path : List (String × Nat)} {inner : Reader β} {get : α → Option β}
    {toInt : β → Int} {least greatest : Int} (focus : Focus read path inner get)
    (sound : read.IsSound) (range : inner.IsInteger toInt least greatest)
    (encodes : ∀ a t, form a t → t.Encodes read a) (usual : ∀ a, form a (toTree a))
    (gap : ∀ a b, get a = some b → ∃ g : Gap, g.Leads path ∧ toTree a = g.fill (.int (toInt b))) :
    NeverWraps read toTree form path least greatest fun a => (get a).map toInt where
  written a i held := by
    obtain ⟨b, got, rfl⟩ := Option.map_eq_some_iff.1 held
    exact Place.written encodes usual (congrArg (Option.map Tree.int) held) (gap a b got)
  placed before after place := by
    refine .of_focus focus sound range (place.opening encodes fun a u puts => ?_)
    obtain ⟨i, held, rfl⟩ := Option.map_eq_some_iff.1 puts
    obtain ⟨b, got, -⟩ := Option.map_eq_some_iff.1 held
    exact ⟨nofun, Option.isSome_of_eq_some got⟩
  elsewhere before after opening := by
    obtain ⟨g, u, a, leads, whole, present, value, seen, laid⟩ := opening
    rw [Option.isSome_map] at seen
    exact .of_focus focus sound range ⟨g, u, a, leads, whole, present, value, seen, laid⟩

theorem ResourceSpec.neverWraps {β : Type} {inner : Reader β} {name : String} {i : Nat}
    {get : ResourceSpec → Option β} {toInt : β → Int} {least greatest : Int}
    (focus : Focus read [(name, i)] inner get) (range : inner.IsInteger toInt least greatest)
    (field : ∀ s b, get s = some b →
      ∃ f ∈ s.shown, f.name = name ∧ f.written = some (.int (toInt b))) :
    NeverWraps read toTree (fun s => RecordForm 1 s.shown) [(name, i)] least greatest fun s =>
      (get s).map toInt := by
  refine .of_focus focus isSound_read range (fun s _ => s.form_encodes)
    (fun s => recordForm_record 1 s.shown) fun s b held => ?_
  obtain ⟨f, mem, rfl, written⟩ := field s b held
  exact exists_gap mem written i

/-- **No integer of the wire wraps.** This holds of the limits, of process numbers, of times and of
the codes of exits, also in an exit within a snapshot and in a payload within an event. -/
theorem integers_never_wrap :
    (NeverWraps ResourceSpec.read ResourceSpec.toTree (fun s => RecordForm 1 s.shown)
      [("cpu_shares", 0)] 0 (2 ^ 64 - 1) fun s => s.cpuShares.map fun n => n.toNat) ∧
    (NeverWraps ResourceSpec.read ResourceSpec.toTree (fun s => RecordForm 1 s.shown)
      [("cpu_quota", 1)] (-2 ^ 63) (2 ^ 63 - 1) fun s => s.cpuQuota.map Int64.toInt) ∧
    (NeverWraps ResourceSpec.read ResourceSpec.toTree (fun s => RecordForm 1 s.shown)
      [("cpu_period", 2)] 0 (2 ^ 64 - 1) fun s => s.cpuPeriod.map fun n => n.toNat) ∧
    (NeverWraps ResourceSpec.read ResourceSpec.toTree (fun s => RecordForm 1 s.shown)
      [("memory_limit", 3)] (-2 ^ 63) (2 ^ 63 - 1) fun s => s.memoryLimit.map Int64.toInt) ∧
    (NeverWraps ResourceSpec.read ResourceSpec.toTree (fun s => RecordForm 1 s.shown)
      [("pids_limit", 4)] (-2 ^ 63) (2 ^ 63 - 1) fun s => s.pidsLimit.map Int64.toInt) ∧
    (NeverWraps ExecHandle.read ExecHandle.toTree (fun h => RecordForm 1 h.shown)
      [("pid", 1)] 0 (2 ^ 32 - 1) fun h => h.pid.map fun n => n.toNat) ∧
    (NeverWraps InvalidSignal.read InvalidSignal.toTree (fun e t => t = e.toTree)
      [("InvalidSignal", 0)] 0 (2 ^ 32 - 1) fun e => some e.number.toNat) ∧
    (NeverWraps ExitStatus.read ExitStatus.toTree (fun s => RecordForm 1 s.shown)
      [("code", 0)] (-2 ^ 31) (2 ^ 31 - 1) fun s => some s.code.toInt) ∧
    (NeverWraps ProcessSnapshot.read ProcessSnapshot.toTree (fun s => RecordForm 1 s.shown)
      [("exit", 2), ("code", 0)] (-2 ^ 31) (2 ^ 31 - 1) fun s =>
        (s.exit.map ExitStatus.code).map Int32.toInt) ∧
    (NeverWraps Payload.read Payload.toTree (fun p => RecordForm 1 p.shown)
      [("status", 1)] (-2 ^ 31) (2 ^ 31 - 1) fun p => p.status?.map Int32.toInt) ∧
    (NeverWraps Event.read Event.toTree (fun e => RecordForm 1 e.shown)
      [("timestamp_ns", 0)] 0 (2 ^ 64 - 1) fun e => some e.timestamp.toNat) ∧
    NeverWraps Event.read Event.toTree (fun e => RecordForm 1 e.shown)
      [("payload", 3), ("status", 1)] (-2 ^ 31) (2 ^ 31 - 1) fun e =>
        e.payload.status?.map Int32.toInt := by
  open Json.Reader in
  refine ⟨ResourceSpec.neverWraps ResourceSpec.focus_cpuShares isInteger_uint64 fun s n held =>
      ⟨_, .head _, rfl, congrArg (Option.map _) held⟩,
    ResourceSpec.neverWraps ResourceSpec.focus_cpuQuota isInteger_int64 fun s n held =>
      ⟨_, .tail _ (.head _), rfl, congrArg (Option.map _) held⟩,
    ResourceSpec.neverWraps ResourceSpec.focus_cpuPeriod isInteger_uint64 fun s n held =>
      ⟨_, .tail _ (.tail _ (.head _)), rfl, congrArg (Option.map _) held⟩,
    ResourceSpec.neverWraps ResourceSpec.focus_memoryLimit isInteger_int64 fun s n held =>
      ⟨_, .tail _ (.tail _ (.tail _ (.head _))), rfl, congrArg (Option.map _) held⟩,
    ResourceSpec.neverWraps ResourceSpec.focus_pidsLimit isInteger_int64 fun s n held =>
      ⟨_, .tail _ (.tail _ (.tail _ (.tail _ (.head _)))), rfl, congrArg (Option.map _) held⟩,
    .of_focus ExecHandle.focus_pid ExecHandle.isSound_read isInteger_uint32
      (fun h _ => h.form_encodes) (fun h => recordForm_record 1 h.shown)
      fun _ _ held => ExecHandle.exists_gap_pid held,
    .of_focus InvalidSignal.focus_number InvalidSignal.isSound_read isInteger_uint32
      (fun e _ same => same ▸ e.encodes) (fun _ => rfl) ?_,
    .of_focus ExitStatus.focus_code ExitStatus.isSound_read isInteger_int32
      (fun s _ => s.form_encodes) (fun s => recordForm_record 1 s.shown) ?_,
    .of_focus (ProcessSnapshot.focus_exit ExitStatus.focus_code) ProcessSnapshot.isSound_read
      isInteger_int32 (fun s _ => s.form_encodes) (fun s => recordForm_record 1 s.shown) ?_,
    .of_focus (Payload.focus_status 1) (Payload.isSound_readAt 1) isInteger_int32
      (fun p _ => p.form_encodes (by decide)) (Payload.form_toTree 1)
      fun _ _ held => Payload.exists_gap_status held,
    .of_focus Event.focus_timestamp Event.isSound_read isInteger_uint64
      (fun e _ => e.form_encodes) (fun e => recordForm_record 1 e.shown) ?_,
    .of_focus Event.focus_status Event.isSound_read isInteger_int32
      (fun e _ => e.form_encodes) (fun e => recordForm_record 1 e.shown)
      fun _ _ held => Event.exists_gap_status held⟩
  · rintro e _ ⟨⟩
    exact e.exists_gap_number
  · rintro s _ ⟨⟩
    exact s.exists_gap_code
  · intro s code held
    obtain ⟨e, exit, rfl⟩ := Option.map_eq_some_iff.1 held
    exact ProcessSnapshot.exists_gap_exit exit e.exists_gap_code
  · rintro e _ ⟨⟩
    exact e.exists_gap_timestamp

/-- Limits in an object, with their members in another order. -/
theorem ResourceSpec.place_cpuShares :
    IntegerPlace (fun s : ResourceSpec => RecordForm 1 s.shown) [("cpu_shares", 0)]
      (fun s => s.cpuShares.map fun n => (n.toNat : Int))
      "\x7b\"pids_limit\":5,\"cpu_shares\":".toList "\x7d".toList := by
  refine ⟨.member [(some "pids_limit", .int 5)] (some "cpu_shares") .here [],
    ⟨some 0, none, none, none, some 5⟩, .int 0, ⟨rfl, trivial⟩, rfl, ?_, ?_, ?_⟩
  · exact .object ⟨[("cpu_shares", .int 0), ("pids_limit", .int 5)], [], .swap .., .given rfl
      (.leftOut rfl (.leftOut rfl (.leftOut rfl (.given rfl .nil)))), nofun⟩
  · exact .token .openObject <| .token (.string (spells_print "pids_limit".toList)) <|
      .token .colon <| .token (.number (Literal.wellFormed_ofInt 5)) <| .token .comma <|
      .token (.string (spells_print "cpu_shares".toList)) <| .token .colon .done
  · exact .token .closeObject .done

/-- The payload of an exit, with its kind at the end. -/
theorem Payload.place_status :
    IntegerPlace (fun p : Payload => RecordForm 1 p.shown) [("status", 1)]
      (fun p => p.status?.map Int32.toInt)
      "\x7b\"previous\":\"running\",\"status\":".toList
      ",\"kind\":\"exit_recorded\"\x7d".toList := by
  refine ⟨.member [(some "previous", .text "running")] (some "status") .here
    [(some "kind", .text "exit_recorded")], .exitRecorded 0 .running, .int 0, ⟨rfl, trivial⟩, rfl,
    ?_, ?_, ?_⟩
  · let own : Record :=
      [("kind", .text "exit_recorded"), ("status", .int 0), ("previous", .text "running")]
    have reversed := List.reverse_perm (own.toMembers ++ [])
    exact .object ⟨own, [], reversed, .given rfl (.given rfl (.given .text .nil)), nofun⟩
  · exact .token .openObject <| .token (.string (spells_print "previous".toList)) <|
      .token .colon <| .token (.string (spells_print "running".toList)) <| .token .comma <|
      .token (.string (spells_print "status".toList)) <| .token .colon .done
  · exact .token .comma <| .token (.string (spells_print "kind".toList)) <| .token .colon <|
      .token (.string (spells_print "exit_recorded".toList)) <| .token .closeObject .done

/-- An event of an exit, as an array. -/
theorem Event.place_status :
    IntegerPlace (fun e : Event => RecordForm 1 e.shown) [("payload", 3), ("status", 1)]
      (fun e => e.payload.status?.map Int32.toInt)
      "[7,\"Info\",\"a\",[\"exit_recorded\",".toList ",\"running\"]]".toList := by
  refine ⟨.item [.int 7, .text "Info", .text "a"]
    (.item [.text "exit_recorded"] .here [.text "running"]) [],
    ⟨7, .info, "a", .exitRecorded 0 .running⟩, .int 0, ⟨rfl, rfl, trivial⟩, rfl, ?_, ?_, ?_⟩
  · exact .array (.item rfl (.item .text (.item rfl (.item
      (.array (.item rfl (.item rfl (.item .text (.done nofun))))) (.done nofun)))))
  · exact .token .openArray <| .token (.number (Literal.wellFormed_ofInt 7)) <| .token .comma <|
      .token (.string (spells_print "Info".toList)) <| .token .comma <|
      .token (.string (spells_print "a".toList)) <| .token .comma <| .token .openArray <|
      .token (.string (spells_print "exit_recorded".toList)) <| .token .comma .done
  · exact .token .comma <| .token (.string (spells_print "running".toList)) <| .token .closeArray <|
      .token .closeArray .done

/-- At these places the extremes are taken as they are, and one more than the greatest is
refused. -/
theorem integers_never_wrap_extremes :
    (∃ s, decode ResourceSpec.read
        "\x7b\"pids_limit\":5,\"cpu_shares\":18446744073709551615\x7d" = .ok s ∧
      s.cpuShares.map (fun n => (n.toNat : Int)) = some 18446744073709551615) ∧
    (∀ s, decode ResourceSpec.read
      "\x7b\"pids_limit\":5,\"cpu_shares\":18446744073709551616\x7d" ≠ .ok s) ∧
    (∃ p, decode Payload.read ("\x7b\"previous\":\"running\",\"status\":-2147483648," ++
        "\"kind\":\"exit_recorded\"\x7d") = .ok p ∧
      p.status?.map Int32.toInt = some (-2147483648)) ∧
    (∀ p, decode Payload.read ("\x7b\"previous\":\"running\",\"status\":2147483648," ++
      "\"kind\":\"exit_recorded\"\x7d") ≠ .ok p) ∧
    (∃ e, decode Event.read
        "[7,\"Info\",\"a\",[\"exit_recorded\",-2147483648,\"running\"]]" = .ok e ∧
      e.payload.status?.map Int32.toInt = some (-2147483648)) ∧
    ∀ e, decode Event.read
      "[7,\"Info\",\"a\",[\"exit_recorded\",2147483648,\"running\"]]" ≠ .ok e := by
  obtain ⟨shares, -, -, -, -, -, -, -, -, status, -, nested⟩ := integers_never_wrap
  have shares := shares.placed _ _ ResourceSpec.place_cpuShares
  have status := status.placed _ _ Payload.place_status
  have nested := nested.placed _ _ Event.place_status
  have greatest : IntegerText "18446744073709551615".toList 18446744073709551615 :=
    @IntegerText.natural "18446744073709551615".toList ⟨by simp, by simp⟩ (by simp)
  have beyond : IntegerText "18446744073709551616".toList 18446744073709551616 :=
    @IntegerText.natural "18446744073709551616".toList ⟨by simp, by simp⟩ (by simp)
  have least : IntegerText "-2147483648".toList (-2147483648) :=
    @IntegerText.negative "2147483648".toList ⟨by simp, by simp⟩ (by simp) (by decide)
  have above : IntegerText "2147483648".toList 2147483648 :=
    @IntegerText.natural "2147483648".toList ⟨by simp, by simp⟩ (by simp)
  have most := shares.takes greatest (by decide)
  have tooMuch := shares.refuses beyond (by decide)
  have lowest := status.takes least (by decide)
  have tooHigh := status.refuses above (by decide)
  have lowestNested := nested.takes least (by decide)
  have tooHighNested := nested.refuses above (by decide)
  exact ⟨most, tooMuch, lowest, tooHigh, lowestNested, tooHighNested⟩

end ContainerInit
