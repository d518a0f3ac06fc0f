import ContainerInit.Proofs.Time.Stamp
import ContainerInit.Proofs.Wire.Places

/-!
# The time of an exit keeps its meaning

- **Strings in values** (`MomentPlace`): the texts around the moment that a value holds at the end
  of a path, in any form of the value. The string between them decides alone whether the value is
  read (`Opening.decode_iff`).
- **Meaning** (`KeepsMeaning`, `exitTimes_keep_meaning`): the moment of an exit is accepted exactly
  if the string shows a real stamp; what is written for it has the same offset and names the instant
  that is kept of the stamp, and it is accepted and written again unchanged.
-/

namespace ContainerInit

open Json

/-! ## Strings in values -/

section Places

variable {α : Type} {read : Reader α} {path : List (String × Nat)} {held : α → Option Moment}
  {before after : List Char}

/-- The text with a string in the place, given by what stands between its quotes. -/
def quotedIn (before cs after : List Char) : String :=
  String.ofList (before ++ ('"' :: cs ++ ['"']) ++ after)

/-- The texts around the moment that a value holds at the end of a path, in any form of the
value. -/
abbrev MomentPlace (form : α → Tree → Prop) (path : List (String × Nat))
    (held : α → Option Moment) : List Char → List Char → Prop :=
  Place form path fun a => (held a).map Moment.toTree

theorem Moment.read_text {s : String} {m : Moment} :
    Moment.read (.text s) = .ok m ↔ Moment.parse? s = some m := by
  cases parsed : Moment.parse? s <;> simp [Moment.read, Tree.text, parsed]

/-- The string in the place decides whether the value is read, and it is the moment there. -/
theorem Opening.decode_iff (focus : Focus read path Moment.read held)
    (opening : Opening read path held before after) {s : String} {cs : List Char}
    (spells : Spells s.toList cs) :
    (∀ a, decode read (quotedIn before cs after) = .ok a →
      ∃ m, Moment.parse? s = some m ∧ held a = some m) ∧
    ∀ m, Moment.parse? s = some m → ∃ a, decode read (quotedIn before cs after) = .ok a := by
  obtain ⟨g, u₀, a₀, leads, whole, present, read₀, shown, first, last⟩ := opening
  have filled : decode read (quotedIn before cs after) = read (g.fill (.text s)) := by
    have laid : Laid (Tree.text s).tokens ('"' :: cs ++ ['"'] ++ []) :=
      .token (.string spells) .done
    rw [List.append_nil] at laid
    exact whole.decode_fill first last (.string s) laid read
  rw [filled]
  obtain ⟨seen, taken⟩ := focus g leads u₀ a₀ present read₀ shown (.text s)
    (fun null => by cases null)
  constructor
  · intro a read
    obtain ⟨m, value, held⟩ := seen a read
    exact ⟨m, Moment.read_text.1 value, held⟩
  · exact fun m parsed => taken m (Moment.read_text.2 parsed)

end Places

/-! ## Meaning -/

/-- The moments between two texts keep their meaning. -/
structure KeepsMeaning {α : Type} (read : Reader α) (held : α → Option Moment)
    (before after : List Char) : Prop where
  /-- A string is accepted exactly if it shows a real stamp. -/
  accepted : ∀ s cs, Spells (String.toList s) cs →
    ((∃ a, decode read (quotedIn before cs after) = .ok a) ↔
      ∃ stamp : Stamp, stamp.Shape s.toList ∧ stamp.IsReal)
  /-- What is written for an accepted string shows its offset and the instant that is kept of it,
  and is accepted as the same moment. -/
  kept : ∀ s cs a, Spells (String.toList s) cs → decode read (quotedIn before cs after) = .ok a →
    ∃ m, held a = some m ∧
      (∀ stamp back : Stamp, stamp.Shape s.toList → back.Shape m.text.toList →
        back.offset = stamp.offset ∧ back.instant = stamp.kept.instant) ∧
      ∀ ds, Spells m.text.toList ds →
        ∃ b, decode read (quotedIn before ds after) = .ok b ∧ held b = some m

theorem KeepsMeaning.of_focus {α : Type} {read : Reader α} {path : List (String × Nat)}
    {held : α → Option Moment} {before after : List Char} (focus : Focus read path Moment.read held)
    (opening : Opening read path held before after) : KeepsMeaning read held before after where
  accepted s cs spells := by
    obtain ⟨seen, taken⟩ := opening.decode_iff focus spells
    rw [← Moment.parse?_isSome_iff, Option.isSome_iff_exists]
    constructor
    · rintro ⟨a, read⟩
      obtain ⟨m, parsed, -⟩ := seen a read
      exact ⟨m, parsed⟩
    · rintro ⟨m, parsed⟩
      exact taken m parsed
  kept s cs a spells read := by
    obtain ⟨m, parsed, held⟩ := (opening.decode_iff focus spells).1 a read
    refine ⟨m, held, fun _ _ shape back => Moment.parse?_keeps parsed shape back, ?_⟩
    intro ds again
    obtain ⟨seen, taken⟩ := opening.decode_iff focus again
    obtain ⟨b, read⟩ := taken m (Moment.parse?_text m)
    obtain ⟨n, same, held⟩ := seen b read
    rw [Moment.parse?_text] at same
    cases same
    exact ⟨b, read, held⟩

/-- The moments at the end of a path keep their meaning. -/
structure KeepsMoments {α : Type} (read : Reader α) (toTree : α → Tree) (form : α → Tree → Prop)
    (path : List (String × Nat)) (held : α → Option Moment) : Prop where
  /-- What is written for a value that holds a moment has a place for it, with its text there. -/
  written : ∀ a m, held a = some m → ∃ before cs after, MomentPlace form path held before after ∧
    Spells m.text.toList cs ∧ (toTree a).render = quotedIn before cs after
  /-- In every form of every value, the moment in the place keeps its meaning. -/
  placed : ∀ before after, MomentPlace form path held before after →
    KeepsMeaning read held before after
  /-- And so it does in any other text in which the reader takes something there. -/
  elsewhere : ∀ before after, Opening read path held before after →
    KeepsMeaning read held before after

theorem KeepsMoments.of_focus {α : Type} {read : Reader α} {toTree : α → Tree}
    {form : α → Tree → Prop} {path : List (String × Nat)} {held : α → Option Moment}
    (focus : Focus read path Moment.read held) (encodes : ∀ a t, form a t → t.Encodes read a)
    (usual : ∀ a, form a (toTree a))
    (gap : ∀ a m, held a = some m → ∃ g : Gap, g.Leads path ∧ toTree a = g.fill m.toTree) :
    KeepsMoments read toTree form path held where
  written a m shown := by
    obtain ⟨before, after, place, text⟩ :
        ∃ before after, MomentPlace form path held before after ∧
          (toTree a).render = String.ofList (before ++ m.toTree.print ++ after) :=
      Place.written encodes usual (congrArg (Option.map Moment.toTree) shown) (gap a m shown)
    exact ⟨before, _, after, place, spells_print m.text.toList, text⟩
  placed before after place := by
    refine .of_focus focus (place.opening encodes fun a u puts => ?_)
    obtain ⟨m, shown, rfl⟩ := Option.map_eq_some_iff.1 puts
    exact ⟨nofun, Option.isSome_of_eq_some shown⟩
  elsewhere before after opening := .of_focus focus opening

/-- **The time of an exit keeps its meaning,** alone and in a snapshot. -/
theorem exitTimes_keep_meaning :
    (KeepsMoments ExitStatus.read ExitStatus.toTree (fun s => RecordForm 1 s.shown)
      [("exited_at", 1)] fun s => some s.exitedAt) ∧
    KeepsMoments ProcessSnapshot.read ProcessSnapshot.toTree (fun s => RecordForm 1 s.shown)
      [("exit", 2), ("exited_at", 1)] fun s => s.exit.map ExitStatus.exitedAt := by
  refine ⟨.of_focus ExitStatus.focus_exitedAt (fun s _ => s.form_encodes)
      (fun s => recordForm_record 1 s.shown) ?_,
    .of_focus (ProcessSnapshot.focus_exit ExitStatus.focus_exitedAt) (fun s _ => s.form_encodes)
      (fun s => recordForm_record 1 s.shown) ?_⟩
  · rintro s _ ⟨⟩
    exact s.exists_gap_exitedAt
  · intro s m held
    obtain ⟨e, exit, rfl⟩ := Option.map_eq_some_iff.1 held
    exact ProcessSnapshot.exists_gap_exit exit e.exists_gap_exitedAt

/-- An exit as an array. -/
theorem ExitStatus.place_exitedAt :
    MomentPlace (fun s : ExitStatus => RecordForm 1 s.shown) [("exited_at", 1)]
      (fun s => some s.exitedAt) "[0,".toList "]".toList := by
  refine ⟨.item [.int 0] .here [], ⟨0, .ofMillis 0⟩, (Moment.ofMillis 0).toTree, ⟨rfl, trivial⟩,
    rfl, ?_, ?_, ?_⟩
  · exact .array (.item rfl (.item rfl (.done (List.forall_mem_nil _))))
  · exact .token .openArray <| .token (.number (Literal.wellFormed_ofInt 0)) <|
      .token .comma .done
  · exact .token .closeArray .done

/-- An exit in a snapshot, both as objects with their members in another order. -/
theorem ProcessSnapshot.place_exitedAt :
    MomentPlace (fun s : ProcessSnapshot => RecordForm 1 s.shown) [("exit", 2), ("exited_at", 1)]
      (fun s => s.exit.map ExitStatus.exitedAt)
      "\x7b\"exit\":\x7b\"exited_at\":".toList
      ",\"code\":0\x7d,\"state\":\"stopped\",\"id\":\"a\"\x7d".toList := by
  let exit : ExitStatus := ⟨0, .ofMillis 0⟩
  let inside : Gap := .member [] (some "exited_at") .here [(some "code", .int 0)]
  have given : RecordForm 2 exit.shown (inside.fill exit.exitedAt.toTree) :=
    .object ⟨[("code", .int 0), ("exited_at", exit.exitedAt.toTree)], [], .swap ..,
      .given rfl (.given rfl .nil), List.forall_mem_nil _⟩
  refine ⟨.member [] (some "exit") inside
      [(some "state", .text "stopped"), (some "id", .text "a")],
    ⟨"a", .stopped, some exit⟩, exit.exitedAt.toTree, ⟨rfl, rfl, trivial⟩, rfl, ?_, ?_, ?_⟩
  · let own : Record := [("id", .text "a"), ("state", .text "stopped"),
      ("exit", inside.fill exit.exitedAt.toTree)]
    have reversed := List.reverse_perm (own.toMembers ++ [])
    exact .object ⟨own, [], reversed, .given rfl (.given .text (.given given .nil)),
      List.forall_mem_nil _⟩
  · exact .token .openObject <| .token (.string (spells_print "exit".toList)) <|
      .token .colon <| .token .openObject <|
      .token (.string (spells_print "exited_at".toList)) <| .token .colon .done
  · exact .token .comma <| .token (.string (spells_print "code".toList)) <| .token .colon <|
      .token (.number (Literal.wellFormed_ofInt 0)) <| .token .closeObject <| .token .comma <|
      .token (.string (spells_print "state".toList)) <| .token .colon <|
      .token (.string (spells_print "stopped".toList)) <| .token .comma <|
      .token (.string (spells_print "id".toList)) <| .token .colon <|
      .token (.string (spells_print "a".toList)) <| .token .closeObject .done

/-- The leap second at the end of 2016, where clocks are an hour ahead of universal time. -/
def Stamp.leap2016 : Stamp := ⟨2017, 1, 1, 0, 59, 60, [], 60⟩

theorem Stamp.shape_leap2016 : leap2016.Shape "2017-01-01T00:59:60+01:00".toList := by
  have offset : OffsetText 60 "+01:00".toList :=
    @OffsetText.ahead 1 0 "01".toList "00".toList ⟨rfl, by simp, rfl⟩ ⟨rfl, by simp, rfl⟩
      (by decide)
  exact @Shape.mk leap2016 "2017".toList "01".toList "01".toList "00".toList "59".toList
    "60".toList [] "+01:00".toList 'T' ⟨rfl, by simp, rfl⟩ ⟨rfl, by simp, rfl⟩ ⟨rfl, by simp, rfl⟩
    rfl ⟨rfl, by simp, rfl⟩ ⟨rfl, by simp, rfl⟩ ⟨rfl, by simp, rfl⟩ .none offset

theorem Stamp.isReal_leap2016 : leap2016.IsReal :=
  ⟨by decide, by decide, fun _ => ⟨2017, 1, by decide, by decide, by decide⟩⟩

/-- Wherever a moment keeps its meaning, that leap second is kept as the nanosecond before it. -/
theorem KeepsMeaning.leap2016 {α : Type} {read : Reader α} {held : α → Option Moment}
    {before after : List Char} (keeps : KeepsMeaning read held before after) :
    ∃ a m, decode read (quotedIn before "2017-01-01T00:59:60+01:00".toList after) = .ok a ∧
      held a = some m ∧ ∀ back : Stamp, back.Shape m.text.toList →
        back.offset = 60 ∧ back.instant = Stamp.leap2016.kept.instant := by
  have spells := spells_print "2017-01-01T00:59:60+01:00".toList
  obtain ⟨a, read⟩ := (keeps.accepted _ _ spells).2
    ⟨.leap2016, Stamp.shape_leap2016, Stamp.isReal_leap2016⟩
  obtain ⟨m, held, same, -⟩ := keeps.kept _ _ a spells read
  exact ⟨a, m, read, held, fun back shape => same _ back Stamp.shape_leap2016 shape⟩

/-- At these places, the leap second is kept as the nanosecond before it, with its offset. -/
theorem exitTimes_keep_meaning_leapSecond :
    (∃ s, decode ExitStatus.read "[0,\"2017-01-01T00:59:60+01:00\"]" = .ok s ∧
      ∀ back : Stamp, back.Shape s.exitedAt.text.toList → back.offset = 60 ∧
        back.instant = (Stamp.mk 2017 1 1 0 59 59 (List.replicate 9 '9') 60).instant) ∧
    ∃ s e, decode ProcessSnapshot.read
        ("\x7b\"exit\":\x7b\"exited_at\":\"2017-01-01T00:59:60+01:00\",\"code\":0\x7d," ++
          "\"state\":\"stopped\",\"id\":\"a\"\x7d") = .ok s ∧ s.exit = some e ∧
      ∀ back : Stamp, back.Shape e.exitedAt.text.toList → back.offset = 60 ∧
        back.instant = (Stamp.mk 2017 1 1 0 59 59 (List.replicate 9 '9') 60).instant := by
  obtain ⟨alone, within⟩ := exitTimes_keep_meaning
  obtain ⟨s, _, read, ⟨⟩, same⟩ := (alone.placed _ _ ExitStatus.place_exitedAt).leap2016
  obtain ⟨s', m, read', held, same'⟩ := (within.placed _ _ ProcessSnapshot.place_exitedAt).leap2016
  obtain ⟨e, exit, rfl⟩ := Option.map_eq_some_iff.1 held
  exact ⟨⟨s, read, same⟩, s', e, read', exit, same'⟩

end ContainerInit
