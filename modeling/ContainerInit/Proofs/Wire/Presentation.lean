import ContainerInit.Proofs.Wire.Records

/-!
# A value is read from every text that presents it

- **Presentation** (`IgnoresPresentation`): a reader does not tell the forms of a value apart, nor
  the ways to spell and space them.
- **The wire** (`decoding_ignores_presentation`): this holds of every value of every type.
-/

namespace ContainerInit

open Json

/-- Every form of a value, however it is spelled and spaced, is decoded to the value, and what is
written for the value is one of its forms. -/
def IgnoresPresentation {α : Type} (read : Reader α) (toTree : α → Tree) (shown : α → List Shown) :
    Prop :=
  ∀ a, (RecordForm 1 (shown a) (toTree a) ∧ Laid (toTree a).tokens (toTree a).print) ∧
    ∀ t cs, RecordForm 1 (shown a) t → Laid t.tokens cs → decode read (String.ofList cs) = .ok a

namespace IgnoresPresentation

variable {α : Type} {toTree : α → Tree} {shown : α → List Shown}

theorem of_encodes {read : Reader α} (written : ∀ a, RecordForm 1 (shown a) (toTree a))
    (encodes : ∀ a t, RecordForm 1 (shown a) t → t.Encodes read a) :
    IgnoresPresentation read toTree shown := by
  intro a
  refine ⟨⟨written a, (encodes a _ (written a)).whole.laid_print⟩, fun t cs form laid => ?_⟩
  have encoded := encodes a t form
  rw [decode_laid encoded.whole laid, encoded.reads]

end IgnoresPresentation

/-- **Decoding does not depend on presentation:** for every value of every type, every text that
lays out a form of the value is decoded to the value. So the members of an object may stand in any
order, the kind and the details of payloads and errors included, and among foreign ones; what holds
nothing or its default may be written out or left out; a variant may be an object; records may be
arrays; and white space and the spelling of strings do not count. -/
theorem decoding_ignores_presentation :
    IgnoresPresentation ExecOptions.read ExecOptions.toTree ExecOptions.shown ∧
    IgnoresPresentation ExecHandle.read ExecHandle.toTree ExecHandle.shown ∧
    IgnoresPresentation ResourceSpec.read ResourceSpec.toTree ResourceSpec.shown ∧
    IgnoresPresentation CheckpointConfig.read CheckpointConfig.toTree CheckpointConfig.shown ∧
    IgnoresPresentation ExitStatus.read ExitStatus.toTree ExitStatus.shown ∧
    IgnoresPresentation ProcessSnapshot.read ProcessSnapshot.toTree ProcessSnapshot.shown ∧
    IgnoresPresentation Event.read Event.toTree Event.shown ∧
    IgnoresPresentation Payload.read Payload.toTree Payload.shown ∧
    IgnoresPresentation ControllerError.read ControllerError.toTree ControllerError.shown :=
  ⟨.of_encodes (fun o => recordForm_record 1 o.shown) fun o _ => o.form_encodes,
    .of_encodes (fun h => recordForm_record 1 h.shown) fun h _ => h.form_encodes,
    .of_encodes (fun s => recordForm_record 1 s.shown) fun s _ => s.form_encodes,
    .of_encodes (fun c => recordForm_record 1 c.shown) fun c _ => c.form_encodes,
    .of_encodes (fun s => recordForm_record 1 s.shown) fun s _ => s.form_encodes,
    .of_encodes (fun s => recordForm_record 1 s.shown) fun s _ => s.form_encodes,
    .of_encodes (fun e => recordForm_record 1 e.shown) fun e _ => e.form_encodes,
    .of_encodes (Payload.form_toTree 1) fun p _ => p.form_encodes (by decide),
    .of_encodes (fun e => recordForm_record 1 e.shown) fun e _ => e.form_encodes⟩

/-- The report that a running process ended with code 3. -/
def exitReport : Event := ⟨7, .warn, "web", .exitRecorded 3 .running⟩

/-- The payload of the report in reverse order, after a foreign member, its state as an object. -/
def lateKind : Tree :=
  .object (Record.toMembers [("kind", .text "exit_recorded"), ("status", .int 3),
    ("previous", .object [(some "running", .null)] true)] ++
      [(some "note", Tree.list [.nat 1, .object [] true])]).reverse true

/-- The report in reverse order, with its severity as an object. -/
def lateReport : Tree :=
  .object (Record.toMembers [("timestamp_ns", .nat 7),
    ("severity", .object [(some "Warn", .null)] true), ("id", .text "web"),
    ("payload", lateKind)] ++ []).reverse true

theorem lateKind_form : RecordForm 2 exitReport.payload.shown lateKind := by
  have note : Foreign 2 (exitReport.payload.shown.map (·.name))
      (some "note", Tree.list [.nat 1, .object [] true]) := by
    refine ⟨⟨"note", rfl, by decide⟩, .array (by decide) ?_⟩
    have one : (Tree.nat 1).Plain 4 := .integer (Literal.wellFormed_ofInt 1) ⟨rfl, rfl⟩ (by decide)
    have empty : (Tree.object [] true).Plain 4 := .object (by decide) nofun nofun
    simpa using ⟨one, empty⟩
  have inOrder : ObjectForm 2 exitReport.payload.shown (Record.toMembers
      [("kind", .text "exit_recorded"), ("status", .int 3),
        ("previous", .object [(some "running", .null)] true)] ++ []) :=
    ⟨_, [], .refl _, .given rfl (.given rfl (.given .object .nil)), nofun⟩
  exact .object ((inOrder.insert note).perm (List.reverse_perm _))

theorem lateReport_form : RecordForm 1 exitReport.shown lateReport := by
  refine .object ⟨_, _, List.reverse_perm _, ?_, nofun⟩
  exact .given rfl (.given .object (.given rfl (.given lateKind_form .nil)))

/-- The text of the report in this form, with white space around it. -/
def lateText : String :=
  " \x7b\"payload\":\x7b\"note\":[1,\x7b\x7d],\"previous\":\x7b\"running\":null\x7d," ++
    "\"status\":3,\"kind\":\"exit_recorded\"\x7d,\"id\":\"web\"," ++
    "\"severity\":\x7b\"Warn\":null\x7d,\"timestamp_ns\":7\x7d\n"

theorem decoding_ignores_presentation_lateKind : decode Event.read lateText = .ok exitReport := by
  have whole : lateReport.Whole := (exitReport.form_encodes lateReport_form).whole
  have laid : Laid lateReport.tokens (' ' :: (lateReport.print ++ ['\n'])) := by
    simpa using Laid.space (c := ' ') rfl (whole.printLaid (.space (c := '\n') rfl .done))
  have text : String.ofList (' ' :: (lateReport.print ++ ['\n'])) = lateText := by
    decide +kernel
  rw [← text]
  exact (decoding_ignores_presentation.2.2.2.2.2.2.1 exitReport).2 _ _ lateReport_form laid

end ContainerInit
