import ContainerInit.Proofs.Wire.Records

/-!
# What is written of a value is read as that value

- **Variants** (`State.encodes` and so on): the name of a variant is read as the variant.
- **Records** (`ExecOptions.encodes` and so on): what is written for a record is one of its forms,
  and every form is read as the record.
- **The wire** (`RoundTrips`, `wire_round_trips`): every value of every type is written on one line,
  from which it is read again.
-/

namespace ContainerInit

open Json

/-! ## Variants -/

theorem State.encodes (s : State) : s.toTree.Encodes State.read s :=
  (encodes_variant (State.ofName?_name s)).1

theorem Operation.encodes (o : Operation) : o.toTree.Encodes Operation.read o :=
  (encodes_variant (Operation.ofName?_name o)).1

theorem Signal.encodes (s : Signal) : s.toTree.Encodes Signal.read s :=
  (encodes_variant (Signal.ofName?_name s)).1

theorem Severity.encodes (s : Severity) : s.toTree.Encodes Severity.read s :=
  (encodes_variant (Severity.ofName?_name s)).1

theorem InvalidSignal.encodes (e : InvalidSignal) : e.toTree.Encodes InvalidSignal.read e := by
  have number := encodes_uint32 e.number
  refine ⟨.object (by simp) (by simpa using number.whole), ?_⟩
  show (do
    let n ← Reader.uint32 (.nat e.number.toNat)
    demand true
    return (⟨n⟩ : InvalidSignal)) = _
  rw [number.reads]
  rfl

/-! ## Records -/

theorem ExecOptions.encodes (o : ExecOptions) : o.toTree.Encodes ExecOptions.read o :=
  o.form_encodes (recordForm_record 1 o.shown)

theorem ExecHandle.encodes (h : ExecHandle) : h.toTree.Encodes ExecHandle.read h :=
  h.form_encodes (recordForm_record 1 h.shown)

theorem ResourceSpec.encodes (s : ResourceSpec) : s.toTree.Encodes ResourceSpec.read s :=
  s.form_encodes (recordForm_record 1 s.shown)

theorem CheckpointConfig.encodes (c : CheckpointConfig) :
    c.toTree.Encodes CheckpointConfig.read c :=
  c.form_encodes (recordForm_record 1 c.shown)

theorem ExitStatus.encodes (s : ExitStatus) : s.toTree.Encodes ExitStatus.read s :=
  s.form_encodes (recordForm_record 1 s.shown)

theorem ProcessSnapshot.encodes (s : ProcessSnapshot) : s.toTree.Encodes ProcessSnapshot.read s :=
  s.form_encodes (recordForm_record 1 s.shown)

theorem Payload.encodes (p : Payload) : p.toTree.Encodes Payload.read p :=
  p.form_encodes (by decide) (p.form_toTree 1)

theorem Event.encodes (e : Event) : e.toTree.Encodes Event.read e :=
  e.form_encodes (recordForm_record 1 e.shown)

theorem ControllerError.encodes (e : ControllerError) : e.toTree.Encodes ControllerError.read e :=
  e.form_encodes (recordForm_record 1 e.shown)

/-! ## The wire -/

/-- Every value is written without control characters, and is read again from what was written. -/
def RoundTrips {α : Type} (read : Reader α) (toTree : α → Tree) : Prop :=
  ∀ a, decode read (toTree a).render = .ok a ∧ ∀ c ∈ (toTree a).render.toList, 0x20 ≤ c.toNat

theorem RoundTrips.of_encodes {α : Type} {read : Reader α} {toTree : α → Tree}
    (h : ∀ a, (toTree a).Encodes read a) : RoundTrips read toTree := by
  intro a
  refine ⟨(h a).decode_render, ?_⟩
  rw [Tree.render, String.toList_ofList]
  exact (h a).whole.visible

/-- **What is written of a value is read as that value:** for every value of every type, the text
that is written for it has no control character, so it is one line, and it is decoded to the value
again. -/
theorem wire_round_trips :
    RoundTrips State.read State.toTree ∧
    RoundTrips Operation.read Operation.toTree ∧
    RoundTrips Signal.read Signal.toTree ∧
    RoundTrips InvalidSignal.read InvalidSignal.toTree ∧
    RoundTrips Severity.read Severity.toTree ∧
    RoundTrips Payload.read Payload.toTree ∧
    RoundTrips Event.read Event.toTree ∧
    RoundTrips ExecOptions.read ExecOptions.toTree ∧
    RoundTrips ExecHandle.read ExecHandle.toTree ∧
    RoundTrips ResourceSpec.read ResourceSpec.toTree ∧
    RoundTrips CheckpointConfig.read CheckpointConfig.toTree ∧
    RoundTrips ExitStatus.read ExitStatus.toTree ∧
    RoundTrips ProcessSnapshot.read ProcessSnapshot.toTree ∧
    RoundTrips ControllerError.read ControllerError.toTree :=
  ⟨.of_encodes State.encodes, .of_encodes Operation.encodes, .of_encodes Signal.encodes,
    .of_encodes InvalidSignal.encodes, .of_encodes Severity.encodes,
    .of_encodes Payload.encodes, .of_encodes Event.encodes, .of_encodes ExecOptions.encodes,
    .of_encodes ExecHandle.encodes, .of_encodes ResourceSpec.encodes,
    .of_encodes CheckpointConfig.encodes, .of_encodes ExitStatus.encodes,
    .of_encodes ProcessSnapshot.encodes, .of_encodes ControllerError.encodes⟩

end ContainerInit
