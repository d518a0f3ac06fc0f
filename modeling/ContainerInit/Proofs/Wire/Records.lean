import ContainerInit.Proofs.Json.Forms
import ContainerInit.Proofs.Time.Rfc3339
import ContainerInit.Wire.Error
import ContainerInit.Wire.Event

/-!
# The trees that stand for a value

- **Records** (`ExecOptions.shown` and so on): the fields of each record with what is written for
  them and what may be given instead. Every form of a record is read as the record (`form_encodes`).
- **Payloads** (`Payload.readAt_object`): the kind may stand anywhere in an object and stands first
  in an array. The fields are kept until it is known, so they have to be readable as a whole.
- **Errors** (`ControllerError.read_object`): the kind decides how the details are read, which may
  stand after it, or before it and are kept then.
-/

namespace ContainerInit

open Json

/-! ## Commands and sessions -/

namespace ExecOptions

/-- What is written for additions to the environment. -/
def writtenEnv (env : List (String × String)) : Option Tree :=
  if env.isEmpty then none else some (.list (env.map fun p => .list [.text p.1, .text p.2]))

theorem writes_env (env : List (String × String)) : envField.Writes env (writtenEnv env) := by
  cases env with
  | nil => rfl
  | cons p ps => exact encodes_list (fun q => encodes_pair (encodes_text q.1) (encodes_text q.2)) _

/-- The tree of additions to the environment, also if there are none. -/
def envTree (env : List (String × String)) : Tree :=
  .list (env.map fun p => .list [.text p.1, .text p.2])

theorem env_encodes (env : List (String × String)) : (envTree env).Encodes envField.read env :=
  encodes_list (fun p => encodes_pair (encodes_text p.1) (encodes_text p.2)) env

/-- The additions to the environment, which may be an empty list. -/
def shownEnv (env : List (String × String)) : Shown where
  toEntry := ⟨envField, env, writtenEnv env, writes_env env⟩
  forms := (· = envTree env)
  encoded := by rintro _ rfl; exact env_encodes env
  usual := by
    cases env with
    | nil => exact nofun
    | cons p ps => rintro _ ⟨⟩; rfl

/-- The fields of a command with what may be given for them. -/
def shown (o : ExecOptions) : List Shown :=
  [.present argsField (encodes_list encodes_text o.args), shownEnv o.env,
   .optional cwdField ⟨rfl, rfl⟩ o.cwd fun s => ⟨encodes_text s, nofun⟩,
   .present terminalField (encodes_bool o.terminal)]

theorem ofRecord_shown {o : ExecOptions} {r : Record}
    (gets : ∀ s ∈ o.shown, r.get s.field = .ok s.value) : ofRecord r = .ok o := by
  simp only [shown, shownEnv, Shown.present, Shown.among, Shown.optional, Shown.optionalAmong,
    Entry.present, Entry.optional, List.forall_mem_cons] at gets
  obtain ⟨args, env, cwd, terminal, -⟩ := gets
  simp only [ofRecord, args, env, cwd, terminal]
  rfl

theorem form_encodes {depth : Nat} {t : Tree} (o : ExecOptions)
    (form : RecordForm depth o.shown t) : t.Encodes read o :=
  form.encodes layout rfl (by decide) fun _ => ofRecord_shown

end ExecOptions

namespace ExecHandle

/-- The fields of a started session with what may be given for them. -/
def shown (h : ExecHandle) : List Shown :=
  [.present execIdField (encodes_text h.execId),
   .optional pidField ⟨rfl, rfl⟩ h.pid fun n => ⟨encodes_uint32 n, nofun⟩]

theorem ofRecord_shown {h : ExecHandle} {r : Record}
    (gets : ∀ s ∈ h.shown, r.get s.field = .ok s.value) : ofRecord r = .ok h := by
  simp only [shown, Shown.present, Shown.among, Shown.optional, Shown.optionalAmong,
    Entry.present, Entry.optional, List.forall_mem_cons] at gets
  obtain ⟨execId, pid, -⟩ := gets
  simp only [ofRecord, execId, pid]
  rfl

theorem form_encodes {depth : Nat} {t : Tree} (h : ExecHandle)
    (form : RecordForm depth h.shown t) : t.Encodes read h :=
  form.encodes layout rfl (by decide) fun _ => ofRecord_shown

end ExecHandle

/-! ## Limits and checkpoints -/

namespace ResourceSpec

/-- The limits with what may be given for them. -/
def shown (s : ResourceSpec) : List Shown :=
  [.optional cpuSharesField ⟨rfl, rfl⟩ s.cpuShares fun n => ⟨encodes_uint64 n, nofun⟩,
   .optional cpuQuotaField ⟨rfl, rfl⟩ s.cpuQuota fun n => ⟨encodes_int64 n, nofun⟩,
   .optional cpuPeriodField ⟨rfl, rfl⟩ s.cpuPeriod fun n => ⟨encodes_uint64 n, nofun⟩,
   .optional memoryLimitField ⟨rfl, rfl⟩ s.memoryLimit fun n => ⟨encodes_int64 n, nofun⟩,
   .optional pidsLimitField ⟨rfl, rfl⟩ s.pidsLimit fun n => ⟨encodes_int64 n, nofun⟩]

theorem ofRecord_shown {s : ResourceSpec} {r : Record}
    (gets : ∀ f ∈ s.shown, r.get f.field = .ok f.value) : ofRecord r = .ok s := by
  simp only [shown, Shown.optional, Shown.optionalAmong, Entry.optional,
    List.forall_mem_cons] at gets
  obtain ⟨cpuShares, cpuQuota, cpuPeriod, memoryLimit, pidsLimit, -⟩ := gets
  simp only [ofRecord, cpuShares, cpuQuota, cpuPeriod, memoryLimit, pidsLimit]
  rfl

theorem form_encodes {depth : Nat} {t : Tree} (s : ResourceSpec)
    (form : RecordForm depth s.shown t) : t.Encodes read s :=
  form.encodes layout rfl (by decide) fun _ => ofRecord_shown

end ResourceSpec

namespace CheckpointConfig

/-- The settings of a checkpoint with what may be given for them. -/
def shown (c : CheckpointConfig) : List Shown :=
  [.present workDirField (encodes_text c.workDir),
   .present imagePathField (encodes_text c.imagePath),
   .present exitAfterCheckpointField (encodes_bool c.exitAfterCheckpoint),
   .present allowOpenTcpField (encodes_bool c.allowOpenTcp),
   .present allowExternalUnixSocketsField (encodes_bool c.allowExternalUnixSockets),
   .present allowTerminalDevicesField (encodes_bool c.allowTerminalDevices),
   .present fileLocksField (encodes_bool c.fileLocks),
   .present emptyNamespacesField (encodes_list encodes_text c.emptyNamespaces)]

theorem ofRecord_shown {c : CheckpointConfig} {r : Record}
    (gets : ∀ s ∈ c.shown, r.get s.field = .ok s.value) : ofRecord r = .ok c := by
  simp only [shown, Shown.present, Shown.among, Entry.present, List.forall_mem_cons] at gets
  obtain ⟨workDir, imagePath, exits, tcp, sockets, terminals, locks, namespaces, -⟩ := gets
  simp only [ofRecord, workDir, imagePath, exits, tcp, sockets, terminals, locks, namespaces]
  rfl

theorem form_encodes {depth : Nat} {t : Tree} (c : CheckpointConfig)
    (form : RecordForm depth c.shown t) : t.Encodes read c :=
  form.encodes layout rfl (by decide) fun _ => ofRecord_shown

end CheckpointConfig

/-! ## Exits and snapshots -/

theorem Moment.encodes (m : Moment) : m.toTree.Encodes Moment.read m := by
  refine ⟨.string _, ?_⟩
  rw [Moment.toTree, Tree.text, Moment.read, Moment.parse?_text]

namespace ExitStatus

/-- The fields of an exit with what may be given for them. -/
def shown (s : ExitStatus) : List Shown :=
  [.present codeField (encodes_int32 s.code), .present exitedAtField s.exitedAt.encodes]

theorem ofRecord_shown {s : ExitStatus} {r : Record}
    (gets : ∀ f ∈ s.shown, r.get f.field = .ok f.value) : ofRecord r = .ok s := by
  simp only [shown, Shown.present, Shown.among, Entry.present, List.forall_mem_cons] at gets
  obtain ⟨code, exitedAt, -⟩ := gets
  simp only [ofRecord, code, exitedAt]
  rfl

theorem form_encodes {depth : Nat} {t : Tree} (s : ExitStatus)
    (form : RecordForm depth s.shown t) : t.Encodes read s :=
  form.encodes layout rfl (by decide) fun _ => ofRecord_shown

end ExitStatus

namespace ProcessSnapshot

/-- The fields of a snapshot with what may be given for them. -/
def shown (s : ProcessSnapshot) : List Shown :=
  [.present idField (encodes_text s.id),
   .variant stateField fun _ form => (form.encodes (State.ofName?_name s.state)).1,
   .optionalAmong exitField ⟨rfl, rfl⟩ s.exit (fun e => RecordForm 2 e.shown)
     (fun e => recordForm_record 2 e.shown)
     fun e _ form => ⟨e.form_encodes form, form.ne_null⟩]

theorem ofRecord_shown {s : ProcessSnapshot} {r : Record}
    (gets : ∀ f ∈ s.shown, r.get f.field = .ok f.value) : ofRecord r = .ok s := by
  simp only [shown, Shown.present, Shown.variant, Shown.among, Shown.optionalAmong,
    Entry.present, Entry.optional, List.forall_mem_cons] at gets
  obtain ⟨id, state, exit, -⟩ := gets
  simp only [ofRecord, id, state, exit]
  rfl

theorem form_encodes {depth : Nat} {t : Tree} (s : ProcessSnapshot)
    (form : RecordForm depth s.shown t) : t.Encodes read s :=
  form.encodes layout rfl (by decide) fun _ => ofRecord_shown

end ProcessSnapshot

/-! ## Payloads and events -/

namespace Payload

/-- The kind of a payload, as a field of it. -/
def kindField : RecordField PayloadKind := ⟨"kind", readKind, none⟩

theorem kind_encodes (k : PayloadKind) : (Tree.text k.name).Encodes kindField.read k := by
  refine ⟨.string _, ?_⟩
  show Reader.variantNamed _ _ = _
  rw [Reader.variantNamed, PayloadKind.ofName?_name]

/-- The fields of a payload with what may be given for them. -/
def shownFields : Payload → List Shown
  | .stateChanged operation source target =>
    [.variant operationField fun _ form => (form.encodes (Operation.ofName?_name operation)).2,
     .variant sourceField fun _ form => (form.encodes (State.ofName?_name source)).2,
     .variant resultField fun _ form => (form.encodes (State.ofName?_name target)).2]
  | .exitRecorded status previous =>
    [.present statusField (encodes_int32 status),
     .variant previousField fun _ form => (form.encodes (State.ofName?_name previous)).2]
  | .operationRejected operation state =>
    [.variant operationField fun _ form => (form.encodes (Operation.ofName?_name operation)).2,
     .variant stateField fun _ form => (form.encodes (State.ofName?_name state)).2]
  | .controllerFailed operation error =>
    [.variant operationField fun _ form => (form.encodes (Operation.ofName?_name operation)).2,
     .present errorField (encodes_text error)]
  | .compensatingResumeFailed error => [.present errorField (encodes_text error)]
  | .transitionSuperseded operation target current =>
    [.variant operationField fun _ form => (form.encodes (Operation.ofName?_name operation)).2,
     .variant targetField fun _ form => (form.encodes (State.ofName?_name target)).2,
     .variant currentField fun _ form => (form.encodes (State.ofName?_name current)).2]

/-- The kind and the fields of a payload with what may be given for them. -/
def shown (p : Payload) : List Shown :=
  .present kindField (kind_encodes p.kind) :: p.shownFields

theorem shapes (p : Payload) : p.shownFields.map (·.shape) = layout p.kind := by
  cases p <;> rfl

theorem names (p : Payload) : (p.shown.map (·.name)).Nodup := by
  have distinct (k : PayloadKind) : ("kind" :: (layout k).map FieldShape.name).Nodup := by
    cases k <;> decide
  have fields := distinct p.kind
  rwa [← p.shapes, List.map_map] at fields

theorem form_toTree (depth : Nat) (p : Payload) : RecordForm depth p.shown p.toTree := by
  have form := recordForm_record depth p.shown
  cases p <;> exact form

theorem ofRecord_shown {p : Payload} {r : Record}
    (gets : ∀ s ∈ p.shownFields, r.get s.field = .ok s.value) : ofRecord p.kind r = .ok p := by
  cases p <;>
  · simp only [shownFields, Shown.present, Shown.variant, Shown.among, Entry.present,
      List.forall_mem_cons] at gets
    simp only [kind, ofRecord, gets]
    rfl

/-- A member that is kept: it is not the kind and can be read. -/
structure Keeps (depth : Nat) (m : Member) : Prop where
  other : ∃ name, m.1 = some name ∧ name ≠ "kind"
  readable : m.2.isReadable depth = true

theorem split_append {depth : Nat} {kind : Option PayloadKind} {a b kept : List Member}
    (keeps : ∀ m ∈ a, Keeps depth m) :
    split depth (a ++ b) kind kept = split depth b kind (a.reverse ++ kept) := by
  induction a generalizing kept with
  | nil => rfl
  | cons m a ih =>
    obtain ⟨_, t⟩ := m
    obtain ⟨⟨name, rfl, other⟩, readable⟩ := keeps _ List.mem_cons_self
    rw [List.cons_append, split.eq_def]
    simp only [if_neg other, readable]
    show split depth (a ++ b) kind ((some name, t) :: kept) = _
    rw [ih fun n hn => keeps n (List.mem_cons_of_mem _ hn), List.reverse_cons, List.append_assoc]
    rfl

/-- The kind may stand anywhere. -/
theorem split_kind {depth : Nat} {kind : PayloadKind} {t : Tree} {a b : List Member}
    (found : readKind t = .ok kind) (keeps : ∀ m ∈ a ++ b, Keeps depth m) :
    split depth (a ++ (some "kind", t) :: b) none [] = .ok (some kind, a ++ b) := by
  have before : ∀ m ∈ a, Keeps depth m := fun m hm => keeps m (List.mem_append_left _ hm)
  have after : ∀ m ∈ b, Keeps depth m := fun m hm => keeps m (List.mem_append_right _ hm)
  have rest (kept : List Member) : split depth b (some kind) kept =
      .ok (some kind, (b.reverse ++ kept).reverse) := by
    simpa [split] using split_append (b := []) after
  rw [split_append before, split, if_pos rfl, found]
  show split depth b (some kind) _ = _
  rw [rest]
  simp

section Forms

variable {p : Payload} {depth : Nat} {t : Tree} {members : List Member} {items : List Tree}

/-- Whatever is given for the fields of a payload can be kept. -/
theorem shown_kept (shallow : depth ≤ Tree.maxDepth) (p : Payload) :
    ∀ s ∈ p.shown, s.Kept depth := by
  have text (s : String) : (Tree.text s).isReadable depth = true := rfl
  have int (i : Int32) : (Tree.int i.toInt).isReadable depth = true := by
    have above := i.le_toInt
    have below := i.toInt_lt
    exact isReadable_int (by unfold UInt64.size; omega) depth
  have variant {α : Type} {field : RecordField α} {name : String} {a : α}
      (encoded : ∀ t, VariantForm name t → t.Encodes field.read a) :
      (Shown.variant field encoded).Kept depth := Shown.variant_kept shallow encoded
  rw [shown, List.forall_mem_cons]
  refine ⟨Shown.present_kept (text _) _, ?_⟩
  cases p with
  | stateChanged => simpa [shownFields] using ⟨variant _, variant _, variant _⟩
  | exitRecorded status =>
    simpa [shownFields] using ⟨Shown.present_kept (int status) _, variant _⟩
  | operationRejected => simpa [shownFields] using ⟨variant _, variant _⟩
  | controllerFailed _ error =>
    simpa [shownFields] using ⟨variant _, Shown.present_kept (text error) _⟩
  | compensatingResumeFailed error =>
    simpa [shownFields] using Shown.present_kept (text error) _
  | transitionSuperseded => simpa [shownFields] using ⟨variant _, variant _, variant _⟩

/-- **A payload is read from its members in any order,** among foreign ones that can be kept. -/
theorem readAt_object (shallow : depth + 1 ≤ Tree.maxDepth)
    (form : ObjectForm depth p.shown members) : readAt depth (.object members true) = .ok p := by
  have readable := form.kept (p.shown_kept shallow)
  obtain ⟨own, others, perm, shows, foreign⟩ := form
  obtain ⟨fresh, names⟩ := List.nodup_cons.1 p.names
  obtain ⟨t, own, rfl, kind, shows⟩ := shows.of_required rfl
  have kind : readKind t = .ok p.kind := (Shown.encoded _ t kind).reads
  have mem : (some "kind", t) ∈ members :=
    perm.mem_iff.2 (List.mem_append_left _ List.mem_cons_self)
  obtain ⟨a, b, rfl⟩ := List.append_of_mem mem
  have rest : (a ++ b).Perm (own.toMembers ++ others) := (List.perm_middle.symm.trans perm).cons_inv
  have keeps : ∀ m ∈ a ++ b, Keeps (depth + 1) m := by
    refine fun m hm => ⟨?_, (readable m ?_).2⟩
    · rcases List.mem_append.1 (rest.mem_iff.1 hm) with mem | mem
      · obtain ⟨n, hn, rfl⟩ := List.mem_map.1 mem
        have known : n.1 ∈ p.shownFields.map (·.name) :=
          shows.names.subset (List.mem_map_of_mem hn)
        refine ⟨n.1, rfl, fun same => fresh ?_⟩
        rwa [same] at known
      · obtain ⟨name, named, other⟩ := (foreign m mem).named
        exact ⟨name, named, fun same => other (same ▸ List.mem_cons_self)⟩
    · exact List.perm_middle.mem_iff.2 (List.mem_cons_of_mem _ hm)
  have fields : ObjectForm depth p.shownFields (a ++ b) := by
    refine ⟨own, others, rest, shows, fun m hm => ⟨?_, (foreign m hm).plain⟩⟩
    obtain ⟨name, named, other⟩ := (foreign m hm).named
    exact ⟨name, named, fun mem => other (List.mem_cons_of_mem _ mem)⟩
  obtain ⟨r, read, gets⟩ := fields.readObject names
  rw [p.shapes] at read
  rw [readAt, split_kind kind keeps]
  show ((layout p.kind).readObject (a ++ b) true >>= ofRecord p.kind) = _
  rw [read]
  exact ofRecord_shown gets

/-- **A payload is read from its items in order,** the kind first. -/
theorem readAt_array (shallow : depth + 1 ≤ Tree.maxDepth) (form : ArrayForm p.shown items) :
    readAt depth (.array items true) = .ok p := by
  have kept := p.shown_kept shallow
  cases form with
  | done unset => cases unset _ List.mem_cons_self
  | @item _ t _ items kind more =>
    have kind : readKind t = .ok p.kind := (Shown.encoded _ t kind).reads
    have readable : Tree.areReadable (depth + 1) items = true :=
      more.kept fun s hs => kept s (List.mem_cons_of_mem _ hs)
    obtain ⟨r, read, gets⟩ := more.readArray (List.nodup_cons.1 p.names).2
    rw [p.shapes] at read
    rw [readAt, kind, readable]
    show ((layout p.kind).readArray items true >>= ofRecord p.kind) = _
    rw [read]
    exact ofRecord_shown gets

theorem form_encodes (shallow : depth + 1 ≤ Tree.maxDepth) (p : Payload)
    (form : RecordForm depth p.shown t) : t.Encodes (readAt depth) p := by
  cases form with
  | object form => exact ⟨form.whole, readAt_object shallow form⟩
  | array form => exact ⟨form.whole, readAt_array shallow form⟩

end Forms

end Payload

namespace Event

/-- The fields of an event with what may be given for them. -/
def shown (e : Event) : List Shown :=
  [.present timestampField (encodes_uint64 e.timestamp),
   .variant severityField fun _ form => (form.encodes (Severity.ofName?_name e.severity)).1,
   .present idField (encodes_text e.id),
   .among payloadField (RecordForm 2 e.payload.shown) (e.payload.form_toTree 2)
     fun _ form => e.payload.form_encodes (by decide) form]

theorem ofRecord_shown {event : Event} {r : Record}
    (gets : ∀ s ∈ event.shown, r.get s.field = .ok s.value) : ofRecord r = .ok event := by
  simp only [shown, Shown.present, Shown.variant, Shown.among, Entry.present,
    List.forall_mem_cons] at gets
  obtain ⟨timestamp, severity, id, payload, -⟩ := gets
  simp only [ofRecord, timestamp, severity, id, payload]
  rfl

theorem form_encodes {depth : Nat} {t : Tree} (event : Event)
    (form : RecordForm depth event.shown t) : t.Encodes read event :=
  form.encodes layout rfl (by decide) fun _ => ofRecord_shown

end Event

/-! ## Errors -/

namespace ControllerError

/-- The fields of a failed signal with what may be given for them. -/
def signalShown (id signal reason : String) : List Shown :=
  [.present idField (encodes_text id), .present signalField (encodes_text signal),
   .present reasonField (encodes_text reason)]

/-- The trees in which the details of an error can be given: a text, or for a failed signal an
object. -/
def DetailsForm : ControllerError → Tree → Prop
  | .signalFailed id signal reason, t =>
    ∃ members, t = .object members true ∧ ObjectForm 2 (signalShown id signal reason) members
  | e, t => t = e.detailsTree

section Forms

variable {e : ControllerError} {t : Tree} {members : List Member} {items : List Tree}

/-- The details of a failed signal are read from their members in any order. -/
theorem readDetails_object {id signal reason : String}
    (form : ObjectForm 2 (signalShown id signal reason) members) :
    readDetails .signalFailed (.object members true) = .ok (.signalFailed id signal reason) := by
  have names : ((signalShown id signal reason).map (·.name)).Nodup :=
    show ["id", "signal", "reason"].Nodup by decide
  obtain ⟨r, read, gets⟩ := form.readObject names
  simp only [signalShown, Shown.present, Shown.among, Entry.present, List.forall_mem_cons] at gets
  obtain ⟨id, signal, reason, -⟩ := gets
  have read : signalLayout.readObject members true = .ok r := read
  rw [readDetails, readSignalFailed, read]
  simp only [bind, Except.bind, id, signal, reason]
  rfl

theorem detailsForm_detailsTree (e : ControllerError) : e.DetailsForm e.detailsTree := by
  cases e with
  | signalFailed id signal reason => exact ⟨_, rfl, objectForm_members 2 _⟩
  | _ => exact rfl

theorem detailsForm_encodes (e : ControllerError) (form : e.DetailsForm t) :
    t.Encodes (readDetails e.kind) e := by
  cases e with
  | signalFailed id signal reason =>
    obtain ⟨members, rfl, form⟩ := form
    exact ⟨form.whole, readDetails_object form⟩
  | _ =>
    rw [show t = _ from form]
    exact ⟨.string _, rfl⟩

/-- Details that come before their kind can be kept. -/
theorem detailsForm_isReadable (e : ControllerError) (form : e.DetailsForm t) :
    t.isReadable 2 = true := by
  cases e with
  | signalFailed id signal reason =>
    obtain ⟨members, rfl, form⟩ := form
    have text (s : String) : (Tree.text s).isReadable 3 = true := rfl
    have fields : ∀ s ∈ signalShown id signal reason, s.Kept 3 := by
      simpa [signalShown] using
        ⟨Shown.present_kept (text id) _, Shown.present_kept (text signal) _,
          Shown.present_kept (text reason) _⟩
    simpa [Tree.isReadable, Tree.maxDepth] using Tree.membersAreReadable_iff.2 (form.kept fields)
  | _ =>
    rw [show t = _ from form]
    rfl

/-- The kind of an error, as a field of it. -/
def kindField : RecordField Kind := ⟨"error_type", Reader.variant Kind.ofName?, none⟩

/-- The details of an error of a kind, as a field of it. -/
def detailsField (k : Kind) : RecordField ControllerError := ⟨"details", readDetails k, none⟩

/-- The kind and the details of an error with what may be given for them. -/
def shown (e : ControllerError) : List Shown :=
  [.present kindField (encodes_variant (Kind.ofName?_name e.kind)).1,
   .among (detailsField e.kind) e.DetailsForm e.detailsForm_detailsTree
     fun _ form => e.detailsForm_encodes form]

/-- A member of an error that is neither its kind nor its details. -/
structure Skips (m : Member) : Prop where
  other : ∃ name, m.1 = some name ∧ name ≠ "error_type" ∧ name ≠ "details"
  sound : m.2.isSound = true

theorem readMembers_append {so : Progress} {a b : List Member} (skips : ∀ m ∈ a, Skips m) :
    readMembers so (a ++ b) = readMembers so b := by
  induction a with
  | nil => rfl
  | cons m a ih =>
    obtain ⟨_, t⟩ := m
    obtain ⟨⟨name, rfl, noKind, noDetails⟩, sound⟩ := skips _ List.mem_cons_self
    rw [List.cons_append, readMembers.eq_def]
    simp only [if_neg noKind, if_neg noDetails, sound]
    exact ih fun n hn => skips n (List.mem_cons_of_mem _ hn)

theorem readMembers_skips {so : Progress} {a : List Member} (skips : ∀ m ∈ a, Skips m) :
    readMembers so a = .ok so := by
  simpa [readMembers] using readMembers_append (b := []) skips

theorem shown_kept (e : ControllerError) : ∀ s ∈ e.shown, s.Kept 2 := by
  simpa [shown] using ⟨Shown.present_kept rfl _, fun t form => e.detailsForm_isReadable form⟩

/-- **An error is read from its members in any order,** among foreign ones. Details that come before
the kind are kept until it is known. -/
theorem read_object (form : ObjectForm 1 e.shown members) :
    read (.object members true) = .ok e := by
  have readable := form.kept e.shown_kept
  obtain ⟨own, others, perm, shows, foreign⟩ := form
  obtain ⟨s, own, rfl, kind, shows⟩ := shows.of_required rfl
  obtain ⟨t, own, rfl, details, shows⟩ := shows.of_required rfl
  cases shows
  have perm : members.Perm ((some "error_type", s) :: (some "details", t) :: others) := perm
  have kind : Reader.variant Kind.ofName? s = .ok e.kind := (Shown.encoded _ s kind).reads
  have details : readDetails e.kind t = .ok e := (Shown.encoded _ t details).reads
  obtain ⟨a, b, c, rest, order⟩ := perm_pair perm
  have skip : ∀ m ∈ a ++ b ++ c, Skips m := by
    intro m hm
    have foreign := foreign m (rest.mem_iff.1 hm)
    obtain ⟨name, named, other⟩ := foreign.named
    simp only [shown, List.map_cons, List.map_nil, List.mem_cons, not_or] at other
    exact ⟨⟨name, named, other.1, other.2.1⟩, foreign.plain.isSound⟩
  simp only [List.mem_append, or_imp, forall_and] at skip
  obtain ⟨⟨before, between⟩, after⟩ := skip
  have found : readMembers .nothing members = .ok (.whole e) := by
    rcases order with rfl | rfl
    · rw [readMembers_append before, readMembers, if_pos rfl, kind]
      show readMembers (.kind e.kind) _ = _
      rw [readMembers_append between, readMembers, if_neg (by decide), if_pos rfl, details]
      exact readMembers_skips after
    · have kept : t.isReadable 2 = true := (readable (some "details", t) (by simp)).2
      rw [readMembers_append before, readMembers, if_neg (by decide), if_pos rfl, kept]
      show readMembers (.details t) _ = _
      rw [readMembers_append between, readMembers, if_pos rfl, kind]
      show (readDetails e.kind t >>= _) = _
      rw [details]
      exact readMembers_skips after
  rw [read, found]
  rfl

/-- An error is read from its two items. -/
theorem read_array (form : ArrayForm e.shown items) : read (.array items true) = .ok e := by
  cases form with
  | done unset => cases unset _ List.mem_cons_self
  | @item _ s _ _ kind more =>
    cases more with
    | done unset => cases unset _ List.mem_cons_self
    | @item _ t _ _ details last =>
      cases last
      have kind : Reader.variant Kind.ofName? s = .ok e.kind := (Shown.encoded _ s kind).reads
      have details : readDetails e.kind t = .ok e := (Shown.encoded _ t details).reads
      rw [read, kind]
      show (readDetails e.kind t >>= _) = _
      rw [details]
      rfl

theorem form_encodes (e : ControllerError) (form : RecordForm 1 e.shown t) : t.Encodes read e := by
  cases form with
  | object form => exact ⟨form.whole, read_object form⟩
  | array form => exact ⟨form.whole, read_array form⟩

end Forms

end ControllerError

end ContainerInit
