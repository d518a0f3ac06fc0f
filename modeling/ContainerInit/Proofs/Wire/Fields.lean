import ContainerInit.Proofs.Json.Occurrence
import ContainerInit.Proofs.Wire.Records

/-!
# A record and its fields determine each other

- **Restoring** (`Restores`): a record that holds every field makes a value, and the value shows
  what the record holds.
- **The wire** (`ExecOptions.restores` and so on): this holds of the records of every type and of
  the payloads of each kind.
- **Kept values** (`Payload.isReadable_of_check`): a payload's fields are looked at late, but none
  of them takes a value that could not be kept until then.
-/

namespace ContainerInit

open Json

/-- A record that holds every field of a layout makes a value, and the value that a record makes
shows the fields of the layout as the record holds them. -/
structure Restores {α : Type} (layout : Layout) (ofRecord : Record → Except Fault α)
    (shown : α → List Shown) : Prop where
  distinct : (layout.map FieldShape.name).Nodup
  total : ∀ r, (∀ f ∈ layout, f.Held r) → ∃ a, ofRecord r = .ok a
  shapes : ∀ r a, ofRecord r = .ok a → (shown a).map (·.shape) = layout
  shows : ∀ r a, ofRecord r = .ok a → ∀ s ∈ shown a, r.get s.field = .ok s.value

/-! ## Commands and sessions -/

theorem ExecOptions.restores : Restores layout ofRecord shown where
  distinct := by decide
  total r held := by
    simp only [layout, List.forall_mem_cons] at held
    obtain ⟨args, env, cwd, terminal, -⟩ := held
    obtain ⟨_, args⟩ := RecordField.exists_get args
    obtain ⟨_, env⟩ := RecordField.exists_get env
    obtain ⟨_, cwd⟩ := RecordField.exists_get cwd
    obtain ⟨_, terminal⟩ := RecordField.exists_get terminal
    exact ⟨⟨_, _, _, _⟩, by simp only [ofRecord, args, env, cwd, terminal]; rfl⟩
  shapes _ _ _ := rfl
  shows r o made := by
    simp only [ofRecord, bind_eq_ok_iff] at made
    obtain ⟨_, args, _, env, _, cwd, _, terminal, ⟨⟩⟩ := made
    simpa [shown, shownEnv, Shown.present, Shown.among, Shown.optional, Shown.optionalAmong,
      Entry.present, Entry.optional] using ⟨args, env, cwd, terminal⟩

theorem ExecHandle.restores : Restores layout ofRecord shown where
  distinct := by decide
  total r held := by
    simp only [layout, List.forall_mem_cons] at held
    obtain ⟨execId, pid, -⟩ := held
    obtain ⟨_, execId⟩ := RecordField.exists_get execId
    obtain ⟨_, pid⟩ := RecordField.exists_get pid
    exact ⟨⟨_, _⟩, by simp only [ofRecord, execId, pid]; rfl⟩
  shapes _ _ _ := rfl
  shows r h made := by
    simp only [ofRecord, bind_eq_ok_iff] at made
    obtain ⟨_, execId, _, pid, ⟨⟩⟩ := made
    simpa [shown, Shown.present, Shown.among, Shown.optional, Shown.optionalAmong,
      Entry.present, Entry.optional] using ⟨execId, pid⟩

/-! ## Limits and checkpoints -/

theorem ResourceSpec.restores : Restores layout ofRecord shown where
  distinct := by decide
  total r held := by
    simp only [layout, List.forall_mem_cons] at held
    obtain ⟨shares, quota, period, memory, pids, -⟩ := held
    obtain ⟨_, shares⟩ := RecordField.exists_get shares
    obtain ⟨_, quota⟩ := RecordField.exists_get quota
    obtain ⟨_, period⟩ := RecordField.exists_get period
    obtain ⟨_, memory⟩ := RecordField.exists_get memory
    obtain ⟨_, pids⟩ := RecordField.exists_get pids
    exact ⟨⟨_, _, _, _, _⟩, by simp only [ofRecord, shares, quota, period, memory, pids]; rfl⟩
  shapes _ _ _ := rfl
  shows r spec made := by
    simp only [ofRecord, bind_eq_ok_iff] at made
    obtain ⟨_, shares, _, quota, _, period, _, memory, _, pids, ⟨⟩⟩ := made
    simpa [shown, Shown.optional, Shown.optionalAmong, Entry.optional] using
      ⟨shares, quota, period, memory, pids⟩

theorem CheckpointConfig.restores : Restores layout ofRecord shown where
  distinct := by decide
  total r held := by
    simp only [layout, List.forall_mem_cons] at held
    obtain ⟨work, image, exits, tcp, sockets, terminals, locks, namespaces, -⟩ := held
    obtain ⟨_, work⟩ := RecordField.exists_get work
    obtain ⟨_, image⟩ := RecordField.exists_get image
    obtain ⟨_, exits⟩ := RecordField.exists_get exits
    obtain ⟨_, tcp⟩ := RecordField.exists_get tcp
    obtain ⟨_, sockets⟩ := RecordField.exists_get sockets
    obtain ⟨_, terminals⟩ := RecordField.exists_get terminals
    obtain ⟨_, locks⟩ := RecordField.exists_get locks
    obtain ⟨_, namespaces⟩ := RecordField.exists_get namespaces
    exact ⟨⟨_, _, _, _, _, _, _, _⟩, by
      simp only [ofRecord, work, image, exits, tcp, sockets, terminals, locks, namespaces]; rfl⟩
  shapes _ _ _ := rfl
  shows r c made := by
    simp only [ofRecord, bind_eq_ok_iff] at made
    obtain ⟨_, work, _, image, _, exits, _, tcp, _, sockets, _, terminals, _, locks, _, namespaces,
      ⟨⟩⟩ := made
    simpa [shown, Shown.present, Shown.among, Entry.present] using
      ⟨work, image, exits, tcp, sockets, terminals, locks, namespaces⟩

/-! ## Exits and snapshots -/

theorem ExitStatus.restores : Restores layout ofRecord shown where
  distinct := by decide
  total r held := by
    simp only [layout, List.forall_mem_cons] at held
    obtain ⟨code, exitedAt, -⟩ := held
    obtain ⟨_, code⟩ := RecordField.exists_get code
    obtain ⟨_, exitedAt⟩ := RecordField.exists_get exitedAt
    exact ⟨⟨_, _⟩, by simp only [ofRecord, code, exitedAt]; rfl⟩
  shapes _ _ _ := rfl
  shows r status made := by
    simp only [ofRecord, bind_eq_ok_iff] at made
    obtain ⟨_, code, _, exitedAt, ⟨⟩⟩ := made
    simpa [shown, Shown.present, Shown.among, Entry.present] using ⟨code, exitedAt⟩

theorem ProcessSnapshot.restores : Restores layout ofRecord shown where
  distinct := by decide
  total r held := by
    simp only [layout, List.forall_mem_cons] at held
    obtain ⟨id, state, exit, -⟩ := held
    obtain ⟨_, id⟩ := RecordField.exists_get id
    obtain ⟨_, state⟩ := RecordField.exists_get state
    obtain ⟨_, exit⟩ := RecordField.exists_get exit
    exact ⟨⟨_, _, _⟩, by simp only [ofRecord, id, state, exit]; rfl⟩
  shapes _ _ _ := rfl
  shows r snapshot made := by
    simp only [ofRecord, bind_eq_ok_iff] at made
    obtain ⟨_, id, _, state, _, exit, ⟨⟩⟩ := made
    simpa [shown, Shown.present, Shown.variant, Shown.among, Shown.optionalAmong, Entry.present,
      Entry.optional] using ⟨id, state, exit⟩

/-! ## Payloads -/

namespace Payload

theorem exists_ofRecord {k : PayloadKind} {r : Record} (held : ∀ f ∈ layout k, f.Held r) :
    ∃ p, ofRecord k r = .ok p := by
  cases k <;> simp only [layout, List.forall_mem_cons] at held
  case stateChanged =>
    obtain ⟨operation, source, result, -⟩ := held
    obtain ⟨_, operation⟩ := RecordField.exists_get operation
    obtain ⟨_, source⟩ := RecordField.exists_get source
    obtain ⟨_, result⟩ := RecordField.exists_get result
    exact ⟨_, by simp only [ofRecord, operation, source, result]; rfl⟩
  case exitRecorded =>
    obtain ⟨status, previous, -⟩ := held
    obtain ⟨_, status⟩ := RecordField.exists_get status
    obtain ⟨_, previous⟩ := RecordField.exists_get previous
    exact ⟨_, by simp only [ofRecord, status, previous]; rfl⟩
  case operationRejected =>
    obtain ⟨operation, state, -⟩ := held
    obtain ⟨_, operation⟩ := RecordField.exists_get operation
    obtain ⟨_, state⟩ := RecordField.exists_get state
    exact ⟨_, by simp only [ofRecord, operation, state]; rfl⟩
  case controllerFailed =>
    obtain ⟨operation, error, -⟩ := held
    obtain ⟨_, operation⟩ := RecordField.exists_get operation
    obtain ⟨_, error⟩ := RecordField.exists_get error
    exact ⟨_, by simp only [ofRecord, operation, error]; rfl⟩
  case compensatingResumeFailed =>
    obtain ⟨_, error⟩ := RecordField.exists_get held.1
    exact ⟨_, by simp only [ofRecord, error]; rfl⟩
  case transitionSuperseded =>
    obtain ⟨operation, target, current, -⟩ := held
    obtain ⟨_, operation⟩ := RecordField.exists_get operation
    obtain ⟨_, target⟩ := RecordField.exists_get target
    obtain ⟨_, current⟩ := RecordField.exists_get current
    exact ⟨_, by simp only [ofRecord, operation, target, current]; rfl⟩

/-- The payload that a record makes is of the kind that was asked for, and shows the record. -/
theorem shows_of_ofRecord {k : PayloadKind} {r : Record} {p : Payload}
    (made : ofRecord k r = .ok p) :
    p.kind = k ∧ ∀ s ∈ p.shownFields, r.get s.field = .ok s.value := by
  cases k <;> simp only [ofRecord, bind_eq_ok_iff] at made
  case stateChanged =>
    obtain ⟨_, operation, _, source, _, result, ⟨⟩⟩ := made
    refine ⟨rfl, ?_⟩
    simpa [shownFields, Shown.variant, Shown.among, Entry.present] using
      ⟨operation, source, result⟩
  case exitRecorded =>
    obtain ⟨_, status, _, previous, ⟨⟩⟩ := made
    refine ⟨rfl, ?_⟩
    simpa [shownFields, Shown.present, Shown.variant, Shown.among, Entry.present] using
      ⟨status, previous⟩
  case operationRejected =>
    obtain ⟨_, operation, _, state, ⟨⟩⟩ := made
    refine ⟨rfl, ?_⟩
    simpa [shownFields, Shown.variant, Shown.among, Entry.present] using ⟨operation, state⟩
  case controllerFailed =>
    obtain ⟨_, operation, _, error, ⟨⟩⟩ := made
    refine ⟨rfl, ?_⟩
    simpa [shownFields, Shown.present, Shown.variant, Shown.among, Entry.present] using
      ⟨operation, error⟩
  case compensatingResumeFailed =>
    obtain ⟨_, error, ⟨⟩⟩ := made
    refine ⟨rfl, ?_⟩
    simpa [shownFields, Shown.present, Shown.among, Entry.present] using error
  case transitionSuperseded =>
    obtain ⟨_, operation, _, target, _, current, ⟨⟩⟩ := made
    refine ⟨rfl, ?_⟩
    simpa [shownFields, Shown.variant, Shown.among, Entry.present] using
      ⟨operation, target, current⟩

theorem restores (k : PayloadKind) : Restores (layout k) (ofRecord k) shownFields where
  distinct := by cases k <;> decide
  total _ held := exists_ofRecord held
  shapes _ p made := by rw [p.shapes, (shows_of_ofRecord made).1]
  shows _ _ made := (shows_of_ofRecord made).2

end Payload

/-! ## Kept values -/

/-- An integer that 64 bits can hold can be kept. -/
theorem isReadable_of_integer {least greatest i : Int} {t : Tree} {depth : Nat}
    (read : Reader.integer least greatest t = .ok i) (small : i.natAbs < UInt64.size) :
    t.isReadable depth = true := by
  cases t with
  | number l =>
    have value := (Reader.integer_number.1 read).1
    obtain ⟨negative, whole, fraction, exponent⟩ := l
    cases fraction with
    | some ds => cases value
    | none =>
      cases exponent with
      | some e => cases value
      | none =>
        have digits : Nat.ofDigitChars 10 whole 0 = i.natAbs := by
          simp only [Literal.toInt?] at value
          split at value
          · split at value
            · cases value
            · obtain rfl := Option.some.inj value
              omega
          · obtain rfl := Option.some.inj value
            rfl
        have taken := @significand_eq whole 0 (by rwa [digits])
        simp [Tree.isReadable, Literal.fitsDouble, taken]
  | _ => cases read

theorem isReadable_of_int32 {i : Int32} {t : Tree} {depth : Nat} (read : Reader.int32 t = .ok i) :
    t.isReadable depth = true := by
  obtain ⟨j, read, -⟩ := map_eq_ok_iff.1 read
  refine isReadable_of_integer read ?_
  cases t with
  | number l =>
    obtain ⟨-, above, below⟩ := Reader.integer_number.1 read
    have least : Int32.minValue.toInt = -2147483648 := by decide
    have greatest : Int32.maxValue.toInt = 2147483647 := by decide
    rw [least] at above
    rw [greatest] at below
    unfold UInt64.size
    omega
  | _ => cases read

theorem isReadable_of_keptVariant {α : Type} {ofName? : String → Option α} {a : α} {t : Tree}
    {depth : Nat} (shallow : depth < Tree.maxDepth) (read : Reader.keptVariant ofName? t = .ok a) :
    t.isReadable depth = true := by
  unfold Reader.keptVariant at read
  split at read
  · rfl
  · obtain ⟨_, -, read⟩ := bind_eq_ok_iff.1 read
    split at read
    · simp [Tree.isReadable, Tree.membersAreReadable, Nat.le_of_lt shallow]
    · simp [Tree.isReadable, Tree.membersAreReadable, Nat.le_of_lt shallow, Nat.succ_le_of_lt shallow]
    · cases read
  · cases read

theorem isReadable_of_text {s : String} {t : Tree} {depth : Nat} (read : Reader.text t = .ok s) :
    t.isReadable depth = true := by
  unfold Reader.text at read
  split at read
  · rfl
  · cases read

namespace Payload

/-- **Whatever is valid for a field of a payload can be kept.** -/
theorem isReadable_of_check {k : PayloadKind} {f : FieldShape} {t : Tree} {depth : Nat}
    (shallow : depth < Tree.maxDepth) (hf : f ∈ layout k) (checked : f.check t = .ok ()) :
    t.isReadable depth = true := by
  have variant {α : Type} {name : String} {ofName? : String → Option α}
      (checked : (RecordField.mk name (Reader.keptVariant ofName?) none).shape.check t = .ok ()) :
      t.isReadable depth = true := by
    obtain ⟨_, read⟩ := RecordField.check_eq_ok_iff.1 checked
    exact isReadable_of_keptVariant shallow read
  have text (checked : errorField.shape.check t = .ok ()) : t.isReadable depth = true := by
    obtain ⟨_, read⟩ := RecordField.check_eq_ok_iff.1 checked
    exact isReadable_of_text read
  have status (checked : statusField.shape.check t = .ok ()) : t.isReadable depth = true := by
    obtain ⟨_, read⟩ := RecordField.check_eq_ok_iff.1 checked
    exact isReadable_of_int32 read
  cases k <;> simp only [layout, List.mem_cons, List.not_mem_nil, or_false] at hf
  case stateChanged => rcases hf with rfl | rfl | rfl <;> exact variant checked
  case exitRecorded =>
    rcases hf with rfl | rfl
    · exact status checked
    · exact variant checked
  case operationRejected => rcases hf with rfl | rfl <;> exact variant checked
  case controllerFailed =>
    rcases hf with rfl | rfl
    · exact variant checked
    · exact text checked
  case compensatingResumeFailed =>
    subst hf
    exact text checked
  case transitionSuperseded => rcases hf with rfl | rfl | rfl <;> exact variant checked

end Payload

/-! ## Events -/

theorem Event.restores : Restores layout ofRecord shown where
  distinct := by decide
  total r held := by
    simp only [layout, List.forall_mem_cons] at held
    obtain ⟨timestamp, severity, id, payload, -⟩ := held
    obtain ⟨_, timestamp⟩ := RecordField.exists_get timestamp
    obtain ⟨_, severity⟩ := RecordField.exists_get severity
    obtain ⟨_, id⟩ := RecordField.exists_get id
    obtain ⟨_, payload⟩ := RecordField.exists_get payload
    exact ⟨⟨_, _, _, _⟩, by simp only [ofRecord, timestamp, severity, id, payload]; rfl⟩
  shapes _ _ _ := rfl
  shows r event made := by
    simp only [ofRecord, bind_eq_ok_iff] at made
    obtain ⟨_, timestamp, _, severity, _, id, _, payload, ⟨⟩⟩ := made
    simpa [shown, Shown.present, Shown.variant, Shown.among, Entry.present] using
      ⟨timestamp, severity, id, payload⟩

end ContainerInit
