import ContainerInit.Event
import ContainerInit.Json.Printer
import ContainerInit.Json.Record
import ContainerInit.Process.Exit
import ContainerInit.Process.Options
import ContainerInit.Signal
import ContainerInit.Time.Rfc3339

/-!
# The JSON form of records

Each type has a tree that is written for it (`toTree`), a reader (`read`), and, as a record, its
fields in declaration order (`layout`). Names of variants are strings; a defaulted field that is
unset is left out when written.
-/

namespace ContainerInit

open Json

/-! ## Variants -/

/-- The tree of a state. -/
def State.toTree (s : State) : Tree := .text s.name

/-- Reads a state. -/
def State.read : Reader State := Reader.variant State.ofName?

/-- The tree of an operation. -/
def Operation.toTree (o : Operation) : Tree := .text o.name

/-- Reads an operation. -/
def Operation.read : Reader Operation := Reader.variant Operation.ofName?

/-- The tree of a signal. -/
def Signal.toTree (s : Signal) : Tree := .text s.name

/-- Reads a signal. -/
def Signal.read : Reader Signal := Reader.variant Signal.ofName?

/-- The tree of a severity. -/
def Severity.toTree (s : Severity) : Tree := .text s.name

/-- Reads a severity. -/
def Severity.read : Reader Severity := Reader.variant Severity.ofName?

/-- The tree of a number that is no signal. -/
def InvalidSignal.toTree (e : InvalidSignal) : Tree :=
  .record [("InvalidSignal", some (.nat e.number.toNat))]

/-- The name of the only variant of errors about signals. -/
def InvalidSignal.ofName? (name : String) : Option Unit :=
  if name == "InvalidSignal" then some () else none

/-- Reads a number that is no signal: an object that maps the variant's name to the number. -/
def InvalidSignal.read : Reader InvalidSignal
  | .string (some name) => do
    let _ ← Reader.variantNamed InvalidSignal.ofName? name
    .error .malformed
  | .object ((some name, t) :: rest) closed => do
    let _ ← Reader.variantNamed InvalidSignal.ofName? name
    let n ← Reader.uint32 t
    demand (rest.isEmpty && closed)
    return ⟨n⟩
  | _ => .error .malformed

/-! ## Commands and sessions -/

namespace ExecOptions

/-- The program and its arguments, which are required. -/
def argsField : RecordField (List String) := ⟨"args", Reader.list Reader.text, none⟩

/-- Additions to the environment, in order; none by default. -/
def envField : RecordField (List (String × String)) :=
  ⟨"env", Reader.list (Reader.pair Reader.text Reader.text), some []⟩

/-- The working directory; by default that of the process. -/
def cwdField : RecordField (Option String) := ⟨"cwd", Reader.optional Reader.text, some none⟩

/-- Whether a terminal is wanted; not by default. -/
def terminalField : RecordField Bool := ⟨"terminal", Reader.bool, some false⟩

/-- The fields of a command. -/
def layout : Layout := [argsField.shape, envField.shape, cwdField.shape, terminalField.shape]

/-- The command that a record holds. -/
def ofRecord (r : Record) : Except Fault ExecOptions := do
  return {
    args := ← r.get argsField
    env := ← r.get envField
    cwd := ← r.get cwdField
    terminal := ← r.get terminalField }

/-- Reads a command. -/
def read : Reader ExecOptions := fun t => do ofRecord (← layout.readRecord t)

/-- The tree of a command. -/
def toTree (o : ExecOptions) : Tree :=
  .record [
    ("args", some (.list (o.args.map .text))),
    ("env",
      if o.env.isEmpty then none
      else some (.list (o.env.map fun p => .list [.text p.1, .text p.2]))),
    ("cwd", o.cwd.map .text),
    ("terminal", some (.bool o.terminal))]

end ExecOptions

namespace ExecHandle

/-- The identity of the session. -/
def execIdField : RecordField String := ⟨"exec_id", Reader.text, none⟩

/-- The process of the session, where it is known. -/
def pidField : RecordField (Option UInt32) := ⟨"pid", Reader.optional Reader.uint32, some none⟩

/-- The fields of a started session. -/
def layout : Layout := [execIdField.shape, pidField.shape]

/-- The session that a record holds. -/
def ofRecord (r : Record) : Except Fault ExecHandle := do
  return { execId := ← r.get execIdField, pid := ← r.get pidField }

/-- Reads a started session. -/
def read : Reader ExecHandle := fun t => do ofRecord (← layout.readRecord t)

/-- The tree of a started session. -/
def toTree (h : ExecHandle) : Tree :=
  .record [("exec_id", some (.text h.execId)), ("pid", h.pid.map fun p => .nat p.toNat)]

end ExecHandle

/-! ## Limits and checkpoints -/

namespace ResourceSpec

/-- The share of processor time, relative to others. -/
def cpuSharesField : RecordField (Option UInt64) :=
  ⟨"cpu_shares", Reader.optional Reader.uint64, some none⟩

/-- The processor time in a period, which may be negative. -/
def cpuQuotaField : RecordField (Option Int64) :=
  ⟨"cpu_quota", Reader.optional Reader.int64, some none⟩

/-- The period of the quota. -/
def cpuPeriodField : RecordField (Option UInt64) :=
  ⟨"cpu_period", Reader.optional Reader.uint64, some none⟩

/-- The limit on memory, which may be negative. -/
def memoryLimitField : RecordField (Option Int64) :=
  ⟨"memory_limit", Reader.optional Reader.int64, some none⟩

/-- The limit on the number of processes, which may be negative. -/
def pidsLimitField : RecordField (Option Int64) :=
  ⟨"pids_limit", Reader.optional Reader.int64, some none⟩

/-- The fields of a set of limits. -/
def layout : Layout :=
  [cpuSharesField.shape, cpuQuotaField.shape, cpuPeriodField.shape, memoryLimitField.shape,
    pidsLimitField.shape]

/-- The limits that a record holds. -/
def ofRecord (r : Record) : Except Fault ResourceSpec := do
  return {
    cpuShares := ← r.get cpuSharesField
    cpuQuota := ← r.get cpuQuotaField
    cpuPeriod := ← r.get cpuPeriodField
    memoryLimit := ← r.get memoryLimitField
    pidsLimit := ← r.get pidsLimitField }

/-- Reads a set of limits. -/
def read : Reader ResourceSpec := fun t => do ofRecord (← layout.readRecord t)

/-- The tree of a set of limits. -/
def toTree (s : ResourceSpec) : Tree :=
  .record [
    ("cpu_shares", s.cpuShares.map fun n => .nat n.toNat),
    ("cpu_quota", s.cpuQuota.map fun n => .int n.toInt),
    ("cpu_period", s.cpuPeriod.map fun n => .nat n.toNat),
    ("memory_limit", s.memoryLimit.map fun n => .int n.toInt),
    ("pids_limit", s.pidsLimit.map fun n => .int n.toInt)]

end ResourceSpec

namespace CheckpointConfig

/-- The scratch directory, which is required. -/
def workDirField : RecordField String := ⟨"work_dir", Reader.text, none⟩

/-- Where the image goes, which is required. -/
def imagePathField : RecordField String := ⟨"image_path", Reader.text, none⟩

/-- Whether the process stops once the image is written; not by default. -/
def exitAfterCheckpointField : RecordField Bool :=
  ⟨"exit_after_checkpoint", Reader.bool, some false⟩

/-- Whether open connections are allowed; not by default. -/
def allowOpenTcpField : RecordField Bool := ⟨"allow_open_tcp", Reader.bool, some false⟩

/-- Whether sockets to other processes are allowed; not by default. -/
def allowExternalUnixSocketsField : RecordField Bool :=
  ⟨"allow_external_unix_sockets", Reader.bool, some false⟩

/-- Whether terminals are allowed; not by default. -/
def allowTerminalDevicesField : RecordField Bool :=
  ⟨"allow_terminal_devices", Reader.bool, some false⟩

/-- Whether locks on files are allowed; not by default. -/
def fileLocksField : RecordField Bool := ⟨"file_locks", Reader.bool, some false⟩

/-- The namespaces to be made anew; none by default. -/
def emptyNamespacesField : RecordField (List String) :=
  ⟨"empty_namespaces", Reader.list Reader.text, some []⟩

/-- The fields of the settings of a checkpoint. -/
def layout : Layout :=
  [workDirField.shape, imagePathField.shape, exitAfterCheckpointField.shape,
    allowOpenTcpField.shape, allowExternalUnixSocketsField.shape, allowTerminalDevicesField.shape,
    fileLocksField.shape, emptyNamespacesField.shape]

/-- The settings that a record holds. -/
def ofRecord (r : Record) : Except Fault CheckpointConfig := do
  return {
    workDir := ← r.get workDirField
    imagePath := ← r.get imagePathField
    exitAfterCheckpoint := ← r.get exitAfterCheckpointField
    allowOpenTcp := ← r.get allowOpenTcpField
    allowExternalUnixSockets := ← r.get allowExternalUnixSocketsField
    allowTerminalDevices := ← r.get allowTerminalDevicesField
    fileLocks := ← r.get fileLocksField
    emptyNamespaces := ← r.get emptyNamespacesField }

/-- Reads the settings of a checkpoint. -/
def read : Reader CheckpointConfig := fun t => do ofRecord (← layout.readRecord t)

/-- The tree of the settings of a checkpoint. -/
def toTree (c : CheckpointConfig) : Tree :=
  .record [
    ("work_dir", some (.text c.workDir)),
    ("image_path", some (.text c.imagePath)),
    ("exit_after_checkpoint", some (.bool c.exitAfterCheckpoint)),
    ("allow_open_tcp", some (.bool c.allowOpenTcp)),
    ("allow_external_unix_sockets", some (.bool c.allowExternalUnixSockets)),
    ("allow_terminal_devices", some (.bool c.allowTerminalDevices)),
    ("file_locks", some (.bool c.fileLocks)),
    ("empty_namespaces", some (.list (c.emptyNamespaces.map .text)))]

end CheckpointConfig

/-! ## Exits and snapshots -/

/-- Reads a moment from its written form. -/
def Moment.read : Reader Moment
  | .string (some s) =>
    match Moment.parse? s with
    | some m => .ok m
    | none => .error .malformed
  | _ => .error .malformed

/-- The tree of a moment. -/
def Moment.toTree (m : Moment) : Tree := .text m.text

namespace ExitStatus

/-- The code of an exit. -/
def codeField : RecordField Int32 := ⟨"code", Reader.int32, none⟩

/-- When the process was seen to exit. -/
def exitedAtField : RecordField Moment := ⟨"exited_at", Moment.read, none⟩

/-- The fields of an exit. -/
def layout : Layout := [codeField.shape, exitedAtField.shape]

/-- The exit that a record holds. -/
def ofRecord (r : Record) : Except Fault ExitStatus := do
  return { code := ← r.get codeField, exitedAt := ← r.get exitedAtField }

/-- Reads an exit. -/
def read : Reader ExitStatus := fun t => do ofRecord (← layout.readRecord t)

/-- The tree of an exit. -/
def toTree (s : ExitStatus) : Tree :=
  .record [("code", some (.int s.code.toInt)), ("exited_at", some s.exitedAt.toTree)]

end ExitStatus

namespace ProcessSnapshot

/-- The identity of the process. -/
def idField : RecordField String := ⟨"id", Reader.text, none⟩

/-- The state at the time of the snapshot. -/
def stateField : RecordField State := ⟨"state", State.read, none⟩

/-- The recorded exit; none by default. -/
def exitField : RecordField (Option ExitStatus) :=
  ⟨"exit", Reader.optional ExitStatus.read, some none⟩

/-- The fields of a snapshot. -/
def layout : Layout := [idField.shape, stateField.shape, exitField.shape]

/-- The snapshot that a record holds. -/
def ofRecord (r : Record) : Except Fault ProcessSnapshot := do
  return { id := ← r.get idField, state := ← r.get stateField, exit := ← r.get exitField }

/-- Reads a snapshot. -/
def read : Reader ProcessSnapshot := fun t => do ofRecord (← layout.readRecord t)

/-- The tree of a snapshot. -/
def toTree (s : ProcessSnapshot) : Tree :=
  .record [
    ("id", some (.text s.id)),
    ("state", some s.state.toTree),
    ("exit", s.exit.map ExitStatus.toTree)]

end ProcessSnapshot

end ContainerInit
