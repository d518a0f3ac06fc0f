import ContainerInit.Event
import ContainerInit.Process.Options
import ContainerInit.Signal

/-!
# The log

- **Entries** (`LogEntry`): what a log holds, in order. A span is opened for each operation; values
  are recorded on it; and notices are written.
- **Notices** (`Notice`): each kind of notice is a constructor with the facts that it reports. Its
  severity, its message and its fields are functions of it (`Notice.severity`, `Notice.message`,
  `Notice.fields`).
-/

namespace ContainerInit

namespace ResourceSpec

/-- The text of a limit. -/
def limitText (limit : Option Int) : String :=
  Text.optional (limit.map toString)

/-- The text of a set of limits. -/
def text (r : ResourceSpec) : String :=
  Text.record "ResourceSpec" [
    ("cpu_shares", limitText (r.cpuShares.map fun n => (n.toNat : Int))),
    ("cpu_quota", limitText (r.cpuQuota.map fun n => n.toInt)),
    ("cpu_period", limitText (r.cpuPeriod.map fun n => (n.toNat : Int))),
    ("memory_limit", limitText (r.memoryLimit.map fun n => n.toInt)),
    ("pids_limit", limitText (r.pidsLimit.map fun n => n.toInt))]

end ResourceSpec

/-- The text of a command: its arguments in quotes, between square brackets. -/
def commandText (args : List String) : String :=
  Text.bracketed (args.map Text.quoted)

/-- What a notice reports. -/
inductive Notice where
  /-- An init process was made. -/
  | created (id : String)
  /-- An init process was found in a state and made anew. -/
  | restored (id : String) (state : State)
  /-- The report of an exit changed nothing. -/
  | exitAlreadyHandled (id : String) (state : State) (status : Int32)
  | operationStarted (operation : Operation) (id : String)
  | operationCompleted (operation : Operation)
  /-- An operation took longer than `slowOperationMillis`. -/
  | slowOperation (operation : Operation)
  | lifecycleEvent (id : String) (payload : Payload) (severity : Severity)
  | initSpawned (id : String) (pid : Nat) (command : List String)
  | initExited (id : String) (pid : Nat) (code : Int32)
  | signalling (id : String) (signal : Signal) (all : Bool)
  /-- A session was still running when its init process was deleted. -/
  | sessionOutlived (id execId : String)
  | initDeleted (id : String)
  | sessionSpawned (id execId : String) (pid : Nat)
  | emptyUpdate (id : String)
  | updateRequested (id : String) (resources : ResourceSpec)
  | checkpointRequested (id image : String)
  | logReady (json : Bool)
  | supervisorStarting (id : String) (command : List String)
  | initRunning (id : String) (pid : Option Nat)
  | interrupted (id : String)
  | signalFailed (signal : Signal) (error : String)
  /-- The grace period ended and the init process had not. -/
  | graceEnded (millis : UInt64)
  | waitFailed (id error : String)
  | supervisorExiting (id : String) (code : Int32)
  deriving DecidableEq

/-- Operations that take longer than this many milliseconds are reported as slow. -/
def slowOperationMillis : Nat := 100

/-- A value of a field of a notice. -/
inductive FieldValue where
  | text (value : String)
  | int (value : Int)
  | bool (value : Bool)
  deriving DecidableEq

namespace Notice

/-- How much a notice matters. -/
def severity : Notice → Severity
  | created _ | restored .. | exitAlreadyHandled .. | operationStarted .. | operationCompleted _
  | emptyUpdate _ => .debug
  | slowOperation _ | sessionOutlived .. | updateRequested .. | checkpointRequested ..
  | graceEnded _ => .warn
  | lifecycleEvent _ _ severity => severity
  | initSpawned .. | initExited .. | signalling .. | initDeleted _ | sessionSpawned .. | logReady _
  | supervisorStarting .. | initRunning .. | interrupted _ | supervisorExiting .. => .info
  | signalFailed signal _ => if signal = .kill then .error else .warn
  | waitFailed .. => .error

/-- The wording of a notice. -/
def message : Notice → String
  | created _ => "init process created"
  | restored .. => "init process restored"
  | exitAlreadyHandled .. => "exit already handled"
  | operationStarted .. => "operation started"
  | operationCompleted _ => "operation completed"
  | slowOperation _ => "slow lifecycle operation"
  | lifecycleEvent .. => "lifecycle event"
  | initSpawned .. => "spawned init process"
  | initExited .. => "init process exited"
  | signalling .. => "signalling init process"
  | sessionOutlived .. => "exec session outlived init process"
  | initDeleted _ => "deleted init process"
  | sessionSpawned .. => "spawned exec session"
  | emptyUpdate _ => "empty resource update"
  | updateRequested .. => "resource update requested"
  | checkpointRequested .. => "checkpoint requested"
  | logReady true => "Structured tracing initialized with JSON output"
  | logReady false => "Structured tracing initialized"
  | supervisorStarting .. => "init shim starting"
  | initRunning .. => "init process running"
  | interrupted _ => "interrupt received, stopping init process"
  | signalFailed signal _ => signal.name ++ " delivery failed"
  | graceEnded _ => "init process ignored SIGTERM, sending SIGKILL"
  | waitFailed .. => "failed to wait for init process"
  | supervisorExiting .. => "init shim exiting"

/-- The fields of a notice. -/
def fields : Notice → List (String × FieldValue)
  | created id | initDeleted id | emptyUpdate id | interrupted id => [("id", .text id)]
  | restored id state => [("id", .text id), ("state", .text state.name)]
  | exitAlreadyHandled id state status =>
    [("id", .text id), ("state", .text state.name), ("status", .int status.toInt)]
  | operationStarted operation id => [("operation", .text operation.name), ("id", .text id)]
  | operationCompleted operation => [("operation", .text operation.name)]
  | slowOperation operation => [("operation", .text operation.name), ("slow", .bool true)]
  | lifecycleEvent id payload _ =>
    [("id", .text id), ("event", .text payload.kind.name), ("payload", .text payload.text)]
  | initSpawned id pid command =>
    [("id", .text id), ("pid", .int pid), ("command", .text (commandText command))]
  | initExited id pid code =>
    [("id", .text id), ("pid", .int pid), ("code", .int code.toInt)]
  | signalling id signal all =>
    [("id", .text id), ("signal", .text signal.text), ("all", .bool all)]
  | sessionOutlived id execId => [("id", .text id), ("exec_id", .text execId)]
  | sessionSpawned id execId pid =>
    [("id", .text id), ("exec_id", .text execId), ("pid", .int pid)]
  | updateRequested id resources => [("id", .text id), ("resources", .text resources.text)]
  | checkpointRequested id image => [("id", .text id), ("image", .text image)]
  | logReady _ => []
  | supervisorStarting id command => [("id", .text id), ("command", .text (commandText command))]
  | initRunning id pid =>
    [("id", .text id), ("pid", .text (Text.optional (pid.map toString)))]
  | signalFailed _ error => [("error", .text error)]
  | graceEnded millis => [("grace_ms", .int millis.toNat)]
  | waitFailed id error => [("id", .text id), ("error", .text error)]
  | supervisorExiting id code => [("id", .text id), ("code", .int code.toInt)]

/-- The notice that an event is written as. -/
def ofEvent (e : Event) : Notice :=
  lifecycleEvent e.id e.payload e.severity

end Notice

/-- One entry of a log. -/
inductive LogEntry where
  /-- The span of an operation was opened. -/
  | opened (operation : Operation) (id : String)
  /-- A result was recorded on the innermost span. -/
  | result (success : Bool)
  /-- An error was recorded on the innermost span. -/
  | error (text : String)
  | notice (notice : Notice)
  deriving DecidableEq

/-- A log, oldest entry first. -/
abbrev Log := List LogEntry

end ContainerInit
