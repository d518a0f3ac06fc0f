import ContainerInit.Lifecycle.Operation
import ContainerInit.Lifecycle.State
import ContainerInit.Text.Quoted

/-!
# Lifecycle events

- **Payloads** (`Payload`): what happened to an init process, one constructor per kind of event.
- **Events** (`Event`): a payload with its severity, the process it belongs to, and its time.
- **Severities** (`Severity`): ordered from `trace` to `error` by `Severity.rank`.
-/

namespace ContainerInit

/-- How much an event matters. -/
inductive Severity where
  | trace
  | debug
  | info
  | warn
  | error
  deriving DecidableEq

namespace Severity

/-- Every severity, least first. -/
def all : List Severity := [.trace, .debug, .info, .warn, .error]

/-- The place of a severity in their order. -/
def rank : Severity → Nat
  | .trace => 0
  | .debug => 1
  | .info => 2
  | .warn => 3
  | .error => 4

/-- The name of a severity. -/
def name : Severity → String
  | .trace => "Trace"
  | .debug => "Debug"
  | .info => "Info"
  | .warn => "Warn"
  | .error => "Error"

/-- The name of a severity as the level of a line of the log. -/
def level : Severity → String
  | .trace => "TRACE"
  | .debug => "DEBUG"
  | .info => "INFO"
  | .warn => "WARN"
  | .error => "ERROR"

/-- The severity with a given name. -/
def ofName? (name : String) : Option Severity :=
  all.find? fun s => s.name == name

theorem mem_all (s : Severity) : s ∈ all := by
  cases s <;> decide

theorem ofName?_name (s : Severity) : ofName? s.name = some s := by
  cases s <;> decide

end Severity

/-- What happened to an init process. -/
inductive Payload where
  /-- A new state was installed. -/
  | stateChanged (operation : Operation) (source target : State)
  /-- The report of an exit was accepted. -/
  | exitRecorded (status : Int32) (previous : State)
  /-- An operation was refused. -/
  | operationRejected (operation : Operation) (state : State)
  /-- The controller failed a side effect; the state is as before. -/
  | controllerFailed (operation : Operation) (error : String)
  /-- Resuming a frozen process after its exit failed. -/
  | compensatingResumeFailed (error : String)
  /-- The process ended during a side effect, and the state that was to follow no longer can. -/
  | transitionSuperseded (operation : Operation) (target current : State)
  deriving DecidableEq

/-- The kinds of events. -/
inductive PayloadKind where
  | stateChanged
  | exitRecorded
  | operationRejected
  | controllerFailed
  | compensatingResumeFailed
  | transitionSuperseded
  deriving DecidableEq

namespace PayloadKind

/-- Every kind of event. -/
def all : List PayloadKind :=
  [.stateChanged, .exitRecorded, .operationRejected, .controllerFailed,
    .compensatingResumeFailed, .transitionSuperseded]

/-- The name of a kind of event. -/
def name : PayloadKind → String
  | .stateChanged => "state_changed"
  | .exitRecorded => "exit_recorded"
  | .operationRejected => "operation_rejected"
  | .controllerFailed => "controller_failed"
  | .compensatingResumeFailed => "compensating_resume_failed"
  | .transitionSuperseded => "transition_superseded"

/-- The kind with a given name. -/
def ofName? (name : String) : Option PayloadKind :=
  all.find? fun k => k.name == name

theorem mem_all (k : PayloadKind) : k ∈ all := by
  cases k <;> decide

theorem ofName?_name (k : PayloadKind) : ofName? k.name = some k := by
  cases k <;> decide

end PayloadKind

namespace Payload

/-- The kind of a payload. -/
def kind : Payload → PayloadKind
  | .stateChanged .. => .stateChanged
  | .exitRecorded .. => .exitRecorded
  | .operationRejected .. => .operationRejected
  | .controllerFailed .. => .controllerFailed
  | .compensatingResumeFailed .. => .compensatingResumeFailed
  | .transitionSuperseded .. => .transitionSuperseded

/-- The text of a payload: its name, and its fields between braces. -/
def text : Payload → String
  | .stateChanged operation source target =>
    Text.record "StateChanged"
      [("operation", operation.label), ("from", source.label), ("to", target.label)]
  | .exitRecorded status previous =>
    Text.record "ExitRecorded" [("status", toString status.toInt), ("previous", previous.label)]
  | .operationRejected operation state =>
    Text.record "OperationRejected" [("operation", operation.label), ("state", state.label)]
  | .controllerFailed operation error =>
    Text.record "ControllerFailed"
      [("operation", operation.label), ("error", Text.quoted error)]
  | .compensatingResumeFailed error =>
    Text.record "CompensatingResumeFailed" [("error", Text.quoted error)]
  | .transitionSuperseded operation target current =>
    Text.record "TransitionSuperseded"
      [("operation", operation.label), ("target", target.label), ("current", current.label)]

end Payload

/-- An event of an init process; times count nanoseconds from the first event. -/
structure Event where
  timestamp : UInt64
  severity : Severity
  id : String
  payload : Payload
  deriving DecidableEq

end ContainerInit
