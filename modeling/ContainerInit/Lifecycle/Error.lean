import ContainerInit.Lifecycle.Dispatch

/-!
# Errors of the lifecycle

- **Causes** (`ControllerError`, `LifecycleError`): what went wrong, as data.
- **Wording** (`message`): one text per cause. A controller's error keeps its wording when it
  reaches the caller of the process.
- **Diagnostics** (`Diagnostic`): the stable code of an error, and advice where there is some.
-/

namespace ContainerInit

/-- Why a controller could not do what it was asked. -/
inductive ControllerError where
  /-- There is no live process of that identity. -/
  | notFound (id : String)
  | spawnFailed (reason : String)
  | signalFailed (id signal reason : String)
  | stillRunning (id : String)
  | unsupported (feature : String)
  /-- The system refused, in its own words. -/
  | io (reason : String)
  | failed (reason : String)
  deriving DecidableEq

/-- The wording of a controller's error. -/
def ControllerError.message : ControllerError → String
  | .notFound id => "process " ++ id ++ " not found"
  | .spawnFailed reason => "failed to spawn process: " ++ reason
  | .signalFailed id signal reason =>
    "failed to deliver " ++ signal ++ " to process " ++ id ++ ": " ++ reason
  | .stillRunning id => "process " ++ id ++ " is still running"
  | .unsupported feature => "unsupported: " ++ feature
  | .io reason => "I/O error: " ++ reason
  | .failed reason => reason

/-- What a caller of an init process gets instead of a result. -/
inductive LifecycleError where
  /-- The state did not accept the operation. -/
  | rejected (rejection : Rejection)
  /-- The controller failed. -/
  | controller (error : ControllerError)
  deriving DecidableEq

/-- The wording of a lifecycle error. -/
def LifecycleError.message : LifecycleError → String
  | .rejected r => r.message
  | .controller e => e.message

namespace LifecycleError

/-- The operation was called in the wrong state. -/
def isIllegalOperation : LifecycleError → Bool
  | .rejected ⟨.illegal, _, _⟩ => true
  | _ => false

/-- The operation is reserved, but not supported yet. -/
def isNotImplemented : LifecycleError → Bool
  | .rejected ⟨.notImplemented, _, _⟩ => true
  | _ => false

/-- The controller's error, if a side effect failed. -/
def controllerError? : LifecycleError → Option ControllerError
  | .controller e => some e
  | .rejected _ => none

end LifecycleError

/-- Why a configuration is refused. -/
inductive ConfigError where
  /-- The variable `key` holds `value`, which cannot be read. -/
  | invalid (key value reason : String)
  /-- The variable `key` holds nothing but blanks. -/
  | empty (key : String)
  deriving DecidableEq

/-! ## Diagnostics -/

/-- The stable name of a kind of error, and advice on it. -/
structure Diagnostic where
  code : String
  help : Option String := none

/-- The diagnostic of a controller's error. -/
def ControllerError.diagnostic : ControllerError → Diagnostic
  | .notFound _ => { code := "controller::not_found" }
  | .spawnFailed _ =>
    { code := "controller::spawn_failed"
      help := some "Check that the command exists and is executable." }
  | .signalFailed _ _ _ => { code := "controller::signal_failed" }
  | .stillRunning _ =>
    { code := "controller::still_running"
      help := some "Kill the process and wait for its exit before deleting it." }
  | .unsupported _ => { code := "controller::unsupported" }
  | .io _ => { code := "controller::io" }
  | .failed _ => { code := "controller::failed" }

/-- The diagnostic of a lifecycle error. -/
def LifecycleError.diagnostic : LifecycleError → Diagnostic
  | .rejected ⟨.illegal, _, _⟩ =>
    { code := "lifecycle::illegal_operation"
      help := some
        "The operation is not valid for the current process state. Check status() first." }
  | .rejected ⟨.notImplemented, _, _⟩ =>
    { code := "lifecycle::not_implemented"
      help := some "This operation is reserved but not yet supported by the shim." }
  | .controller _ => { code := "lifecycle::controller" }

/-- The diagnostic of a configuration error. -/
def ConfigError.diagnostic : ConfigError → Diagnostic
  | .invalid _ _ _ => { code := "config::invalid" }
  | .empty _ => { code := "config::empty" }

end ContainerInit
