import ContainerInit.Lifecycle.Error
import ContainerInit.Lifecycle.Operation
import ContainerInit.Process.Exit
import ContainerInit.Process.Options
import ContainerInit.Signal
import ContainerInit.Text.Quoted
import ContainerInit.Time.Rfc3339

/-!
# Requests, calls and replies

- **Requests** (`Request`): an operation that a caller asks for, with its arguments.
- **Calls** (`Call`): what the controller of a process is asked to do. Each request has one call
  that performs it (`Request.call?`), with the caller's arguments; a pause has none, but then no
  state delegates a pause (`Request.call?_ne_none`).
- **Actions** (`Action`): all that can be done to a process: requests, reports of exits, and
  questions (`Query`). Each gets a `Reply`.
-/

namespace ContainerInit

/-- An operation with its arguments. -/
inductive Request where
  | start
  | pause
  | resume
  | update (resources : ResourceSpec)
  | checkpoint (config : CheckpointConfig)
  | delete
  | kill (signal : Signal) (all : Bool)
  | exec (execId : String) (options : ExecOptions)
  deriving DecidableEq

/-- The operation of a request. -/
def Request.operation : Request → Operation
  | .start => .start
  | .pause => .pause
  | .resume => .resume
  | .update _ => .update
  | .checkpoint _ => .checkpoint
  | .delete => .delete
  | .kill .. => .kill
  | .exec .. => .exec

/-- What a controller can be asked to do. -/
inductive Method where
  | start
  | kill
  | delete
  | update
  | exec
  | resume
  | checkpoint
  deriving DecidableEq

namespace Method

/-- Every method. -/
def all : List Method := [.start, .kill, .delete, .update, .exec, .resume, .checkpoint]

/-- The name of a method. -/
def name : Method → String
  | .start => "start"
  | .kill => "kill"
  | .delete => "delete"
  | .update => "update"
  | .exec => "exec"
  | .resume => "resume"
  | .checkpoint => "checkpoint"

theorem mem_all (m : Method) : m ∈ all := by
  cases m <;> decide

end Method

/-- A call of a controller: the identity of the process, and the arguments. -/
inductive Call where
  | start (id : String)
  | kill (id : String) (signal : Signal) (all : Bool)
  | delete (id : String)
  | update (id : String) (resources : ResourceSpec)
  | exec (id execId : String) (options : ExecOptions)
  | resume (id : String)
  | checkpoint (id : String) (config : CheckpointConfig)
  deriving DecidableEq

/-- The method of a call. -/
def Call.method : Call → Method
  | .start _ => .start
  | .kill .. => .kill
  | .delete _ => .delete
  | .update .. => .update
  | .exec .. => .exec
  | .resume _ => .resume
  | .checkpoint .. => .checkpoint

/-- The call that performs a request for the process `id`. -/
def Request.call? (id : String) : Request → Option Call
  | .start => some (.start id)
  | .pause => none
  | .resume => some (.resume id)
  | .update resources => some (.update id resources)
  | .checkpoint config => some (.checkpoint id config)
  | .delete => some (.delete id)
  | .kill signal all => some (.kill id signal all)
  | .exec execId options => some (.exec id execId options)

/-- No request is answered without the controller. -/
theorem Request.dispatch_ne_observe (r : Request) (s : State) :
    s.dispatch r.operation ≠ .ok .observe := by
  cases s <;> cases r <;> exact fun h => nomatch h

/-- What is delegated to the controller has a call. -/
theorem Request.call?_ne_none (r : Request) {id : String} {s : State} {next : Option State}
    (h : s.dispatch r.operation = .ok (.delegate next)) : r.call? id ≠ none := by
  cases r with
  | pause => cases s <;> cases h
  | _ => exact fun hc => nomatch hc

/-- What a successful operation gives to its caller. -/
inductive Answer where
  | done
  /-- A session was started. -/
  | session (handle : ExecHandle)
  deriving DecidableEq

/-- A question about a process, which changes nothing. -/
inductive Query where
  | status
  | state
  | id
  | exitStatus
  | snapshot
  /-- The text that shows the process to a developer. -/
  | description
  deriving DecidableEq

/-- What can be done to an init process. -/
inductive Action where
  | request (request : Request)
  /-- The report that the process has ended with a code. -/
  | exited (code : Int32)
  | query (query : Query)
  deriving DecidableEq

/-- What the one who acted gets. -/
inductive Reply where
  | answer (answer : Answer)
  | failed (error : LifecycleError)
  | text (text : String)
  | state (state : State)
  | exit (exit : Option ExitStatus)
  | snapshot (snapshot : ProcessSnapshot)
  deriving DecidableEq

/-- The reply that the result of an operation makes. -/
def Reply.ofResult : Except LifecycleError Answer → Reply
  | .ok a => .answer a
  | .error e => .failed e

/-- The text of a recorded exit. -/
def ExitStatus.text (s : ExitStatus) : String :=
  Text.record "ExitStatus" [("code", toString s.code.toInt), ("exited_at", s.exitedAt.text)]

/-- The text that shows a process to a developer. -/
def ProcessSnapshot.text (s : ProcessSnapshot) : String :=
  Text.openRecord "InitProcess" [
    ("id", Text.quoted s.id),
    ("state", s.state.label),
    ("exit", Text.optional (s.exit.map ExitStatus.text))]

/-- The reply to a question about a process that looks like `s`. -/
def Query.reply (s : ProcessSnapshot) : Query → Reply
  | .status =>
    match s.state.status with
    | .ok name => .text name
    | .error r => .failed (.rejected r)
  | .state => .state s.state
  | .id => .text s.id
  | .exitStatus => .exit s.exit
  | .snapshot => .snapshot s
  | .description => .text s.text

end ContainerInit
