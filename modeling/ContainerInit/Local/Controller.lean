import ContainerInit.Host.Basic
import ContainerInit.Lifecycle.Request
import ContainerInit.Log

/-!
# A controller of local processes

Runs an init process, and sessions beside it, as plain processes of a host. There are no limits on
resources and no checkpoints; a kill and a resume are signals.

- **What it knows** (`LocalController`): of the init process its number, the child as long as nobody
  waits for it, and its exit once that was seen; and the sessions.
- **Sections** (`Section`): what is done while one of the two locks is held, as one step. A call is
  one section or two; a wait has a section at its beginning and one for the exit, and in between it
  looks at the child without letting it go.
- **Errors come first**: a section that fails leaves the controller as it was
  (`Section.refuse`).
- **Signals are on record** (`Section.ofKill`): a section that requests one says so, whatever comes
  of it.
-/

namespace ContainerInit

open Host (Ending)

/-- What is known of the init process. -/
structure Tracked where
  /-- Its number, once it was started. -/
  pid : Option Nat := none
  /-- The child, unless somebody has taken it to wait for it. -/
  child : Option Nat := none
  /-- Its exit code, once the exit was seen. -/
  exit : Option Int32 := none
  deriving DecidableEq

/-- A controller and the host it works on. -/
structure LocalController where
  /-- The command of the init process. -/
  launch : ExecOptions
  init : Tracked := {}
  /-- The processes of the sessions. -/
  sessions : List (String × Nat) := []
  host : Host := {}

/-- A request to send a signal by number: to a process, or to all processes of a group. -/
structure Kill where
  pid : Nat
  group : Bool
  number : Nat
  deriving DecidableEq

/-- The outcome of one step of the controller: a result, the controller after it, and what it
reports. -/
structure Section (α : Type) where
  result : Except ControllerError α
  controller : LocalController
  notices : List Notice := []
  /-- The requests to send a signal, whether the system granted them or not. Sessions are ended
  through their children, and so are not among them. -/
  kills : List Kill := []

/-- A step that fails and changes nothing. -/
def Section.refuse {α : Type} (c : LocalController) (e : ControllerError)
    (notices : List Notice := []) : Section α :=
  { result := .error e, controller := c, notices }

/-- A step that requests to send a signal, and fails if the system refuses that. -/
def Section.ofKill (c : LocalController) (kill : Kill) (refused : Host.Errno → ControllerError) :
    Section Answer :=
  match c.host.signal kill.pid kill.group kill.number with
  | .error e => { result := .error (refused e), controller := c, kills := [kill] }
  | .ok host => { result := .ok .done, controller := { c with host }, kills := [kill] }

theorem Section.ofKill_kills (c : LocalController) (kill : Kill)
    (refused : Host.Errno → ControllerError) : (ofKill c kill refused).kills = [kill] := by
  unfold ofKill
  split <;> rfl

theorem Section.ofKill_notices (c : LocalController) (kill : Kill)
    (refused : Host.Errno → ControllerError) : (ofKill c kill refused).notices = [] := by
  unfold ofKill
  split <;> rfl

/-- The exit code that stands for an ending. -/
def exitCodeOf : Ending → Int32
  | .exited status => Int32.ofNat status.toNat
  | .signaled n => signalExitBase + Int32.ofNat n

/-- The greatest number of a signal that a wait can report. -/
def reportableSignals : Nat := 31

/-- What a wait reports of an ending: signals beyond the standard ones are beyond it. -/
def reportedCode (e : Ending) : Except ControllerError Int32 :=
  match e with
  | .exited _ => .ok (exitCodeOf e)
  | .signaled n =>
    if n ≤ reportableSignals then .ok (exitCodeOf e)
    else .error (.io Host.Errno.invalidArgument.named)

/-- Starts a command on a host. -/
def Host.launch (h : Host) (o : ExecOptions) (ownGroup : Bool) :
    Except ControllerError (Nat × Host) :=
  match o.args with
  | [] => .error (.spawnFailed "empty command")
  | program :: _ =>
    if o.terminal then .error (.unsupported "terminal sessions need a pty-backed controller")
    else
      match h.spawn o ownGroup with
      | .ok started => .ok started
      | .error fault => .error (.spawnFailed (program ++ ": " ++ fault.message))

namespace LocalController

/-- The number of an init process that was started and whose exit was not seen. -/
def livePid? (c : LocalController) : Option Nat :=
  match c.init.pid, c.init.exit with
  | some pid, none => some pid
  | _, _ => none

/-! ## Starting and signalling -/

/-- Starts the init process, once. -/
def start (c : LocalController) (id : String) : Section Answer :=
  if c.init.pid.isSome then .refuse c (.failed ("process " ++ id ++ " already started"))
  else
    match c.host.launch c.launch true with
    | .error e => .refuse c e
    | .ok (pid, host) =>
      { result := .ok .done
        controller := { c with host, init := { c.init with pid := some pid, child := some pid } }
        notices := [.initSpawned id pid c.launch.args] }

/-- Sends a signal to the init process, or to its whole group. -/
def signal (c : LocalController) (id : String) (signal : Signal) (group : Bool) :
    Section Answer :=
  match c.livePid? with
  | none => .refuse c (.notFound id)
  | some pid => .ofKill c ⟨pid, group, signal.number⟩ fun e => .signalFailed id signal.text e.named

/-! ## Deleting -/

/-- Looks whether the init process has ended, and lets it go if so. It may not be deleted while it
runs, nor while somebody else waits for it and has not seen its exit. -/
def releaseInit (c : LocalController) (id : String) : Section Unit :=
  let forget (init : Tracked) : Tracked := { init with child := none }
  match c.livePid? with
  | none => { result := .ok (), controller := { c with init := forget c.init } }
  | some _ =>
    match c.init.child with
    | none => .refuse c (.stillRunning id)
    | some child =>
      match c.host.ending? child with
      | none => .refuse c (.stillRunning id)
      | some e =>
        { result := .ok ()
          controller :=
            { c with
              init := forget { c.init with exit := some (exitCodeOf e) }
              host := c.host.reap child } }

/-- Ends a session if it is still running, and lets its process go. -/
def endSession (id : String) (acc : Host × List Notice) (session : String × Nat) :
    Host × List Notice :=
  let (host, notices) := acc
  match host.ending? session.2 with
  | some _ => (host.reap session.2, notices)
  | none =>
    let killed := (host.signal session.2 false Host.Process.killNumber).toOption.getD host
    (killed.reap session.2, notices ++ [.sessionOutlived id session.1])

/-- Ends all sessions. -/
def drain (c : LocalController) (id : String) : Section Answer :=
  let (host, notices) := c.sessions.foldl (endSession id) (c.host, [])
  { result := .ok .done
    controller := { c with sessions := [], host }
    notices := notices ++ [.initDeleted id] }

/-! ## Sessions -/

/-- Looks whether there is an init process to have sessions beside. -/
def checkLive (c : LocalController) (id : String) : Section Unit :=
  match c.livePid? with
  | none => .refuse c (.notFound id)
  | some _ => { result := .ok (), controller := c }

/-- Starts a session. -/
def openSession (c : LocalController) (id execId : String) (options : ExecOptions) :
    Section Answer :=
  if (c.sessions.lookup execId).isSome then
    .refuse c (.failed ("exec " ++ execId ++ " already exists in " ++ id))
  else
    match c.host.launch options false with
    | .error e => .refuse c e
    | .ok (pid, host) =>
      { result := .ok (.session ⟨execId, some (UInt32.ofNat pid)⟩)
        controller := { c with host, sessions := c.sessions ++ [(execId, pid)] }
        notices := [.sessionSpawned id execId pid] }

/-! ## What is not supported -/

/-- New limits, of which only none at all can be set. -/
def update (c : LocalController) (id : String) (resources : ResourceSpec) : Section Answer :=
  if resources.isEmpty then { result := .ok .done, controller := c, notices := [.emptyUpdate id] }
  else .refuse c (.unsupported "resource updates need a cgroup-backed controller")
    [.updateRequested id resources]

/-- A checkpoint, which cannot be taken. -/
def checkpoint (c : LocalController) (id : String) (config : CheckpointConfig) :
    Section Answer :=
  .refuse c (.unsupported "checkpoint needs a CRIU-backed controller")
    [.checkpointRequested id config.imagePath]

/-! ## Waiting -/

/-- What somebody who wants to wait finds. -/
inductive Waiting where
  /-- The exit was seen before. -/
  | over (code : Int32)
  /-- The child is to be waited for. -/
  | child (pid : Nat)
  deriving DecidableEq

/-- Takes the child to wait for it, unless its exit is known. -/
def takeChild (c : LocalController) (id : String) : Section Waiting :=
  match c.init.exit, c.init.child with
  | some code, _ => { result := .ok (.over code), controller := c }
  | none, some pid =>
    { result := .ok (.child pid), controller := { c with init := { c.init with child := none } } }
  | none, none => .refuse c (.notFound id)

/-- What a waiter sees of the child it has taken; nothing as long as the child runs. -/
def seen? (c : LocalController) (pid : Nat) : Option (Except ControllerError Int32) :=
  (c.host.ending? pid).map reportedCode

/-- Records the exit that a waiter has seen. -/
def recordExit (c : LocalController) (code : Int32) : LocalController :=
  { c with init := { c.init with exit := some code } }

/-- Lets the child go whose exit is recorded. -/
def releaseChild (c : LocalController) (id : String) (pid : Nat) (code : Int32) :
    Section Int32 :=
  { result := .ok code
    controller := { c with host := c.host.reap pid }
    notices := [.initExited id pid code] }

end LocalController

end ContainerInit
