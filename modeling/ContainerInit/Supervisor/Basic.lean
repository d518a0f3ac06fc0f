import ContainerInit.Config
import ContainerInit.Local.Session
import ContainerInit.Wire.Basic

/-!
# Supervising an init process

One command is run as an init process: it is started, its exit is awaited and reported, and it is
deleted. An interrupt is passed on as a signal to end, and after the grace period by one that cannot
be ignored.

- **Two tasks** (`Supervision`): a waiter, which waits for the exit and reports it, and the main
  task, which deletes the process once the waiter is done (`Phase`).
- **Turns** (`Supervision.step?`): either task goes on, an interrupt arrives, the grace period ends,
  or the host does something. Which of them comes when is open.
- **The report** (`WaiterTask`): the waiter reports an exit once, whatever the wait gives; where it
  fails, the unknown code is reported.
-/

namespace ContainerInit

/-- How far the waiter has come. -/
inductive WaiterTask where
  | waiting (stage : LocalStage)
  /-- The exit is to be reported. -/
  | reporting (code : Int32)
  /-- It is done, and the main task has not seen it. -/
  | done
  /-- It is done, and the main task has seen it. -/
  | joined

/-- A failure that ends the supervision, in the context in which it came. -/
structure Failure where
  context : String
  cause : Option String := none
  deriving DecidableEq

/-- The text of a failure. -/
def Failure.text (f : Failure) : String :=
  match f.cause with
  | none => "Error: " ++ f.context ++ "\n"
  | some cause =>
    "Error: " ++ f.context ++ "\n\nCaused by:\n    " ++
      String.intercalate "\n    " (cause.splitOn "\n") ++ "\n"

/-- What the main task is doing. -/
inductive Phase where
  /-- It waits for the waiter or an interrupt. -/
  | waiting
  /-- It has asked the process to end, and waits for the waiter until the clock shows `deadline`. -/
  | terminating (deadline : Nat)
  /-- It has killed the process, and waits for the waiter. -/
  | killing
  /-- The process is to be deleted. -/
  | deleting
  | failed (failure : Failure)
  /-- The last look of the process was written, and this is the exit code. -/
  | finished (code : Int32)

/-- A supervision under way. -/
structure Supervision where
  config : Config
  process : LocalProcess
  waiter : WaiterTask
  phase : Phase := .waiting
  /-- The codes that were reported. -/
  reported : List Int32 := []
  /-- The last look of the process, each time it was written. -/
  printed : List ProcessSnapshot := []

/-- What happens next. -/
inductive Turn where
  /-- The waiter goes on. -/
  | waiter
  /-- The main task sees that the waiter is done. -/
  | join
  /-- The main task sees an interrupt. -/
  | interrupt
  /-- The main task sees that the grace period is over. -/
  | expire
  /-- The main task deletes the process. -/
  | delete
  /-- The host goes on. -/
  | tick
  deriving DecidableEq

namespace Supervision

/-- Adds a notice to the log. -/
def note (s : Supervision) (n : Notice) : Supervision :=
  { s with process := { s.process with log := s.process.log ++ [.notice n] } }

/-- Makes a request of the process. -/
def request? (s : Supervision) (r : Request) :
    Option (Except LifecycleError Answer × Supervision) :=
  match (InitProcess.operate LocalController.asController r).run s.process with
  | .ok (result, process) => some (result, { s with process })
  | .error _ => none

/-- Sends a signal to all of the process; that it could not be sent is no reason to stop. -/
def kill? (s : Supervision) (signal : Signal) : Option Supervision := do
  let (result, s) ← s.request? (.kill signal true)
  match result with
  | .ok _ => return s
  | .error e => return s.note (.signalFailed signal e.message)

/-- Writes how the process looks. -/
def print (s : Supervision) : Supervision :=
  let snapshot := s.process.snapshot
  let write (h : Host) : Host :=
    { h with written := h.written ++ [(.host .output, snapshot.toTree.render ++ "\n")] }
  { s with process := s.process.letRun write, printed := s.printed ++ [snapshot] }

/-- The next step of the waiter. -/
def waiterStep? (s : Supervision) : Option Supervision :=
  match s.waiter with
  | .waiting (.finished (.ok (.code code))) => some { s with waiter := .reporting code }
  | .waiting (.finished (.error e)) =>
    some { s.note (.waitFailed s.config.id e.message) with
      waiter := .reporting unknownExitCode }
  | .waiting stage => do
    let (controller, stage, notices) ← s.process.controller.step? stage
    return { s with
      waiter := .waiting stage
      process := { s.process with
        controller, log := s.process.log ++ notices.map LogEntry.notice } }
  | .reporting code =>
    match (InitProcess.setExited LocalController.asController code).run s.process with
    | .ok ((), process) =>
      some { s with process, waiter := .done, reported := s.reported ++ [code] }
    | .error _ => none
  | .done | .joined => none

/-- The main task sees that the waiter is done. -/
def join? (s : Supervision) : Option Supervision :=
  match s.phase, s.waiter with
  | .waiting, .done | .terminating _, .done | .killing, .done =>
    some { s with waiter := .joined, phase := .deleting }
  | _, _ => none

/-- The main task sees an interrupt. -/
def interrupt? (s : Supervision) : Option Supervision :=
  match s.phase with
  | .waiting => do
    let s ← (s.note (.interrupted s.config.id)).kill? .terminate
    return { s with phase := .terminating (s.process.clock + s.config.killGrace.toNat) }
  | _ => none

/-- The main task sees that the grace period is over. -/
def expire? (s : Supervision) : Option Supervision :=
  match s.phase with
  | .terminating deadline =>
    if deadline ≤ s.process.clock then do
      let s ← (s.note (.graceEnded s.config.killGrace)).kill? .kill
      return { s with phase := .killing }
    else none
  | _ => none

/-- The main task deletes the process, and writes how it looks. -/
def delete? (s : Supervision) : Option Supervision :=
  match s.phase with
  | .deleting => do
    let (result, s) ← s.request? .delete
    match result with
    | .error e =>
      return { s with phase := .failed ⟨"failed to delete init process", some e.message⟩ }
    | .ok _ =>
      let code := (s.process.slot.exit.map (·.code)).getD 0
      return { s.print.note (.supervisorExiting s.config.id code) with phase := .finished code }
  | _ => none

/-- The host goes on. -/
def tick? (s : Supervision) : Option Supervision :=
  s.process.controller.host.tick?.map fun host =>
    { s with process := s.process.letRun fun _ => host }

/-- What happens at a turn, if it can happen now. -/
def step? (s : Supervision) : Turn → Option Supervision
  | .waiter => s.waiterStep?
  | .join => s.join?
  | .interrupt => s.interrupt?
  | .expire => s.expire?
  | .delete => s.delete?
  | .tick => s.tick?

end Supervision

/-! ## The beginning -/

/-- How a supervision begins: it is under way, or it has failed before. -/
inductive Beginning where
  | underWay (supervision : Supervision)
  | failed (failure : Failure) (log : Log)

/-- Begins to supervise a command: the settings are loaded, and the process is started. -/
def Supervision.begin (args : List String) (lookup : String → Option String) (fresh : Uuid)
    (host : Host) : Beginning :=
  match Config.load lookup fresh with
  | .error e => .failed ⟨"invalid shim configuration", some e.message⟩ []
  | .ok config =>
    let ready : Log := [.notice (.logReady config.traceJson)]
    if args.isEmpty then .failed ⟨"usage: shim <command> [args...]", none⟩ ready
    else
      let process := InitProcess.create config.id { launch := { args }, host } .log
      let log := ready ++ [.notice (.supervisorStarting config.id args)] ++ process.log
      let process : LocalProcess := { process with log, clock := host.clock }
      match (InitProcess.operate LocalController.asController .start).run process with
      | .error _ => .failed ⟨"failed to start init process", none⟩ process.log
      | .ok (.error e, process) =>
        .failed ⟨"failed to start init process", some e.message⟩ process.log
      | .ok (.ok _, process) =>
        let s : Supervision := { config, process, waiter := .waiting (.arriving config.id) }
        .underWay (s.note (.initRunning config.id process.controller.init.pid))

end ContainerInit
