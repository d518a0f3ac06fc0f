import ContainerInit.InitProcess
import ContainerInit.Local.Stage

/-!
# One caller at work on local processes

A script of steps on an init process and on the local controller under it. The processes of the host
run while the caller waits for one of them.

- **Through the process** (`LocalController.asController`): what the process asks of its controller.
- **Waiting** (`Waiter`): in the foreground, or in the background until it is joined. A waiter goes
  through the stages of a wait (`Waiter.advance`).
-/

namespace ContainerInit

/-- An init process over a local controller. -/
abbrev LocalProcess := InitProcess LocalController

namespace LocalProcess

/-- Runs a step of the controller, and logs what it reports. -/
def runSection {α : Type} (f : LocalController → Section α) :
    Run LocalController (Except ControllerError α) := do
  let p ← get
  let s := f p.controller
  set { p with controller := s.controller, log := p.log ++ s.notices.map LogEntry.notice }
  return s.result

/-- Lets the processes of the host go on. -/
def letRun (f : Host → Host) (p : LocalProcess) : LocalProcess :=
  let host := f p.controller.host
  { p with controller.host := host, clock := host.clock }

end LocalProcess

/-- The local controller of a process. -/
def LocalController.asController : Controller LocalController :=
  fun call => LocalProcess.runSection fun c => c.call call

/-! ## Waiting -/

/-- A wait, at the stage that it has reached. -/
structure Waiter where
  stage : LocalStage

namespace Waiter

/-- The result of a wait that is over. -/
def result? (w : Waiter) : Option (Except ControllerError Int32) :=
  match w.stage with
  | .finished (.ok (.code code)) => some (.ok code)
  | .finished (.error e) => some (.error e)
  | _ => none

/-- Takes up to `steps` steps of a wait. -/
def advance : (steps : Nat) → Waiter → LocalProcess → Waiter × LocalProcess
  | 0, w, p => (w, p)
  | steps + 1, w, p =>
    match p.controller.step? w.stage with
    | none => (w, p)
    | some (controller, stage, notices) =>
      advance steps ⟨stage⟩ { p with controller, log := p.log ++ notices.map LogEntry.notice }

/-- The number of stages of a wait. -/
def stageCount : Nat := 4

/-- Goes on as far as it can now. -/
def catchUp (w : Waiter) (p : LocalProcess) : Waiter × LocalProcess :=
  w.advance stageCount p

/-- Begins a wait. -/
def begin (id : String) (p : LocalProcess) : Waiter × LocalProcess :=
  catchUp ⟨.arriving id⟩ p

/-- Waits for the child, if that is what the waiter is at. -/
def finish (w : Waiter) (p : LocalProcess) : Waiter × LocalProcess :=
  match w.stage with
  | .awaiting _ pid => w.catchUp (p.letRun fun h => h.runToEnd pid)
  | _ => (w, p)

end Waiter

/-! ## Scripts -/

/-- A step of a script. -/
inductive LocalStep where
  /-- An action on the process. -/
  | action (action : Action)
  /-- The report of an exit with the code that was last seen. -/
  | exitedAsSeen
  /-- A call of the controller. -/
  | call (call : Call)
  | wait
  | waitInBackground
  /-- Waits for the end of the wait in the background. -/
  | join
  /-- Asks whether the init process was started. -/
  | hasPid
  /-- Waits until the init process has ended, without letting it go. -/
  | settle
  | noSignal (error : InvalidSignal)
  deriving DecidableEq

/-- The step that makes the controller send the signal of a given number. -/
def LocalStep.kill (id : String) (number : UInt32) (all : Bool) : LocalStep :=
  match Signal.ofNumber number with
  | .ok signal => .call (.kill id signal all)
  | .error e => .noSignal e

/-- The result of a step. -/
inductive LocalOutcome where
  | reply (reply : Reply)
  | code (code : Int32)
  | flag (flag : Bool)
  | settled (started : Bool)
  | noSignal (error : InvalidSignal)
  /-- The step waits for something that never comes. -/
  | stuck
  deriving DecidableEq

/-- A caller in the middle of a script. -/
structure LocalSession where
  process : LocalProcess
  /-- The wait in the background. -/
  waiter : Option Waiter := none
  /-- The code that was last seen. -/
  seen : Int32 := 0

namespace LocalSession

/-- A caller that has done nothing. -/
def create (id : String) (launch : ExecOptions) (host : Host) : LocalSession :=
  { process := { InitProcess.create id { launch, host } .memory with clock := host.clock } }

/-- How long a wait in the background is given before the script goes on, in milliseconds. -/
def backgroundPause : Nat := 10

/-- The session after a wait, and its result. -/
def conclude (s : LocalSession) (w : Waiter) : LocalOutcome × LocalSession :=
  match w.result? with
  | some (.ok code) => (.code code, { s with seen := code })
  | some (.error e) => (.reply (.failed (.controller e)), s)
  | none => (.stuck, s)

/-- Does one step of a script. -/
def step (s : LocalSession) : LocalStep → Except Halt (LocalOutcome × LocalSession)
  | .action a => do
    let (reply, process) ← (InitProcess.perform LocalController.asController a).run s.process
    return (.reply reply, { s with process })
  | .exitedAsSeen => do
    let report := InitProcess.perform LocalController.asController (.exited s.seen)
    let (reply, process) ← report.run s.process
    return (.reply reply, { s with process })
  | .call call => do
    let (result, process) ← (LocalController.asController call).run s.process
    let reply := match result with
      | .ok a => .answer a
      | .error e => .failed (.controller e)
    return (.reply reply, { s with process })
  | .wait =>
    let (w, process) := Waiter.begin s.process.id s.process
    let (w, process) := w.finish process
    return { s with process }.conclude w
  | .waitInBackground =>
    let (w, process) := Waiter.begin s.process.id s.process
    let (w, process) := w.catchUp (process.letRun fun h => h.elapse backgroundPause)
    return (.reply (.answer .done), { s with process, waiter := some w })
  | .join =>
    match s.waiter with
    | none => return (.stuck, s)
    | some w =>
      let (w, process) := w.finish s.process
      return { s with process, waiter := none }.conclude w
  | .hasPid => return (.flag s.process.controller.init.pid.isSome, s)
  | .settle =>
    match s.process.controller.init.pid with
    | none => return (.settled false, s)
    | some pid =>
      return (.settled true, { s with process := s.process.letRun fun h => h.runToEnd pid })
  | .noSignal e => return (.noSignal e, s)

end LocalSession

/-- A step of a script: its result, the state of the process after it, and what happened in it. -/
structure LocalPassage where
  outcome : LocalOutcome
  state : State
  exit : Option ExitStatus
  events : List Event
  log : Log

/-- Does the steps of a script one after the other. -/
def LocalSession.play (s : LocalSession) : List LocalStep → Except Halt (List LocalPassage)
  | [] => .ok []
  | step :: steps => do
    let (outcome, next) ← s.step step
    let passage : LocalPassage := {
      outcome
      state := next.process.slot.state
      exit := next.process.slot.exit
      events := next.process.events.events.drop s.process.events.size
      log := next.process.log.drop s.process.log.length }
    return passage :: (← next.play steps)

end ContainerInit
