import ContainerInit.InitProcess

/-!
# Rehearsals

A script of steps on an init process whose controller follows a plan.

- **Plans** (`Plan`): for each method the acts of the controller, in the order of its calls. An
  act takes its time, does steps of its own on the process, and succeeds or fails. A method that
  has run out of acts succeeds.
- **Scripts** (`rehearse`): the steps of a caller one after the other. Each gives a report of its
  result and of all that happened during it (`Passage`).
-/

namespace ContainerInit

/-- One step of a script: an action, or the attempt to send what is no signal, which does not
reach the process. -/
inductive Step where
  | action (action : Action)
  | noSignal (error : InvalidSignal)
  deriving DecidableEq

/-- The step that sends the signal of a given number. -/
def Step.kill (number : UInt32) (all : Bool) : Step :=
  match Signal.ofNumber number with
  | .ok signal => .action (.request (.kill signal all))
  | .error e => .noSignal e

/-- The result of a step. -/
inductive Outcome where
  | reply (reply : Reply)
  | noSignal (error : InvalidSignal)
  deriving DecidableEq

/-- What a controller does when it is called. -/
structure Act where
  /-- How many milliseconds it takes before anything else. -/
  delay : Nat := 0
  /-- What it does on the process during the call. -/
  hooks : List Step := []
  /-- The error it fails with, if it fails. -/
  error : Option ControllerError := none
  /-- What it gives for a session. -/
  handle : Option ExecHandle := none
  deriving DecidableEq

/-- What a call gives that succeeds, where the controller has a session to give or none. -/
def Call.success (handle : Option ExecHandle) : Call → Answer
  | .exec _ execId _ => .session (handle.getD ⟨execId, none⟩)
  | _ => .done

/-- The end of an act. -/
def Act.conclude (act : Act) (call : Call) : Except ControllerError Answer :=
  match act.error with
  | some e => .error e
  | none => .ok (call.success act.handle)

/-- The acts of a controller by method, each list in the order of the calls; where there is no
act, the call succeeds at once. -/
structure Plan where
  acts : Method → List (Option Act)

namespace Plan

/-- The plan of a controller that always succeeds. -/
def empty : Plan :=
  ⟨fun _ => []⟩

/-- Takes the next act of a method. -/
def next (p : Plan) (m : Method) : Option Act × Plan :=
  match p.acts m with
  | [] => (none, p)
  | act :: rest => (act, ⟨fun m' => if m' = m then rest else p.acts m'⟩)

/-- How many acts a plan has. -/
def size (p : Plan) : Nat :=
  (Method.all.flatMap p.acts).length

end Plan

/-- A step inside an act, its result, and how the process looked after it. -/
structure Aside where
  step : Step
  outcome : Outcome
  state : State
  exit : Option ExitStatus
  deriving DecidableEq

/-- The state of a controller that follows a plan: the acts to come, and the steps that were done
inside acts, in the order in which they ended. -/
structure Player where
  plan : Plan
  asides : List Aside := []

/-- Does one step. -/
def Step.run (controller : Controller Player) : Step → Run Player Outcome
  | .action a => return .reply (← InitProcess.perform controller a)
  | .noSignal e => return .noSignal e

namespace Player

/-- Takes the next act of a method out of the plan. -/
def nextAct (m : Method) : Run Player (Option Act) := do
  let p ← get
  let (act, plan) := p.controller.plan.next m
  set { p with controller := { p.controller with plan } }
  return act

/-- Does a step inside an act. -/
def runAside (controller : Controller Player) (step : Step) : Run Player Unit := do
  let outcome ← step.run controller
  modify fun p => { p with
    controller.asides := p.controller.asides ++ [⟨step, outcome, p.slot.state, p.slot.exit⟩] }

/-- The controller that follows its plan. Acts lie inside each other at most `depth` deep: there
are no more of them. -/
def follow : (depth : Nat) → Controller Player
  | 0, call => return .ok (call.success none)
  | depth + 1, call => do
    match ← nextAct call.method with
    | none => return .ok (call.success none)
    | some act =>
      InitProcess.sleep act.delay
      act.hooks.forM (runAside (follow depth))
      return act.conclude call

end Player

/-! ## Scripts -/

/-- A step of a script: its result, how the process looked after it, and what happened in it. -/
structure Passage where
  outcome : Outcome
  state : State
  exit : Option ExitStatus
  calls : List Call
  events : List Event
  log : Log
  asides : List Aside
  deriving DecidableEq

/-- The passage from one look of a process to a later one. -/
def Passage.between (outcome : Outcome) (before after : InitProcess Player) : Passage where
  outcome
  state := after.slot.state
  exit := after.slot.exit
  calls := after.calls.drop before.calls.length
  events := after.events.events.drop before.events.size
  log := after.log.drop before.log.length
  asides := after.controller.asides.drop before.controller.asides.length

/-- Does the steps of a script one after the other. -/
def rehearse (depth : Nat) (p : InitProcess Player) : List Step → Except Halt (List Passage)
  | [] => .ok []
  | step :: steps => do
    let (outcome, q) ← (step.run (Player.follow depth)).run p
    let rest ← rehearse depth q steps
    return .between outcome p q :: rest

end ContainerInit
