import ContainerInit.Lifecycle.Request
import ContainerInit.Lifecycle.Slot
import ContainerInit.Sink
import ContainerInit.Span

/-!
# Init processes

An init process owns the state of one process and performs every operation on it through a
controller. Here one caller acts on it; what the controller does in between, it does in the same
monad, so it may act on the process again.

- **Operations** (`operate`): dispatched in the current state, performed by the controller, and
  committed. Rejections and failures are reported as events and leave the state alone.
- **Exits** (`setExited`): the report of an exit never fails. A frozen process is resumed first.
- **Questions** (`ask`): answered from the slot.
- **Halts** (`Halt`): an operation inside the side effect of another one waits for itself. A
  violation of the tables ends the run as well; no run has one.
-/

namespace ContainerInit

/-- Why a call never returns. -/
inductive Halt where
  /-- An operation waits for the end of the operation that it is part of. -/
  | deadlock
  /-- Two tables of the program disagree. -/
  | violation (violation : Violation)
  deriving DecidableEq

/-- An init process with all that can be observed of its run. -/
structure InitProcess (κ : Type) where
  id : String
  slot : Slot := {}
  /-- An operation is under way. -/
  busy : Bool := false
  /-- Where events go. -/
  sink : Sink := .log
  /-- The events of a sink that keeps them. -/
  events : MemorySink := {}
  log : Log := []
  /-- The calls of the controller, in the order in which they began. -/
  calls : List Call := []
  /-- Milliseconds since the start of 1970. -/
  clock : Nat := 0
  /-- The state of the controller. -/
  controller : κ

/-- A computation on an init process. -/
abbrev Run (κ : Type) := StateT (InitProcess κ) (Except Halt)

/-- A controller: what it does when it is called. -/
abbrev Controller (κ : Type) := Call → Run κ (Except ControllerError Answer)

namespace InitProcess

variable {κ : Type}

/-- A process that has not been started. -/
def create (id : String) (controller : κ) (sink : Sink) : InitProcess κ :=
  { id, controller, sink, log := [.notice (.created id)] }

/-- A process that was found in a state. -/
def restore (id : String) (controller : κ) (state : State) (sink : Sink) :
    InitProcess κ :=
  { id, controller, sink, slot := { state },
    log := [.notice (.created id), .notice (.restored id state)] }

/-- How a process looks. -/
def snapshot (p : InitProcess κ) : ProcessSnapshot :=
  ⟨p.id, p.slot.state, p.slot.exit⟩

/-! ## Steps -/

/-- Adds entries to the log. -/
def record (entries : Log) : Run κ Unit :=
  modify fun p => { p with log := p.log ++ entries }

/-- Emits an event. -/
def emit (severity : Severity) (payload : Payload) : Run κ Unit :=
  modify fun p =>
    let e : Event := ⟨UInt64.ofNat (p.clock * 1000000), severity, p.id, payload⟩
    match p.sink with
    | .memory => { p with events := p.events.emit e }
    | .log => { p with log := p.log ++ Sink.log.entries e }

/-- Lets time pass. -/
def sleep (millis : Nat) : Run κ Unit :=
  modify fun p => { p with clock := p.clock + millis }

/-- Runs a computation inside the span of an operation. -/
def withSpan {α : Type} (operation : Operation) (body : Run κ α) : Run κ α := do
  let opened ← get
  record (Span.opening operation opened.id)
  let a ← body
  let closed ← get
  record (Span.closing operation (closed.clock - opened.clock))
  return a

/-- Runs a computation as the only operation on the process. -/
def exclusively {α : Type} (body : Run κ α) : Run κ α := do
  if (← get).busy then
    throw .deadlock
  else
    modify fun p => { p with busy := true }
    let a ← body
    modify fun p => { p with busy := false }
    return a

/-- Takes the result of a step that keeps to the tables. -/
def checked {α : Type} : Except Violation α → Run κ α
  | .ok a => return a
  | .error v => throw (.violation v)

/-- Calls the controller. -/
def consult (controller : Controller κ) (call : Call) : Run κ (Except ControllerError Answer) := do
  modify fun p => { p with calls := p.calls ++ [call] }
  controller call

/-! ## Operations -/

/-- Installs the successor state of a successful side effect, and tells what became of it. -/
def commit (operation : Operation) (source next : State) : Run κ Unit := do
  match ← checked ((← get).slot.commit source next) with
  | .superseded current => emit .info (.transitionSuperseded operation next current)
  | .installed previous slot =>
    modify fun p => { p with slot }
    emit .info (.stateChanged operation previous next)

/-- Performs an accepted request, which was dispatched in the state `source`. -/
def carryOut (controller : Controller κ) (request : Request) (source : State)
    (next : Option State) : Run κ (Except LifecycleError Answer) := do
  match request.call? (← get).id with
  | none => throw (.violation .nothingToPerform)
  | some call =>
    match ← consult controller call with
    | .error e =>
      record (Span.recordError e.message)
      emit .error (.controllerFailed request.operation e.message)
      return .error (.controller e)
    | .ok a =>
      match next with
      | none => pure ()
      | some target => commit request.operation source target
      record (Span.recordResult true)
      return .ok a

/-- Dispatches a request in the current state, and performs it if it is accepted. -/
def attempt (controller : Controller κ) (request : Request) :
    Run κ (Except LifecycleError Answer) := do
  let source := (← get).slot.state
  match source.dispatch request.operation with
  | .error rejection =>
    record (Span.recordError rejection.message)
    emit .info (.operationRejected request.operation rejection.state)
    return .error (.rejected rejection)
  | .ok .observe => throw (.violation .nothingToPerform)
  | .ok (.delegate next) => carryOut controller request source next

/-- An operation on a process. -/
def operate (controller : Controller κ) (request : Request) :
    Run κ (Except LifecycleError Answer) :=
  withSpan request.operation (exclusively (attempt controller request))

/-! ## Exits -/

/-- Resumes a frozen process whose exit is recorded, and stops it, whether the resume worked or
not. -/
def compensate (controller : Controller κ) : Run κ Unit := do
  match ← consult controller (.resume (← get).id) with
  | .error e => emit .error (.compensatingResumeFailed e.message)
  | .ok _ => pure ()
  let slot ← checked (← get).slot.stop
  modify fun p => { p with slot }

/-- The report that the process has ended with a code. -/
def setExited (controller : Controller κ) (code : Int32) : Run κ Unit :=
  withSpan .setExited do
    let p ← get
    match ← checked (p.slot.claim ⟨code, Moment.ofMillis p.clock⟩) with
    | .ignored state => record [.notice (.exitAlreadyHandled p.id state code)]
    | .accepted previous resume slot =>
      modify fun p => { p with slot }
      emit .info (.exitRecorded code previous)
      if resume then compensate controller
      emit .info (.stateChanged .setExited previous .stopped)

/-! ## Actions -/

/-- Answers a question. -/
def ask (query : Query) : Run κ Reply := do
  return query.reply (← get).snapshot

/-- Does one thing to a process. -/
def perform (controller : Controller κ) : Action → Run κ Reply
  | .request request => return Reply.ofResult (← operate controller request)
  | .exited code => do
    setExited controller code
    return .answer .done
  | .query query => ask query

end InitProcess

end ContainerInit
