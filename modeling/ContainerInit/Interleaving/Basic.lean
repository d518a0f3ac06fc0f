import ContainerInit.Interleaving.Stage

/-!
# Callers at work at once

- **Callers at work** (`Interleaving`): the slot, the two locks, the calls that each caller is in,
  and the history.
- **Steps** (`Interleaving.step?`): a caller begins a call, or takes the next atomic step of its
  innermost call, or its controller returns. The slot lock is taken and given back in steps of their
  own, and is held for one look at the slot. Waiting for a lock is having no step.
- **Runs** (`Interleaving.Reachable`): what some schedule leads to. Who acts when, what
  the controller and the sink do inside a call, and how the controller answers are all open.
-/

namespace ContainerInit

/-- A caller. -/
abbrev Caller := Nat

/-- Callers at work on one init process. -/
structure Interleaving where
  id : String
  slot : Slot := {}
  /-- Who holds the slot lock. -/
  slotHolder : Option Caller := none
  /-- Who holds the operation lock. -/
  holder : Option Caller := none
  /-- The calls that each caller is in, innermost first. -/
  frames : Caller → List Frame := fun _ => []
  /-- How many calls have begun. -/
  begun : Nat := 0
  /-- The moment that the call of a given number reads off the clock. -/
  moments : Nat → Moment
  /-- What has happened, oldest first. -/
  history : List Mark := []

/-- What a caller does next. -/
inductive Choice where
  /-- The next step of its innermost call. -/
  | go
  /-- It begins a call, from outside or from inside the controller or the sink. -/
  | act (action : Action)
  /-- The controller returns. -/
  | finish (outcome : Except ControllerError Answer)

namespace Interleaving

/-- A process in a state that nobody has called. -/
def initial (id : String) (state : State) (moments : Nat → Moment) : Interleaving :=
  { id, slot := { state }, moments }

/-- How the process looks. -/
def snapshot (c : Interleaving) : ProcessSnapshot :=
  ⟨c.id, c.slot.state, c.slot.exit⟩

/-- The events of a run, oldest first. -/
def payloads (c : Interleaving) : List Payload :=
  c.history.filterMap Mark.payload?

/-- The calls of the controller in a run, oldest first. -/
def calls (c : Interleaving) : List Call :=
  c.history.filterMap Mark.call?

/-- The replies of the calls that have returned, in the order in which they did. -/
def replies (c : Interleaving) : List Reply :=
  c.history.filterMap Mark.reply?

/-- Every call has returned. -/
def Idle (c : Interleaving) : Prop :=
  ∀ caller, c.frames caller = []

/-! ## Steps -/

/-- Writes marks into the history. -/
def mark (c : Interleaving) (marks : List Mark) : Interleaving :=
  { c with history := c.history ++ marks }

/-- Changes the calls that a caller is in. -/
def setFrames (c : Interleaving) (caller : Caller) (frames : List Frame) : Interleaving :=
  { c with frames := fun u => if u = caller then frames else c.frames u }

/-- The step of a stage that looks at the slot: the new slot, the next stage, and the mark. -/
def look (c : Interleaving) (number : Nat) : Stage → Slot × Stage × List Mark
  | .dispatching r =>
    (c.slot,
      match c.slot.state.dispatch r.operation with
      | .error rejection => .rejecting r rejection
      | .ok .observe => .crashed .nothingToPerform
      | .ok (.delegate next) =>
        match r.call? c.id with
        | some call => .calling r call c.slot.state next
        | none => .crashed .nothingToPerform,
      [.dispatched number r c.slot.state])
  | .committing r answer source next =>
    match c.slot.commit source next with
    | .error v => (c.slot, .crashed v, [])
    | .ok (.superseded current) =>
      (c.slot, .announcing r answer (.transitionSuperseded r.operation next current),
        [.committed number r (.superseded current)])
    | .ok (.installed previous slot) =>
      (slot, .announcing r answer (.stateChanged r.operation previous next),
        [.committed number r (.installed previous slot)])
  | .claiming code =>
    match c.slot.claim ⟨code, c.moments number⟩ with
    | .error v => (c.slot, .crashed v, [])
    | .ok (.ignored state) =>
      (c.slot, .returning (.answer .done), [.claimed number code (.ignored state)])
    | .ok (.accepted previous resume slot) =>
      (slot, .recording code previous resume,
        [.claimed number code (.accepted previous resume slot)])
  | .stopping previous =>
    match c.slot.stop with
    | .error v => (c.slot, .crashed v, [])
    | .ok slot => (slot, .stopped previous, [.stopped number slot])
  | .asking q => (c.slot, .returning (q.reply c.snapshot), [.asked number q c.slot])
  | s => (c.slot, s, [])

/-- The step of a stage that looks at no slot and waits for nothing: the next stage and marks. -/
def proceed (c : Interleaving) (number : Nat) : Stage → Option (Stage × List Mark)
  | .rejecting r rejection =>
    some (.leaving r (.error (.rejected rejection)),
      [.emitted number .info (.operationRejected r.operation rejection.state)])
  | .calling r call source next => some (.performing r call source next, [.called number call])
  | .failing r e =>
    some (.leaving r (.error (.controller e)),
      [.emitted number .error (.controllerFailed r.operation e.message)])
  | .announcing r answer payload =>
    some (.leaving r (.ok answer), [.emitted number .info payload])
  | .recording code previous resume =>
    some (if resume then .resumeCalling previous else .stopped previous,
      [.emitted number .info (.exitRecorded code previous)])
  | .resumeCalling previous => some (.resuming previous, [.called number (.resume c.id)])
  | .resumeFailing previous e =>
    some (.stopping previous, [.emitted number .error (.compensatingResumeFailed e.message)])
  | .stopped previous =>
    some (.returning (.answer .done),
      [.emitted number .info (.stateChanged .setExited previous .stopped)])
  | _ => none

/-- The stage after the controller returned, and the mark. -/
def conclude (c : Interleaving) (number : Nat) (outcome : Except ControllerError Answer) :
    Stage → Option (Stage × List Mark)
  | .performing r call source next =>
    some (match outcome, next with
      | .error e, _ => .failing r e
      | .ok a, some target => .committing r a source target
      | .ok a, none => .leaving r (.ok a),
      [.answered number call outcome])
  | .resuming previous =>
    some (match outcome with
      | .error e => .resumeFailing previous e
      | .ok _ => .stopping previous,
      [.answered number (.resume c.id) outcome])
  | _ => none

/-- The next step of a caller's innermost call `f`, inside the calls `outer`. -/
def go? (c : Interleaving) (caller : Caller) (f : Frame) (outer : List Frame) :
    Option Interleaving :=
  if f.stage.isCritical then
    match c.slotHolder with
    | none => some { c with slotHolder := some caller }
    | some holder =>
      if holder = caller then
        let (slot, stage, marks) := c.look f.number f.stage
        some (({ c with slot, slotHolder := none }.setFrames caller
          ({ f with stage } :: outer)).mark marks)
      else none
  else
    match f.stage with
    | .queued r =>
      match c.holder with
      | none =>
        some ({ c with holder := some caller }.setFrames caller
          ({ f with stage := .dispatching r } :: outer))
      | some _ => none
    | .leaving _ result =>
      some ({ c with holder := none }.setFrames caller
        ({ f with stage := .returning (.ofResult result) } :: outer))
    | .returning reply =>
      some ((c.setFrames caller outer).mark [.returned caller f.number reply])
    | s =>
      match c.proceed f.number s with
      | some (stage, marks) => some ((c.setFrames caller ({ f with stage } :: outer)).mark marks)
      | none => none

/-- A caller begins a call. -/
def begin? (c : Interleaving) (caller : Caller) (action : Action) : Option Interleaving :=
  let frames := c.frames caller
  let free := match frames with
    | [] => true
    | f :: _ => f.stage.isOpen
  if free then
    some (({ c with begun := c.begun + 1 }.setFrames caller
      (⟨c.begun, action, .ofAction c.id action⟩ :: frames)).mark
        [.began caller c.begun action])
  else none

/-- One step of a caller, if it can take it. -/
def step? (c : Interleaving) (caller : Caller) (choice : Choice) : Option Interleaving :=
  match choice with
  | .act action => c.begin? caller action
  | .go =>
    match c.frames caller with
    | f :: outer => c.go? caller f outer
    | [] => none
  | .finish outcome =>
    match c.frames caller with
    | f :: outer =>
      match c.conclude f.number outcome f.stage with
      | some (stage, marks) => some ((c.setFrames caller ({ f with stage } :: outer)).mark marks)
      | none => none
    | [] => none

/-- What some schedule leads to from `start`. -/
inductive Reachable (start : Interleaving) : Interleaving → Prop where
  | refl : Reachable start start
  | step {c d : Interleaving} (caller : Caller) (choice : Choice) (reachable : Reachable start c)
      (taken : c.step? caller choice = some d) : Reachable start d

end Interleaving

end ContainerInit
