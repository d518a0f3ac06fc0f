import ContainerInit.Event
import ContainerInit.Lifecycle.Request
import ContainerInit.Lifecycle.Slot

/-!
# Stages of a call

Where a call on an init process stands between two of its atomic steps, when several callers act at
once.

- **Stages** (`Stage`): of an operation, of the report of an exit, and of a question.
- **Critical stages** (`Stage.isCritical`): their step looks at the slot, under the slot lock.
- **Open stages** (`Stage.isOpen`): the controller or the sink is running, and may act on the
  process itself.
- **Calls** (`Frame`): an action and its stage, with a number that no other call has.
- **Marks** (`Mark`): what a step leaves in the history of a run.
-/

namespace ContainerInit

/-- Where a call stands. -/
inductive Stage where
  /-- An operation waits for the operation lock. -/
  | queued (request : Request)
  /-- It has the operation lock, and is to be dispatched. -/
  | dispatching (request : Request)
  /-- It was refused, and this is to be emitted. -/
  | rejecting (request : Request) (rejection : Rejection)
  /-- It was accepted, and the controller is to be called. -/
  | calling (request : Request) (call : Call) (source : State) (next : Option State)
  /-- The controller is at work. -/
  | performing (request : Request) (call : Call) (source : State) (next : Option State)
  /-- The controller failed, and this is to be emitted. -/
  | failing (request : Request) (error : ControllerError)
  /-- The controller succeeded, and the successor state is to be installed. -/
  | committing (request : Request) (answer : Answer) (source next : State)
  /-- What became of the commit is to be emitted. -/
  | announcing (request : Request) (answer : Answer) (payload : Payload)
  /-- The operation is over, and the operation lock is to be given back. -/
  | leaving (request : Request) (result : Except LifecycleError Answer)
  /-- The report of an exit is to be claimed. -/
  | claiming (code : Int32)
  /-- It was accepted, and this is to be emitted. -/
  | recording (code : Int32) (previous : State) (resume : Bool)
  /-- The process is frozen, and the controller is to be called to resume it. -/
  | resumeCalling (previous : State)
  /-- The controller is resuming the process. -/
  | resuming (previous : State)
  /-- The resume failed, and this is to be emitted. -/
  | resumeFailing (previous : State) (error : ControllerError)
  /-- The process was resumed, and is to be stopped. -/
  | stopping (previous : State)
  /-- The process was stopped, and this is to be emitted. -/
  | stopped (previous : State)
  /-- A question is to be answered. -/
  | asking (query : Query)
  /-- The call is about to return. -/
  | returning (reply : Reply)
  /-- Two tables disagreed. -/
  | crashed (violation : Violation)

namespace Stage

/-- The next step reads or writes the slot. -/
def isCritical : Stage → Bool
  | .dispatching _ | .committing .. | .claiming _ | .stopping _ | .asking _ => true
  | _ => false

/-- The controller is at work. -/
def isPerforming : Stage → Bool
  | .performing .. | .resuming _ => true
  | _ => false

/-- An event is being emitted. -/
def isEmitting : Stage → Bool
  | .rejecting .. | .failing .. | .announcing .. | .recording .. | .resumeFailing .. | .stopped _ =>
    true
  | _ => false

/-- Code that is not the process's own is running, which may act on the process. -/
def isOpen (s : Stage) : Bool :=
  s.isPerforming || s.isEmitting

/-- The operation lock is held at this stage. -/
def isExclusive : Stage → Bool
  | .dispatching _ | .rejecting .. | .calling .. | .performing .. | .failing .. | .committing ..
  | .announcing .. | .leaving .. => true
  | _ => false

/-- The first stage of an action; the identity of a process is known without looking. -/
def ofAction (id : String) : Action → Stage
  | .request r => .queued r
  | .exited code => .claiming code
  | .query .id => .returning (.text id)
  | .query q => .asking q

end Stage

/-- A call that has not returned. -/
structure Frame where
  /-- How many calls had begun before it. -/
  number : Nat
  action : Action
  stage : Stage

/-- What a step leaves in the history. -/
inductive Mark where
  | began (caller number : Nat) (action : Action)
  /-- An operation was dispatched in a state. -/
  | dispatched (number : Nat) (request : Request) (state : State)
  | called (number : Nat) (call : Call)
  /-- The controller returned. -/
  | answered (number : Nat) (call : Call) (outcome : Except ControllerError Answer)
  | committed (number : Nat) (request : Request) (commit : Commit)
  | claimed (number : Nat) (code : Int32) (claim : Claim)
  /-- A resumed process was stopped. -/
  | stopped (number : Nat) (slot : Slot)
  /-- A question was answered from a slot. -/
  | asked (number : Nat) (query : Query) (slot : Slot)
  | emitted (number : Nat) (severity : Severity) (payload : Payload)
  | returned (caller number : Nat) (reply : Reply)

namespace Mark

/-- The event that a mark stands for. -/
def payload? : Mark → Option Payload
  | .emitted _ _ payload => some payload
  | _ => none

/-- The call of the controller that a mark stands for. -/
def call? : Mark → Option Call
  | .called _ call => some call
  | _ => none

/-- The reply that a mark stands for. -/
def reply? : Mark → Option Reply
  | .returned _ _ reply => some reply
  | _ => none

end Mark

end ContainerInit
