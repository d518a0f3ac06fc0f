import ContainerInit.Lifecycle.Operation
import ContainerInit.Lifecycle.State

/-!
# What each state does with each operation

- **Dispatch** (`State.dispatch`): an operation is delegated to the controller, with the state to
  install once that succeeds; answered at once; or rejected, naming operation and state.
- **Agreement with the transition table** (`mayBecome_of_dispatch`): a state that dispatch asks
  for is a successor of the state it was asked in.
- **Exits** (`State.onExit`): how a state reacts to the report that the process has ended; where
  it leads to `stopped`, the transition table has that edge (`mayBecome_stopped_of_onExit`).
-/

namespace ContainerInit

/-- What an accepted operation does. -/
inductive Dispatch where
  /-- The controller performs it; on success `next` is installed, if there is one. -/
  | delegate (next : Option State)
  /-- It is answered without the controller. -/
  | observe
  deriving DecidableEq

/-- Why an operation is refused. -/
inductive Refusal where
  /-- The operation makes no sense in the state. -/
  | illegal
  /-- The operation is reserved for the state, but not supported. -/
  | notImplemented
  deriving DecidableEq

/-- A refused operation, with the state that refused it. -/
structure Rejection where
  refusal : Refusal
  operation : Operation
  state : State
  deriving DecidableEq

/-- The wording of a rejection. -/
def Rejection.message (r : Rejection) : String :=
  match r.refusal with
  | .illegal => "cannot " ++ r.operation.name ++ " process in " ++ r.state.name ++ " state"
  | .notImplemented =>
    r.operation.name ++ " not implemented yet for " ++ r.state.name ++ " processes"

namespace State

/-- The dispatch table: what each state does with each operation. Reports of exits are not
dispatched; see `onExit`. -/
def dispatch (s : State) (o : Operation) : Except Rejection Dispatch :=
  match s, o with
  | .created, .start => .ok (.delegate (some .running))
  | .running, .pause | .paused, .resume | .running, .checkpoint | .paused, .checkpoint =>
    .error ⟨.notImplemented, o, s⟩
  | .created, .update | .running, .update | .paused, .update => .ok (.delegate none)
  | .created, .delete | .stopped, .delete => .ok (.delegate (some .deleted))
  | .created, .kill | .running, .kill | .paused, .kill | .stopped, .kill => .ok (.delegate none)
  | .created, .exec | .running, .exec => .ok (.delegate none)
  | .created, .status | .running, .status | .paused, .status | .stopped, .status => .ok .observe
  | _, _ => .error ⟨.illegal, o, s⟩

/-- The name of the state, for callers that ask; a deleted process has none. -/
def status (s : State) : Except Rejection String :=
  match s with
  | .deleted => .error ⟨.illegal, .status, s⟩
  | _ => .ok s.name

theorem dispatch_rejection {s : State} {o : Operation} {r : Rejection}
    (h : s.dispatch o = .error r) : r.operation = o ∧ r.state = s := by
  cases s <;> cases o <;> cases h <;> exact ⟨rfl, rfl⟩

/-- **Dispatch agrees with the transition table.** -/
theorem mayBecome_of_dispatch {s t : State} {o : Operation}
    (h : s.dispatch o = .ok (.delegate (some t))) : s.mayBecome t = true := by
  cases s <;> cases o <;> cases h <;> rfl

end State

/-! ## Exits -/

/-- How a state reacts to the end of the process. -/
inductive ExitReaction where
  /-- The exit is recorded and the process is stopped. -/
  | stop
  /-- The exit is recorded, the frozen process is resumed, and then it is stopped. -/
  | resumeThenStop
  /-- The process has ended before, or is gone. -/
  | ignore
  deriving DecidableEq

/-- How each state reacts to the end of the process. -/
def State.onExit : State → ExitReaction
  | .created | .running => .stop
  | .paused => .resumeThenStop
  | .stopped | .deleted => .ignore

/-- **Exits agree with the transition table.** -/
theorem State.mayBecome_stopped_of_onExit {s : State} (h : s.onExit ≠ .ignore) :
    s.mayBecome .stopped = true := by
  cases s <;> first | rfl | exact absurd rfl h

theorem State.eq_paused_of_onExit {s : State} (h : s.onExit = .resumeThenStop) : s = .paused := by
  cases s <;> first | rfl | cases h

end ContainerInit
