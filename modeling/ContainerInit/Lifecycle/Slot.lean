import ContainerInit.Lifecycle.Dispatch
import ContainerInit.Process.Exit

/-!
# The state slot

The state of an init process and its recorded exit, and the three ways in which they change. Each
is one step: whoever takes it sees and writes both fields together.

- **Commit** (`Slot.commit`): after a successful side effect, its successor state is installed. If
  the state has changed since and the table no longer allows the successor, what came between
  stands, and the commit is superseded.
- **Claim** (`Slot.claim`): the first report of an exit is recorded, and the process is stopped,
  unless it is frozen: then it has to be resumed before. Later reports are ignored.
- **Stop** (`Slot.stop`): a frozen process whose exit is recorded has been resumed, and is stopped.

Each of the three has one equation for each of its outcomes (`commit_of_mayBecome`,
`commit_of_ne`, `commit_of_eq`, `claim_of_ignore`, `claim_of_stop`, `claim_of_resumeThenStop`,
`stop_of_mayBecome`, `stop_of_not_mayBecome`).
-/

namespace ContainerInit

/-- The state of an init process, and its exit if one is recorded. -/
structure Slot where
  state : State := .created
  exit : Option ExitStatus := none
  deriving DecidableEq

/-- What became of a successful side effect. -/
inductive Commit where
  /-- The state is another one by now, and the successor may not follow it. -/
  | superseded (current : State)
  /-- The successor was installed. -/
  | installed (previous : State) (slot : Slot)
  deriving DecidableEq

/-- What became of the report of an exit. -/
inductive Claim where
  /-- The exit was known, or does not matter any more. -/
  | ignored (state : State)
  /-- The exit is recorded; `resume` tells that the process is frozen and not stopped yet. -/
  | accepted (previous : State) (resume : Bool) (slot : Slot)
  deriving DecidableEq

namespace Slot

/-- Installs `next` after a side effect that was dispatched in the state `source`. -/
def commit (slot : Slot) (source next : State) : Except Violation Commit := do
  if slot.state ≠ source ∧ slot.state.mayBecome next = false then
    return .superseded slot.state
  else
    let state ← slot.state.become next
    return .installed slot.state { slot with state }

/-- Records an exit, if the state cares and none is recorded. -/
def claim (slot : Slot) (exit : ExitStatus) : Except Violation Claim := do
  let reaction := if slot.exit.isSome then .ignore else slot.state.onExit
  match reaction with
  | .ignore => return .ignored slot.state
  | .stop =>
    let state ← slot.state.become .stopped
    return .accepted slot.state false ⟨state, some exit⟩
  | .resumeThenStop => return .accepted slot.state true { slot with exit := some exit }

/-- Stops a process that was resumed after its exit. -/
def stop (slot : Slot) : Except Violation Slot := do
  let state ← slot.state.become .stopped
  return { slot with state }

/-! ## What each of the three does -/

/-- Where the table has the edge, a commit installs its successor. -/
theorem commit_of_mayBecome {slot : Slot} {source next : State}
    (h : slot.state.mayBecome next = true) :
    slot.commit source next = .ok (.installed slot.state { slot with state := next }) := by
  unfold commit
  rw [if_neg (by simp [h]), State.become_of_mayBecome h]
  rfl

/-- Where the table lacks the edge and the state has changed, a commit is superseded. -/
theorem commit_of_ne {slot : Slot} {source next : State} (hs : slot.state ≠ source)
    (h : slot.state.mayBecome next = false) :
    slot.commit source next = .ok (.superseded slot.state) := by
  unfold commit
  rw [if_pos ⟨hs, h⟩]
  rfl

/-- Where the table lacks the edge and the state is still the same, a commit is refused. -/
theorem commit_of_eq {slot : Slot} {source next : State} (hs : slot.state = source)
    (h : slot.state.mayBecome next = false) :
    slot.commit source next = .error (.badEdge source next) := by
  unfold commit
  rw [if_neg fun stale => stale.1 hs, State.become_of_not_mayBecome h, hs]
  rfl

theorem claim_of_ignore {slot : Slot} {exit : ExitStatus}
    (h : slot.exit.isSome = true ∨ slot.state.onExit = .ignore) :
    slot.claim exit = .ok (.ignored slot.state) := by
  unfold claim
  by_cases hs : slot.exit.isSome = true
  · rw [if_pos hs]; rfl
  · rw [if_neg hs, h.resolve_left hs]; rfl

/-- The first report of the exit of a process that is not frozen stops it. -/
theorem claim_of_stop {slot : Slot} {exit : ExitStatus} (hx : slot.exit = none)
    (h : slot.state.onExit = .stop) :
    slot.claim exit = .ok (.accepted slot.state false ⟨.stopped, some exit⟩) := by
  have hs : slot.state.mayBecome .stopped = true :=
    State.mayBecome_stopped_of_onExit (by rw [h]; decide)
  unfold claim
  rw [hx, if_neg (by decide), h]
  simp only [State.become_of_mayBecome hs]
  rfl

/-- The first report of the exit of a frozen process is recorded, and no more. -/
theorem claim_of_resumeThenStop {slot : Slot} {exit : ExitStatus} (hx : slot.exit = none)
    (h : slot.state.onExit = .resumeThenStop) :
    slot.claim exit = .ok (.accepted slot.state true { slot with exit := some exit }) := by
  unfold claim
  rw [hx, if_neg (by decide), h]
  rfl

theorem stop_of_mayBecome {slot : Slot} (h : slot.state.mayBecome .stopped = true) :
    slot.stop = .ok { slot with state := .stopped } := by
  unfold stop
  rw [State.become_of_mayBecome h]
  rfl

theorem stop_of_not_mayBecome {slot : Slot} (h : slot.state.mayBecome .stopped = false) :
    slot.stop = .error (.badEdge slot.state .stopped) := by
  unfold stop
  rw [State.become_of_not_mayBecome h]
  rfl

end Slot

end ContainerInit
