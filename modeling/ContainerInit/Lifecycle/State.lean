/-!
# Lifecycle states

- **States** (`State`): where an init process stands between its creation and its deletion.
- **Transition table** (`State.mayBecome`): which state may follow which. `deleted` has no
  successor (`mayBecome_deleted`), and no state follows itself (`mayBecome_irrefl`).
- **Transitions** (`State.become`): a step along an edge of the table; any other step is a
  `Violation`, a disagreement between two tables of the program (`become_eq_ok_iff`).
-/

namespace ContainerInit

/-- Where an init process stands. -/
inductive State where
  /-- Made, but not started. -/
  | created
  /-- Started, and not known to have ended. -/
  | running
  /-- Frozen by the runtime. -/
  | paused
  /-- Ended. -/
  | stopped
  /-- Removed. -/
  | deleted
  deriving DecidableEq

instance : Inhabited State := ⟨.created⟩

namespace State

/-- Every state, in the order of a life. -/
def all : List State := [.created, .running, .paused, .stopped, .deleted]

/-- The name of a state. -/
def name : State → String
  | .created => "created"
  | .running => "running"
  | .paused => "paused"
  | .stopped => "stopped"
  | .deleted => "deleted"

/-- The name of a state inside the text of a record. -/
def label : State → String
  | .created => "Created"
  | .running => "Running"
  | .paused => "Paused"
  | .stopped => "Stopped"
  | .deleted => "Deleted"

/-- The state with a given name. -/
def ofName? (name : String) : Option State :=
  all.find? fun s => s.name == name

/-- The transition table: whether the second state may follow the first. -/
def mayBecome : State → State → Bool
  | .created, .running => true
  | .created, .stopped => true
  | .created, .deleted => true
  | .running, .stopped => true
  | .running, .paused => true
  | .paused, .running => true
  | .paused, .stopped => true
  | .stopped, .deleted => true
  | _, _ => false

/-- The states that may follow `s`, in the order of a life. -/
def successors (s : State) : List State :=
  all.filter s.mayBecome

theorem mem_all (s : State) : s ∈ all := by
  cases s <;> decide

theorem ofName?_name (s : State) : ofName? s.name = some s := by
  cases s <;> decide

theorem mayBecome_deleted (s : State) : State.deleted.mayBecome s = false := by
  cases s <;> rfl

theorem mayBecome_irrefl (s : State) : s.mayBecome s = false := by
  cases s <;> rfl

end State

/-! ## Transitions -/

/-- A disagreement between two tables of the program, which no run can bring about. -/
inductive Violation where
  /-- A step that is no edge of the transition table was asked for. -/
  | badEdge (source target : State)
  /-- An operation that has no side effect was about to be performed. -/
  | nothingToPerform
  deriving DecidableEq

/-- The wording of a violation. -/
def Violation.message : Violation → String
  | .badEdge source target =>
    "invalid state transition \"" ++ source.name ++ "\" to \"" ++ target.name ++ "\""
  | .nothingToPerform => "the operation has no side effect"

/-- A step from one state to the next, allowed along the edges of the transition table only. -/
def State.become (source target : State) : Except Violation State :=
  if source.mayBecome target then .ok target else .error (.badEdge source target)

theorem State.become_eq_ok_iff {s t u : State} :
    s.become t = .ok u ↔ s.mayBecome t = true ∧ u = t := by
  unfold State.become
  cases h : s.mayBecome t
  · simp
  · simp [eq_comm]

theorem State.become_of_mayBecome {s t : State} (h : s.mayBecome t = true) : s.become t = .ok t :=
  State.become_eq_ok_iff.mpr ⟨h, rfl⟩

theorem State.become_of_not_mayBecome {s t : State} (h : s.mayBecome t = false) :
    s.become t = .error (.badEdge s t) :=
  if_neg (by simp [h])

end ContainerInit
