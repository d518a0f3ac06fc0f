import ContainerInit.Lifecycle.State
import ContainerInit.Time.Calendar

/-!
# Recorded exits and snapshots

- **Exits** (`ExitStatus`): the code of an init process that has ended, and when that was recorded.
- **Snapshots** (`ProcessSnapshot`): identity, state and exit of a process at one point in time.
-/

namespace ContainerInit

/-- The recorded end of an init process. -/
structure ExitStatus where
  code : Int32
  exitedAt : Moment
  deriving DecidableEq

/-- The process ended without an error. -/
def ExitStatus.isSuccess (s : ExitStatus) : Bool :=
  s.code == 0

/-- Identity, state and exit of an init process at one point in time. -/
structure ProcessSnapshot where
  id : String
  state : State
  exit : Option ExitStatus := none
  deriving DecidableEq

end ContainerInit
