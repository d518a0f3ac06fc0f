/-!
# Lifecycle operations

The operations on an init process, their names, and the way back from a name
(`Operation.ofName?_name`).
-/

namespace ContainerInit

/-- An operation on an init process. -/
inductive Operation where
  | start
  | pause
  | resume
  | update
  | checkpoint
  | delete
  | kill
  | exec
  /-- The report that the process has ended. -/
  | setExited
  /-- The question for the state. -/
  | status
  deriving DecidableEq

namespace Operation

/-- Every operation. -/
def all : List Operation :=
  [.start, .pause, .resume, .update, .checkpoint, .delete, .kill, .exec, .setExited, .status]

/-- The name of an operation. -/
def name : Operation → String
  | .start => "start"
  | .pause => "pause"
  | .resume => "resume"
  | .update => "update"
  | .checkpoint => "checkpoint"
  | .delete => "delete"
  | .kill => "kill"
  | .exec => "exec"
  | .setExited => "set_exited"
  | .status => "status"

/-- The name of an operation inside the text of a record. -/
def label : Operation → String
  | .start => "Start"
  | .pause => "Pause"
  | .resume => "Resume"
  | .update => "Update"
  | .checkpoint => "Checkpoint"
  | .delete => "Delete"
  | .kill => "Kill"
  | .exec => "Exec"
  | .setExited => "SetExited"
  | .status => "Status"

/-- The operation with a given name. -/
def ofName? (name : String) : Option Operation :=
  all.find? fun o => o.name == name

theorem mem_all (o : Operation) : o ∈ all := by
  cases o <;> decide

theorem ofName?_name (o : Operation) : ofName? o.name = some o := by
  cases o <;> decide

end Operation

end ContainerInit
