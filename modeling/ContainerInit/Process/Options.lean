/-!
# What a caller asks of a process

The arguments of the operations: the command of a session (`ExecOptions`), limits on resources
(`ResourceSpec`) and the settings of a checkpoint (`CheckpointConfig`); and what the caller gets
for a started session (`ExecHandle`).
-/

namespace ContainerInit

/-- A command to run: the program and its arguments, additions to the environment in order, the
working directory, and whether it wants a terminal. -/
structure ExecOptions where
  args : List String := []
  env : List (String × String) := []
  cwd : Option String := none
  terminal : Bool := false
  deriving DecidableEq

namespace ExecOptions

/-- The command with one more variable at the end of its environment. -/
def withEnv (o : ExecOptions) (key value : String) : ExecOptions :=
  { o with env := o.env ++ [(key, value)] }

/-- The command in another working directory. -/
def withCwd (o : ExecOptions) (dir : String) : ExecOptions :=
  { o with cwd := some dir }

end ExecOptions

/-- A started session and its process, where that is known. -/
structure ExecHandle where
  execId : String
  pid : Option UInt32 := none
  deriving DecidableEq

/-- New limits; a limit that is not set stays as it is. -/
structure ResourceSpec where
  cpuShares : Option UInt64 := none
  cpuQuota : Option Int64 := none
  cpuPeriod : Option UInt64 := none
  memoryLimit : Option Int64 := none
  pidsLimit : Option Int64 := none
  deriving DecidableEq

/-- No limit would change. -/
def ResourceSpec.isEmpty (r : ResourceSpec) : Bool :=
  r == {}

/-- How a checkpoint is to be taken. -/
structure CheckpointConfig where
  /-- Scratch directory of the checkpoint. -/
  workDir : String := ""
  /-- Where the image goes. -/
  imagePath : String := ""
  /-- Whether the process stops once the image is written. -/
  exitAfterCheckpoint : Bool := false
  allowOpenTcp : Bool := false
  allowExternalUnixSockets : Bool := false
  allowTerminalDevices : Bool := false
  fileLocks : Bool := false
  /-- The namespaces that a restore makes anew, empty. -/
  emptyNamespaces : List String := []
  deriving DecidableEq

end ContainerInit
