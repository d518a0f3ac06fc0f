/-!
# Programs of a host

What a process does, as a tree of requests to the host.

- **Endings** (`Ending`): a process ends by itself with a status, or by a signal.
- **Errors** (`Errno`): why the host refuses a request, with the number, the name and the wording
  that systems of this family use.
- **Programs** (`Program`): each request is followed by the program that goes on with the host's
  answer. A program that replaces itself by another command (`exec`) goes on only if that fails.
-/

namespace ContainerInit.Host

/-- How a process ended. -/
inductive Ending where
  /-- It exited with a status. -/
  | exited (status : UInt8)
  /-- A signal ended it. -/
  | signaled (number : Nat)
  deriving DecidableEq

/-- Why the host refuses a request. -/
inductive Errno where
  | noEntry
  | noProcess
  | accessDenied
  | notDirectory
  | invalidArgument
  | nameTooLong
  deriving DecidableEq

namespace Errno

/-- The number of an error. -/
def number : Errno → Nat
  | .noEntry => 2
  | .noProcess => 3
  | .accessDenied => 13
  | .notDirectory => 20
  | .invalidArgument => 22
  | .nameTooLong => 36

/-- The name of an error. -/
def name : Errno → String
  | .noEntry => "ENOENT"
  | .noProcess => "ESRCH"
  | .accessDenied => "EACCES"
  | .notDirectory => "ENOTDIR"
  | .invalidArgument => "EINVAL"
  | .nameTooLong => "ENAMETOOLONG"

/-- The wording of an error. -/
def wording : Errno → String
  | .noEntry => "No such file or directory"
  | .noProcess => "No such process"
  | .accessDenied => "Permission denied"
  | .notDirectory => "Not a directory"
  | .invalidArgument => "Invalid argument"
  | .nameTooLong => "File name too long"

/-- The text of an error, with its number. -/
def numbered (e : Errno) : String :=
  e.wording ++ " (os error " ++ toString e.number ++ ")"

/-- The text of an error, with its name. -/
def named (e : Errno) : String :=
  e.name ++ ": " ++ e.wording

end Errno

/-- Where a process writes. -/
inductive Stream where
  | output
  | error
  deriving DecidableEq

/-- Whom a signal is for. -/
inductive Target where
  | process (pid : Nat)
  | group (pid : Nat)
  /-- The group of the sender. -/
  | ownGroup
  deriving DecidableEq

/-- A command with its surroundings. -/
structure Command where
  args : List String
  environment : List (String × String)
  directory : String
  deriving DecidableEq

/-- How a process reacts to a signal. -/
inductive Reaction where
  /-- As the system does by itself. -/
  | standard
  | ignore
  /-- By keeping it in mind until the program asks for it. -/
  | note
  deriving DecidableEq

/-- What a process can learn about itself. -/
structure Identity where
  pid : Nat
  parent : Nat
  group : Nat
  parentGroup : Nat
  deriving DecidableEq

/-- What a process does. -/
inductive Program where
  | exit (status : UInt8)
  | write (stream : Stream) (text : String) (next : Program)
  /-- Takes the next line of what there is to read, if there is one. -/
  | readLine (next : Option String → Program)
  | sleep (millis : Nat) (next : Program)
  | identify (next : Identity → Program)
  /-- Sends a signal; number 0 only asks whether there is anybody to get one. -/
  | kill (target : Target) (number : Nat) (next : Bool → Program)
  /-- Changes its reaction to a signal. -/
  | react (number : Nat) (reaction : Reaction) (next : Program)
  /-- Takes the first of the signals that were noted. -/
  | noted (next : Option Nat → Program)
  /-- Starts a process, which reads `input`, or what its parent reads. What it writes to its output
  can be collected. -/
  | fork (input : Option String) (collects : Bool) (child : Program) (next : Nat → Program)
  /-- Waits for the end of a process that it started. A wait that gives way ends without one when a
  signal is noted. -/
  | await (pid : Nat) (givesWay : Bool) (next : Option Ending → Program)
  /-- Takes what was collected from a process. -/
  | collected (pid : Nat) (next : String → Program)
  /-- Sends each of its streams where one of them went before, or nowhere. -/
  | redirect (output error : Option Stream) (next : Program)
  /-- Moves to a process group. -/
  | join (group : Nat) (next : Program)
  /-- Turns into a command, or goes on if there is no such command. -/
  | exec (command : Command) (failed : Errno → Program)

end ContainerInit.Host
