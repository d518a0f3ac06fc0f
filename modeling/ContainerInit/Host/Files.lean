import ContainerInit.Host.Program

/-!
# Files of a host

The few files and directories that commands can name, and how a path leads to one of them.

- **Nodes** (`Node`, `Node.at?`): directories, programs, and files that are not programs.
- **Walking** (`walk`): name by name. Each name is looked up in a directory, may not be too long,
  and has to exist.
- **Finding programs** (`findProgram`): a name with a slash is a path; any other name is looked for
  in the directories of the search path.
-/

namespace ContainerInit.Host

/-- What a path can lead to. -/
inductive Node where
  | directory
  | file
  | device
  /-- A file that can be run. -/
  | program
  deriving DecidableEq

/-- The names of the programs. -/
def programNames : List String :=
  ["true", "false", "sleep", "echo", "sh", "dash", "bash", "python3", "pwd", "test", "[", "cat",
    "env", "printenv", "printf", "seq", "kill"]

/-- The directories that hold the programs. -/
def programDirectories : List (List String) := [["bin"], ["usr", "bin"]]

/-- The other directories. -/
def otherDirectories : List (List String) :=
  [[], ["usr"], ["usr", "local"], ["usr", "local", "bin"], ["usr", "local", "sbin"],
    ["usr", "sbin"], ["sbin"], ["etc"], ["tmp"], ["dev"], ["proc"], ["var"], ["var", "tmp"],
    ["home"], ["root"], ["opt"]]

/-- Files that are not programs. -/
def plainFiles : List (List String) :=
  [["etc", "passwd"], ["etc", "group"], ["etc", "hosts"], ["etc", "hostname"]]

/-- Devices. -/
def devices : List (List String) :=
  [["dev", "null"], ["dev", "zero"], ["dev", "full"], ["dev", "random"], ["dev", "urandom"],
    ["dev", "tty"]]

/-- What stands at the end of a path from the root, whose names are given. -/
def Node.at? (names : List String) : Option Node :=
  if otherDirectories.contains names || programDirectories.contains names then some .directory
  else if plainFiles.contains names then some .file
  else if devices.contains names then some .device
  else
    match names.reverse with
    | name :: place =>
      if programDirectories.contains place.reverse && programNames.contains name then
        some .program
      else none
    | [] => none

/-- The longest name in bytes. -/
def nameLimit : Nat := 255

/-- The longest path in bytes. -/
def pathLimit : Nat := 4095

/-- The names that a path consists of. -/
def namesOf (path : String) : List String :=
  (path.splitOn "/").filter (· != "")

/-- Follows names from a place, which is given by its own names from the root. -/
def walk : List String → List String → Except Errno (List String × Node)
  | place, [] =>
    match Node.at? place with
    | some node => .ok (place, node)
    | none => .error .noEntry
  | place, name :: names =>
    match Node.at? place with
    | none => .error .noEntry
    | some .directory =>
      if nameLimit < name.utf8ByteSize then .error .nameTooLong
      else if name == "." then walk place names
      else if name == ".." then walk place.dropLast names
      else
        match Node.at? (place ++ [name]) with
        | some _ => walk (place ++ [name]) names
        | none => .error .noEntry
    | some _ => .error .notDirectory

/-- Follows a path from a directory. -/
def locate (directory path : String) : Except Errno (List String × Node) := do
  if path.isEmpty then
    throw .noEntry
  if pathLimit < path.utf8ByteSize then
    throw .nameTooLong
  let start := if path.startsWith "/" then [] else namesOf directory
  let (place, node) ← walk start (namesOf path)
  if path.endsWith "/" && node != .directory then
    throw .notDirectory
  return (place, node)

/-- The path of a place. -/
def pathOf (names : List String) : String :=
  "/" ++ String.intercalate "/" names

/-- The directory that a path leads to. -/
def enter (directory path : String) : Except Errno String := do
  let (place, node) ← locate directory path
  match node with
  | .directory => return pathOf place
  | _ => throw .notDirectory

/-- The name of the program that a path leads to. -/
def programAt (directory path : String) : Except Errno String := do
  let (place, node) ← locate directory path
  match node with
  | .program => return place.getLastD ""
  | _ => throw .accessDenied

/-- The directories in which programs are looked for where nothing is said. -/
def standardSearchPath : String := "/usr/local/sbin:/usr/local/bin:/usr/sbin:/usr/bin:/sbin:/bin"

/-- Looks for a program in directories, one after the other. A file that may not be run is passed
over, but remembered. -/
def searchProgram (directory name : String) (denied : Bool) : List String → Except Errno String
  | [] => .error (if denied then .accessDenied else .noEntry)
  | place :: places =>
    let path := if place.isEmpty then name else place ++ "/" ++ name
    match programAt directory path with
    | .ok program => .ok program
    | .error .accessDenied => searchProgram directory name true places
    | .error .noEntry | .error .notDirectory => searchProgram directory name denied places
    | .error e => .error e

/-- The program that a command names. -/
def findProgram (directory searchPath name : String) : Except Errno String :=
  if name.isEmpty then .error .noEntry
  else if name.contains '/' then programAt directory name
  else if nameLimit < name.utf8ByteSize then .error .nameTooLong
  else searchProgram directory name false (searchPath.splitOn ":")

end ContainerInit.Host
