import ContainerInit.Host.Program
import ContainerInit.Shell.Script

/-!
# Settings of the shell

What a shell knows while it runs (`Setting`): variables, arguments, functions, where it reads and
writes, and how it goes on after a command (`Flow`). A command goes on with what comes after it
(`Rest`), so that a command that waits for the host can be followed by others.
-/

namespace ContainerInit.Shell

open Host (Ending Program Stream)

/-- A variable of the shell. -/
structure Variable where
  name : String
  value : String
  /-- Commands get it in their environment. -/
  isExported : Bool
  deriving DecidableEq

/-- How a script goes on. -/
inductive Flow where
  | onward
  /-- As many loops as given are left. -/
  | breaking (loops : Nat)
  /-- The next round of a loop begins, as many loops further out as given. -/
  | continuing (loops : Nat)
  /-- A function is left. -/
  | returning
  deriving DecidableEq

/-- Where a shell reads and writes: each stream of its process, or nowhere. -/
structure Channels where
  input : Bool := true
  output : Option Stream := some .output
  error : Option Stream := some .error

/-- What a shell knows while it runs. -/
structure Setting where
  bindings : List Variable
  /-- The name of the shell or script. -/
  name : String := "sh"
  arguments : List String := []
  /-- The status of the last command. -/
  status : UInt8 := 0
  /-- The status of the last command that was substituted in the words of this one. -/
  substituted : Option UInt8 := none
  /-- The number of the shell's process. -/
  self : Nat := 0
  /-- The processes in the background that were not waited for, latest first. -/
  children : List Nat := []
  lastChild : Option Nat := none
  /-- The statuses of processes that were waited for. -/
  awaited : List (Nat × UInt8) := []
  directory : String
  /-- What is to be done for a signal, or at the end of the shell for number 0. -/
  traps : List (Nat × String) := []
  functions : List (String × Script) := []
  flow : Flow := .onward
  /-- How many loops are around a command. -/
  loops : Nat := 0
  /-- How many functions are around a command. -/
  calls : Nat := 0
  /-- What the variables of a function were before it. -/
  shadowed : List (String × Option Variable) := []
  stopsAtFailure : Bool := false
  refusesUnset : Bool := false
  traces : Bool := false
  channels : Channels := {}

/-- What goes on after a command. -/
abbrev Rest := Setting → Program

/-- What is special about the place of a command. -/
structure Place where
  /-- A failure is looked at by what is around it. -/
  checked : Bool := false
  /-- The shell ends right after it. -/
  final : Bool := false

namespace Setting

/-! ## Variables -/

/-- The variable of a name. -/
def find? (s : Setting) (name : String) : Option Variable :=
  s.bindings.find? (·.name == name)

/-- The value of a variable. -/
def lookup? (s : Setting) (name : String) : Option String :=
  (s.find? name).map (·.value)

/-- Puts a variable in the place of the one that has its name, or takes that away. -/
def replace (s : Setting) (name : String) (v : Option Variable) : Setting :=
  { s with bindings := v.toList ++ s.bindings.filter (·.name != name) }

/-- Gives a variable a value; it stays exported if it was. -/
def assign (s : Setting) (name value : String) : Setting :=
  s.replace name (some ⟨name, value, (s.find? name).any (·.isExported)⟩)

/-- Makes a variable part of the environment of commands. -/
def exportVariable (s : Setting) (name : String) : Setting :=
  s.replace name (some ⟨name, (s.lookup? name).getD "", true⟩)

/-- The environment of commands. -/
def environment (s : Setting) : List (String × String) :=
  (s.bindings.filter (·.isExported)).map fun v => (v.name, v.value)

/-- The characters between fields. -/
def separators (s : Setting) : List Char :=
  (((s.lookup? "IFS").getD " \t\n").toList)

/-- The value of a parameter. -/
def parameter? (s : Setting) (name : String) : Option String :=
  match name with
  | "#" => some (toString s.arguments.length)
  | "?" => some (toString s.status.toNat)
  | "$" => some (toString s.self)
  | "!" => s.lastChild.map toString
  | "@" => some (String.intercalate " " s.arguments)
  | "*" =>
    some (String.intercalate ((s.separators.head?.map Char.toString).getD "") s.arguments)
  | "-" => some ""
  | "0" => some s.name
  | _ =>
    match decimal? name with
    | some n => s.arguments[n - 1]?
    | none => s.lookup? name

/-! ## Going on -/

/-- The setting after a command with a status. -/
def withStatus (s : Setting) (status : UInt8) : Setting :=
  { s with status }

/-- The next command is to run. -/
def goesOn (s : Setting) : Bool :=
  s.flow == .onward

/-- The setting at the end of a round of a loop, and whether the loop goes on. -/
def endRound (s : Setting) : Setting × Bool :=
  match s.flow with
  | .onward => (s, true)
  | .breaking n => ({ s with flow := if n ≤ 1 then .onward else .breaking (n - 1) }, false)
  | .continuing n =>
    if n ≤ 1 then ({ s with flow := .onward }, true)
    else ({ s with flow := .continuing (n - 1) }, false)
  | .returning => (s, false)

/-! ## Output -/

/-- Writes to a stream. -/
def say (s : Setting) (stream : Stream) (text : String) (next : Program) : Program :=
  let target := match stream with
    | .output => s.channels.output
    | .error => s.channels.error
  match target with
  | some stream => if text.isEmpty then next else .write stream text next
  | none => next

/-- The error message of a command. -/
def complaint (s : Setting) (text : String) : String :=
  s.name ++ ": 1: " ++ text ++ "\n"

/-- Writes an error message, and goes on with a status. -/
def fail (s : Setting) (text : String) (status : UInt8) (rest : Rest) : Program :=
  s.say .error (s.complaint text) (rest (s.withStatus status))

/-- Sends the streams of a process where the shell reads and writes. -/
def redirectAll (s : Setting) (next : Program) : Program :=
  .redirect s.channels.output s.channels.error next

end Setting

/-! ## Scripts inside of scripts -/

/-- A piece of an expanded word. -/
inductive Piece where
  /-- A character; `quoted` tells that it has no meaning of its own, and `splits` that it can end a
  field. -/
  | char (c : Char) (quoted splits : Bool)
  /-- Something was quoted, so that there is a field even without a character. -/
  | quote
  /-- A field ends. -/
  | cut
  deriving DecidableEq

/-- How scripts and words inside of a script are dealt with. -/
structure Nested where
  script : Script → Place → Setting → Rest → Program
  word : Word → Setting → (List Piece → Setting → Program) → Program

/-- The status of errors. -/
def errorStatus : UInt8 := 2

/-- Runs the text of a script; `origin` stands before what is wrong with it. -/
def Nested.text (nested : Nested) (origin text : String) (place : Place) (s : Setting)
    (rest : Rest) : Program :=
  match Script.parse text with
  | .ok script => nested.script script place s rest
  | .error reason => s.fail (origin ++ reason) errorStatus fun s => .exit s.status

/-- Ends the shell, after what is to be done at its end. -/
def leave (nested : Nested) (s : Setting) (status : UInt8) : Program :=
  match s.traps.lookup 0 with
  | none => .exit status
  | some text => nested.text "" text {} { s with traps := [], status } fun _ => .exit status

/-- Writes an error message, and ends the shell. -/
def abort (nested : Nested) (s : Setting) (text : String) : Program :=
  s.fail text errorStatus fun s => leave nested s s.status

/-- Something that runs in a process of its own, which ends after it. -/
def inSubshell (nested : Nested) (body : Place → Setting → Rest → Program) (s : Setting) :
    Program :=
  body { final := true } { s with children := [], traps := [], loops := 0 }
    fun s => leave nested s s.status

/-- The status that the end of a process stands for. -/
def statusOf : Option Ending → UInt8
  | some (.exited status) => status
  | some (.signaled n) => UInt8.ofNat (128 + n)
  | none => 127

/-- What the shell says about a command that a signal ended. -/
def signalReport : Nat → Option String
  | 1 => some "Hangup"
  | 3 => some "Quit"
  | 4 => some "Illegal instruction"
  | 5 => some "Trace/breakpoint trap"
  | 6 => some "Aborted"
  | 7 => some "Bus error"
  | 8 => some "Floating point exception"
  | 9 => some "Killed"
  | 10 => some "User defined signal 1"
  | 11 => some "Segmentation fault"
  | 12 => some "User defined signal 2"
  | 14 => some "Alarm clock"
  | 15 => some "Terminated"
  | 16 => some "Stack fault"
  | 24 => some "CPU time limit exceeded"
  | 25 => some "File size limit exceeded"
  | 26 => some "Virtual timer expired"
  | 27 => some "Profiling timer expired"
  | 29 => some "I/O possible"
  | 30 => some "Power failure"
  | 31 => some "Bad system call"
  | n =>
    if n = 34 then some "Real-time signal 0"
    else if 34 < n ∧ n ≤ 64 then some ("Real-time signal " ++ toString (n - 34))
    else none

/-- Goes on after a process that was waited for has ended. -/
def afterEnding (s : Setting) (rest : Rest) (e : Option Ending) : Program :=
  let next := rest (s.withStatus (statusOf e))
  match e with
  | some (.signaled n) =>
    match signalReport n with
    | some report => s.say .error (report ++ "\n") next
    | none => next
  | _ => next

end ContainerInit.Shell
