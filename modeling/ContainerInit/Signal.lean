/-!
# Signals

- **The signals** (`Signal`): the thirty standard ones of Linux, numbered 1 to 31 without 16.
- **Numbers** (`number`, `ofNumber?`): each signal has one number and each number at most one
  signal, so the two are inverse to each other (`ofNumber?_number`, `number_of_ofNumber?`).
- **Exit codes** (`exitCode`): a process that a signal ended reports 128 plus the signal's number.
-/

namespace ContainerInit

/-- A standard signal of Linux. -/
inductive Signal where
  | hangup
  | interrupt
  | quit
  | illegal
  | trap
  | abort
  | bus
  | floatingPoint
  | kill
  | user1
  | segmentation
  | user2
  | pipe
  | alarm
  | terminate
  | child
  | resume
  | stop
  | terminalStop
  | terminalInput
  | terminalOutput
  | urgent
  | cpuLimit
  | fileLimit
  | virtualAlarm
  | profile
  | windowChange
  | pollable
  | power
  | badCall
  deriving DecidableEq

namespace Signal

/-- Every signal, by number. -/
def all : List Signal := [
  .hangup, .interrupt, .quit, .illegal, .trap, .abort, .bus, .floatingPoint, .kill, .user1,
  .segmentation, .user2, .pipe, .alarm, .terminate, .child, .resume, .stop, .terminalStop,
  .terminalInput, .terminalOutput, .urgent, .cpuLimit, .fileLimit, .virtualAlarm, .profile,
  .windowChange, .pollable, .power, .badCall]

/-- The number of a signal on Linux. -/
def number : Signal → Nat
  | .hangup => 1
  | .interrupt => 2
  | .quit => 3
  | .illegal => 4
  | .trap => 5
  | .abort => 6
  | .bus => 7
  | .floatingPoint => 8
  | .kill => 9
  | .user1 => 10
  | .segmentation => 11
  | .user2 => 12
  | .pipe => 13
  | .alarm => 14
  | .terminate => 15
  | .child => 17
  | .resume => 18
  | .stop => 19
  | .terminalStop => 20
  | .terminalInput => 21
  | .terminalOutput => 22
  | .urgent => 23
  | .cpuLimit => 24
  | .fileLimit => 25
  | .virtualAlarm => 26
  | .profile => 27
  | .windowChange => 28
  | .pollable => 29
  | .power => 30
  | .badCall => 31

/-- The name of a signal. -/
def name : Signal → String
  | .hangup => "SIGHUP"
  | .interrupt => "SIGINT"
  | .quit => "SIGQUIT"
  | .illegal => "SIGILL"
  | .trap => "SIGTRAP"
  | .abort => "SIGABRT"
  | .bus => "SIGBUS"
  | .floatingPoint => "SIGFPE"
  | .kill => "SIGKILL"
  | .user1 => "SIGUSR1"
  | .segmentation => "SIGSEGV"
  | .user2 => "SIGUSR2"
  | .pipe => "SIGPIPE"
  | .alarm => "SIGALRM"
  | .terminate => "SIGTERM"
  | .child => "SIGCHLD"
  | .resume => "SIGCONT"
  | .stop => "SIGSTOP"
  | .terminalStop => "SIGTSTP"
  | .terminalInput => "SIGTTIN"
  | .terminalOutput => "SIGTTOU"
  | .urgent => "SIGURG"
  | .cpuLimit => "SIGXCPU"
  | .fileLimit => "SIGXFSZ"
  | .virtualAlarm => "SIGVTALRM"
  | .profile => "SIGPROF"
  | .windowChange => "SIGWINCH"
  | .pollable => "SIGIO"
  | .power => "SIGPWR"
  | .badCall => "SIGSYS"

/-- The signal with a given number. -/
def ofNumber? (n : Nat) : Option Signal :=
  all.find? fun s => s.number == n

/-- The signal with a given name. -/
def ofName? (name : String) : Option Signal :=
  all.find? fun s => s.name == name

/-- The text of a signal: its name with its number in parentheses. -/
def text (s : Signal) : String :=
  s.name ++ "(" ++ toString s.number ++ ")"

theorem mem_all (s : Signal) : s ∈ all := by
  cases s <;> decide

/-- **Numbers lead back to their signals.** -/
theorem ofNumber?_number (s : Signal) : ofNumber? s.number = some s := by
  cases s <;> rfl

/-- Names lead back to their signals. -/
theorem ofName?_name (s : Signal) : ofName? s.name = some s := by
  cases s <;> decide

theorem number_of_ofNumber? {n : Nat} {s : Signal} (h : ofNumber? n = some s) : s.number = n := by
  simpa using List.find?_some h

theorem number_le (s : Signal) : 1 ≤ s.number ∧ s.number ≤ 31 := by
  cases s <;> decide

end Signal

/-- What a process that was ended by signal number `n` adds to `n` to form its exit code. -/
def signalExitBase : Int32 := 128

/-- The exit code recorded when the real one could not be observed. -/
def unknownExitCode : Int32 := 255

/-- The exit code of a process that `s` ended: 128 plus the number of the signal. -/
def Signal.exitCode (s : Signal) : Int32 :=
  signalExitBase + Int32.ofNat s.number

/-- A number that is not the number of a signal. -/
structure InvalidSignal where
  number : UInt32
  deriving DecidableEq

/-- The wording of the error. -/
def InvalidSignal.message (e : InvalidSignal) : String :=
  "Invalid signal: " ++ toString e.number.toNat

/-- The signal with a given number, or the number as an error. -/
def Signal.ofNumber (n : UInt32) : Except InvalidSignal Signal :=
  match ofNumber? n.toNat with
  | some s => .ok s
  | none => .error ⟨n⟩

end ContainerInit
