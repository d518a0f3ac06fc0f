import ContainerInit.Host.Image
import ContainerInit.Host.Process
import ContainerInit.Process.Options

/-!
# Hosts

The part of a system that a controller of processes deals with.

- **The table** (`Host`): the processes, those that have ended included, and a clock.
- **Requests** (`spawn`, `signal`, `ending?`, `reap`): start a process, send a signal to a process
  or a group, look whether a process has ended without letting it go, and let it go.
- **Steps** (`advance`): what one request of a program does.
- **Time** (`tick?`, `runUntil`): processes that can go on do, one step at a time; where none can,
  the clock moves to the end of the next sleep.
-/

namespace ContainerInit

/-- Processes and what surrounds them. -/
structure Host where
  /-- Milliseconds since the start of 1970. -/
  clock : Nat := 0
  /-- The number that the next process gets. -/
  nextPid : Nat := 100
  /-- The processes, oldest first. -/
  processes : List Host.Process := []
  /-- What was written, oldest first. -/
  written : List (Host.Outlet × String) := []
  environment : List (String × String) := [("PATH", Host.standardSearchPath)]
  directory : String := "/"

/-- Why a process could not be started. -/
inductive SpawnFault where
  /-- A text holds a NUL character. -/
  | nulByte
  | refused (errno : Host.Errno)
  deriving DecidableEq

/-- The wording of a fault. -/
def SpawnFault.message : SpawnFault → String
  | .nulByte => "nul byte found in provided data"
  | .refused e => e.numbered

/-- A command holds a NUL character, which no command of a system can. -/
def ExecOptions.hasNul (o : ExecOptions) : Bool :=
  let texts := o.args ++ o.env.flatMap (fun p => [p.1, p.2]) ++ o.cwd.toList
  texts.any fun s => s.contains '\x00'

namespace Host

/-- The number of the process that the controller runs in; its group has the same. -/
def selfPid : Nat := 1

/-- The process of a given number. -/
def find? (h : Host) (pid : Nat) : Option Process :=
  h.processes.find? fun p => p.pid == pid

/-- Changes the process of a given number. -/
def update (h : Host) (pid : Nat) (f : Process → Process) : Host :=
  { h with processes := h.processes.map fun p => if p.pid = pid then f p else p }

/-- How a process ended, if it has and is not gone. -/
def ending? (h : Host) (pid : Nat) : Option Ending :=
  (h.find? pid).bind fun p => match p.life with
    | .ended e => some e
    | _ => none

/-- Lets a process go that has ended. -/
def reap (h : Host) (pid : Nat) : Host :=
  h.update pid fun p => match p.life with
    | .ended _ => { p with life := .reaped }
    | _ => p

/-- Sends a signal to the processes that are selected, if there is one that is not gone. -/
def sendTo (h : Host) (selected : Process → Bool) (number : Nat) : Except Errno Host :=
  if h.processes.any fun p => selected p && p.life != .reaped then
    .ok { h with processes := h.processes.map fun p =>
      if selected p && number != 0 then p.deliver number else p }
  else .error .noProcess

/-- Sends a signal to a process, or to all processes of a group. -/
def signal (h : Host) (pid : Nat) (group : Bool) (number : Nat) : Except Errno Host :=
  h.sendTo (fun p => if group then p.group == pid else p.pid == pid) number

/-- Adds a process. -/
def add (h : Host) (p : Process) : Host :=
  { h with nextPid := h.nextPid + 1, processes := h.processes ++ [{ p with pid := h.nextPid }] }

/-- The environment of a command: the host's own, with additions, the last of which wins. -/
def environmentOf (h : Host) (additions : List (String × String)) : List (String × String) :=
  additions.foldl (fun e a => e.filter (·.1 != a.1) ++ [a]) h.environment

/-- Finds what a command does. -/
def prepare (h : Host) (o : ExecOptions) : Except SpawnFault Program :=
  if o.hasNul then .error .nulByte
  else
    let found : Except Errno Program := do
      let directory ← match o.cwd with
        | some path => enter h.directory path
        | none => pure h.directory
      load ⟨o.args, h.environmentOf o.env, directory⟩
    match found with
    | .ok program => .ok program
    | .error e => .error (.refused e)

/-- Starts a command as a process, in a group of its own or in the controller's. -/
def spawn (h : Host) (o : ExecOptions) (ownGroup : Bool) : Except SpawnFault (Nat × Host) := do
  let program ← h.prepare o
  let group := if ownGroup then h.nextPid else selfPid
  return (h.nextPid, h.add { pid := h.nextPid, parent := selfPid, group, program })

/-- What was written to an outlet. -/
def textAt (h : Host) (outlet : Outlet) : String :=
  String.join ((h.written.filter (·.1 == outlet)).map (·.2))

/-! ## Steps of processes -/

/-- A process has to wait for time to pass or for another process. -/
def isWaiting (h : Host) (p : Process) : Bool :=
  match p.program with
  | .sleep _ _ =>
    match p.wakeAt with
    | some t => h.clock < t
    | none => false
  | .await pid givesWay _ => (h.find? pid).any (·.isAlive) && !(givesWay && !p.noted.isEmpty)
  | _ => false

/-- A process can go on. -/
def isReady (h : Host) (p : Process) : Bool :=
  p.isAlive && !p.isStopped && !h.isWaiting p

/-- What a process can learn about itself. -/
def identityOf (h : Host) (p : Process) : Identity where
  pid := p.pid
  parent := p.parent
  group := p.group
  parentGroup := ((h.find? p.parent).map (·.group)).getD selfPid

/-- The next step of a process. -/
def advance (h : Host) (p : Process) : Host :=
  let go (program : Program) : Host := h.update p.pid fun p => { p with program }
  match p.program with
  | .exit status => h.update p.pid fun p => { p with life := .ended (.exited status) }
  | .write stream text next =>
    { go next with written := h.written ++ (p.outlet stream).toList.map (·, text) }
  | .readLine next =>
    let (line, input) := p.nextLine
    h.update p.pid fun p => { p with input, program := next line }
  | .sleep millis next =>
    match p.wakeAt with
    | none => h.update p.pid fun p => { p with wakeAt := some (h.clock + millis) }
    | some _ => h.update p.pid fun p => { p with wakeAt := none, program := next }
  | .identify next => go (next (h.identityOf p))
  | .kill target number next =>
    let selected (q : Process) : Bool := match target with
      | .process pid => q.pid == pid
      | .group group => q.group == group
      | .ownGroup => q.group == p.group
    match h.sendTo selected number with
    | .ok h => h.update p.pid fun p => { p with program := next true }
    | .error _ => go (next false)
  | .react number reaction next =>
    h.update p.pid fun p => { p.react number reaction with program := next }
  | .noted next =>
    h.update p.pid fun p => { p with noted := p.noted.drop 1, program := next p.noted.head? }
  | .fork input collects child next =>
    (go (next h.nextPid)).add { p with
      parent := p.pid, program := child, noted := [], pending := []
      input := input.getD p.input
      output := if collects then some (.collector h.nextPid) else p.output
      reactions := Process.inherited p.reactions }
  | .await pid _ next =>
    match h.ending? pid with
    | some e => (go (next (some e))).reap pid
    | none => go (next none)
  | .collected pid next => go (next (h.textAt (.collector pid)))
  | .join group next => h.update p.pid fun p => { p with group, program := next }
  | .redirect output error next =>
    h.update p.pid fun p => { p with
      output := output.bind p.outlet, error := error.bind p.outlet, program := next }
  | .exec command failed =>
    match load command with
    | .ok program =>
      h.update p.pid fun p => { p with program, reactions := Process.inherited p.reactions }
    | .error e => go (failed e)

/-- The ends of the sleeps that processes are in. -/
def wakeTimes (h : Host) : List Nat :=
  h.processes.filterMap fun p => if p.isAlive && !p.isStopped then p.wakeAt else none

/-- The next step of the first process that can go on; where none can, time passes until the next
sleep ends. -/
def tick? (h : Host) : Option Host :=
  match h.processes.find? h.isReady with
  | some p => some (h.advance p)
  | none => h.wakeTimes.min?.map fun t => { h with clock := max h.clock t }

/-- Steps until a condition holds, or nothing more happens before the deadline. -/
def runUntil (condition : Host → Bool) (deadline : Option Nat) : (fuel : Nat) → Host → Host
  | 0, h => h
  | fuel + 1, h =>
    if condition h then h
    else
      match h.tick?, deadline with
      | some next, none => runUntil condition deadline fuel next
      | some next, some t =>
        if next.clock ≤ t then runUntil condition deadline fuel next
        else { h with clock := max h.clock t }
      | none, some t => { h with clock := max h.clock t }
      | none, none => h

/-- The number of steps that are tried. -/
def stepLimit : Nat := 1000000

/-- Lets the processes go on for some time. -/
def elapse (h : Host) (millis : Nat) : Host :=
  h.runUntil (fun _ => false) (some (h.clock + millis)) stepLimit

/-- A process runs, and may still end. -/
def isRunning (h : Host) (pid : Nat) : Bool :=
  (h.find? pid).any (·.isAlive)

/-- Lets time pass until a process has ended, or nothing happens any more. -/
def runToEnd (h : Host) (pid : Nat) : Host :=
  (h.elapse 0).runUntil (fun h => !h.isRunning pid) none stepLimit

end Host

end ContainerInit
