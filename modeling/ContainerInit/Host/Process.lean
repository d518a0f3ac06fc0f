import ContainerInit.Host.Program

/-!
# Processes of a host

- **Lives** (`Life`): a process is alive until it ends; its ending is kept until it is reaped.
- **Signals** (`Process.deliver`): what a signal does to a process. Only a process that is alive can
  be changed by one (`deliver_of_not_alive`), and no signal revives or reaps a process.
-/

namespace ContainerInit.Host

/-- How far the life of a process has come. -/
inductive Life where
  | alive
  /-- It has ended, and nobody has asked how. -/
  | ended (ending : Ending)
  /-- It is gone. -/
  | reaped
  deriving DecidableEq

/-- Where a stream of a process goes. -/
inductive Outlet where
  /-- To a stream of the host. -/
  | host (stream : Stream)
  /-- To what is collected from a process. -/
  | collector (pid : Nat)
  deriving DecidableEq

/-- A process. -/
structure Process where
  pid : Nat
  parent : Nat
  group : Nat
  life : Life := .alive
  isStopped : Bool := false
  program : Program
  reactions : List (Nat × Reaction) := []
  /-- Signals that the program has not asked for yet. -/
  noted : List Nat := []
  /-- Signals that wait until the process is continued. -/
  pending : List Nat := []
  /-- The end of the sleep that it is in. -/
  wakeAt : Option Nat := none
  /-- What is left to read. -/
  input : String := ""
  output : Option Outlet := some (.host .output)
  error : Option Outlet := some (.host .error)

/-- What a signal does by itself. -/
inductive Effect where
  | ends
  | stops
  | nothing
  deriving DecidableEq

/-- What the signal of a given number does by itself. -/
def Effect.standard (number : Nat) : Effect :=
  match number with
  | 17 | 18 | 23 | 28 => .nothing
  | 19 | 20 | 21 | 22 => .stops
  | _ => .ends

namespace Process

/-- The number of the signal that ends a process in any case. -/
def killNumber : Nat := 9

/-- The number of the signal that stops a process in any case. -/
def stopNumber : Nat := 19

/-- The number of the signal that continues a stopped process. -/
def continueNumber : Nat := 18

/-- The process has not ended. -/
def isAlive (p : Process) : Bool :=
  p.life == .alive

/-- Its reaction to a signal. -/
def reaction (p : Process) (number : Nat) : Reaction :=
  (p.reactions.lookup number).getD .standard

/-- Does what the reaction to a signal is. -/
def respond (p : Process) (number : Nat) : Process :=
  match p.reaction number with
  | .ignore => p
  | .note => if p.noted.contains number then p else { p with noted := p.noted ++ [number] }
  | .standard =>
    match Effect.standard number with
    | .nothing => p
    | .stops => { p with isStopped := true }
    | .ends => { p with life := .ended (.signaled number) }

/-- Responds to signals one after the other, as long as the process lives. -/
def respondAll (p : Process) (numbers : List Nat) : Process :=
  numbers.foldl (fun p n => if p.isAlive then p.respond n else p) p

/-- What a signal does to a process. A stopped process responds when it is continued. -/
def deliver (p : Process) (number : Nat) : Process :=
  if !p.isAlive then p
  else if number = killNumber then { p with life := .ended (.signaled number) }
  else if number = stopNumber then { p with isStopped := true }
  else if number = continueNumber then
    { p with isStopped := false, pending := [] }.respondAll (p.pending ++ [number])
  else if p.isStopped then { p with pending := p.pending ++ [number] }
  else p.respond number

theorem deliver_of_not_alive {p : Process} (h : p.isAlive = false) (n : Nat) :
    p.deliver n = p := by
  simp [deliver, h]

/-- Changes the reaction to a signal; two signals do as they always do. -/
def react (p : Process) (number : Nat) (reaction : Reaction) : Process :=
  if number = killNumber ∨ number = stopNumber then p
  else { p with reactions := (number, reaction) :: p.reactions }

/-- Reactions that outlast the program that set them up. -/
def inherited (reactions : List (Nat × Reaction)) : List (Nat × Reaction) :=
  reactions.map fun
    | (n, .ignore) => (n, .ignore)
    | (n, _) => (n, .standard)

/-- Where one of its streams goes. -/
def outlet (p : Process) : Stream → Option Outlet
  | .output => p.output
  | .error => p.error

/-- The next line of what a process has to read, with the line feed that ends it, and what is left
after it. -/
def nextLine (p : Process) : Option String × String :=
  if p.input.isEmpty then (none, "")
  else
    let line := p.input.toList.takeWhile (· != '\n')
    let rest := p.input.toList.drop line.length
    (some (String.ofList (line ++ rest.take 1)), String.ofList (rest.drop 1))

end Process

end ContainerInit.Host
