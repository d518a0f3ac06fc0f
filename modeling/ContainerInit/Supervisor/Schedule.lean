import ContainerInit.Supervisor.Basic
import ContainerInit.Supervisor.Filter

/-!
# A supervision from beginning to end

One schedule of a supervision: whatever task can go on does, before time passes
(`Supervision.next?`), and an interrupt comes, if one does, when the command has written its
first line. `supervise` gives all that can be seen from outside (`Supervised`).
-/

namespace ContainerInit

namespace Supervision

/-- The command has written a line. -/
def hasLine (s : Supervision) : Bool :=
  (s.process.controller.host.textAt (.host .output)).contains '\n'

/-- The grace period is over as soon as it begins. -/
def hasNoGrace (s : Supervision) : Bool :=
  match s.phase with
  | .terminating _ => s.config.killGrace == 0
  | _ => false

/-- Time passes, but not beyond the end of the grace period. -/
def pass? (s : Supervision) : Option Supervision :=
  match s.tick?, s.phase with
  | some next, .terminating deadline =>
    if next.process.clock ≤ deadline then some next
    else
      let wait (h : Host) : Host := { h with clock := max h.clock deadline }
      some { s with process := s.process.letRun wait }
  | none, .terminating deadline =>
    let wait (h : Host) : Host := { h with clock := max h.clock deadline }
    if s.process.clock < deadline then some { s with process := s.process.letRun wait } else none
  | next, _ => next

/-- What happens next, and whether it was the interrupt. -/
def next? (s : Supervision) (interrupt : Bool) : Option (Supervision × Bool) :=
  let tasks := (if s.hasNoGrace then s.expire? else none) <|> s.delete? <|> s.join? <|>
    s.waiterStep? <|> s.expire?
  match tasks with
  | some next => some (next, interrupt)
  | none =>
    let settled := s.process.controller.host.elapse 0
    let s := { s with process := s.process.letRun fun _ => settled }
    match s.waiterStep? with
    | some next => some (next, interrupt)
    | none =>
      if interrupt && s.hasLine then s.interrupt?.map (·, false)
      else s.pass?.map (·, interrupt)

/-- Goes on until nothing happens any more. -/
def run : (fuel : Nat) → Supervision → (interrupt : Bool) → Supervision
  | 0, s, _ => s
  | fuel + 1, s, interrupt =>
    match s.phase with
    | .finished _ | .failed _ => s
    | _ =>
      match s.next? interrupt with
      | some (next, interrupt) => run fuel next interrupt
      | none => s

/-- The number of turns that are tried. -/
def turnLimit : Nat := 1000000

end Supervision

/-- What can be seen of a supervision from outside. -/
structure Supervised where
  /-- The exit code, or none if the supervision never ends. -/
  code : Option UInt8
  output : String
  error : String
  log : Log

/-- The exit code of a supervision that failed. -/
def failureCode : UInt8 := 1

/-- Supervises a command from beginning to end. -/
def supervise (args : List String) (lookup : String → Option String) (fresh : Uuid) (host : Host)
    (interrupt : Bool) : Supervised :=
  match Supervision.begin args lookup fresh host with
  | .failed f log => ⟨some failureCode, "", f.text, log⟩
  | .underWay s =>
    let s := Supervision.run Supervision.turnLimit s interrupt
    let host := s.process.controller.host
    let (code, report) := match s.phase with
      | .failed f => (some failureCode, f.text)
      | .finished code => (some (UInt8.ofNat (code.toInt % 256).toNat), "")
      | _ => (none, "")
    ⟨code, host.textAt (.host .output), host.textAt (.host .error) ++ report, s.process.log⟩

end ContainerInit
