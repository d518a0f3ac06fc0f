import ContainerInit.Interleaving.Basic

/-!
# Races

Several callers do one thing each, all at once, while the controller always succeeds. They take
turns (`Interleaving.turn`), one atomic step at a time, until every call has returned
(`Interleaving.race`).
-/

namespace ContainerInit.Interleaving

/-- What a caller does when it is its turn: the controller succeeds as soon as it is called. -/
def nextChoice (c : Interleaving) (caller : Caller) : Choice :=
  match c.frames caller with
  | f :: _ => if f.stage.isPerforming then .finish (.ok .done) else .go
  | [] => .go

/-- One step of a caller, or none if it has to wait. -/
def turn (c : Interleaving) (caller : Caller) : Interleaving :=
  (c.step? caller (c.nextChoice caller)).getD c

/-- Every caller has a turn, `rounds` times, or until all their calls have returned. -/
def rounds (c : Interleaving) (callers : List Caller) : (rounds : Nat) → Interleaving
  | 0 => c
  | n + 1 =>
    if callers.all fun caller => (c.frames caller).isEmpty then c
    else rounds (callers.foldl turn c) callers n

/-- The number of steps that no call exceeds, with those for the slot lock. -/
def stepsPerCall : Nat := 16

/-- Caller `n` does the `n`th action, and all take turns until they are done. At each time at least
one call can go on, so `stepsPerCall` rounds for each caller are enough. -/
def race (c : Interleaving) (actions : List Action) : Interleaving :=
  let callers := List.range actions.length
  let started := (callers.zip actions).foldl (fun c p => (c.begin? p.1 p.2).getD c) c
  started.rounds callers (stepsPerCall * actions.length)

/-- How many calls have returned without an error. -/
def successes (c : Interleaving) : Nat :=
  c.replies.countP fun
    | .failed _ => false
    | _ => true

/-- How many events of a kind were emitted. -/
def countKind (c : Interleaving) (kind : PayloadKind) : Nat :=
  c.payloads.countP fun p => p.kind == kind

end ContainerInit.Interleaving
