import ContainerInit.Proofs.InitProcess.Script
import ContainerInit.Proofs.InitProcess.SideBySide

/-!
# Journals of scripts

A script is done with a controller that keeps a journal: of every call that returns, in the script
or inside of an effect, and of every effect that is over.

- **Notes** (`Note`): what is written down, with the slot as it is at that moment.
- **Recording** (`Script.record`): it changes nothing but the journal (`Script.looks_record`).
- **Settled slots** (`Slot.Settled`): an exit is recorded only where a further one is ignored. This
  is so whenever a script is over, though not inside of it (`Script.settles`).
- **Origins** (`Origin`): the two ways in which a process comes to be.
-/

namespace ContainerInit

/-- How a process comes to be. -/
inductive Origin where
  | created
  | found (state : State)

/-- The process that comes to be. -/
def Origin.process {κ : Type} (id : String) (controller : κ) (sink : Sink) : Origin → InitProcess κ
  | .created => .create id controller sink
  | .found state => .restore id controller state sink

/-- What is written down. -/
inductive Note where
  /-- An effect is over: the call of the controller, what it has given, and the slot. -/
  | answered (call : Call) (outcome : Except ControllerError Answer) (slot : Slot)
  /-- An action is over: what was got for it, and the slot. -/
  | done (action : Action) (reply : Reply) (slot : Slot)
  /-- An action that might as well not have been is over: the slot before it, and the number of
  messages that had been told before it. -/
  | spared (action : Action) (before : Slot) (place : Nat)

/-- What was written down, oldest first. -/
abbrev Journal := List Note

/-- A process after something was written down. -/
def InitProcess.noting (p : InitProcess Journal) (n : Slot → Note) : InitProcess Journal :=
  { p with controller := p.controller ++ [n p.slot] }

/-- Writes something down. -/
def note (n : Slot → Note) : Run Journal Unit :=
  modify fun p => p.noting n

/-- The controller that does what `inner` says, and writes down what it gives. -/
def noted (inner : Run Journal (Except ControllerError Answer)) : Controller Journal := fun call => do
  let outcome ← inner
  note (.answered call outcome)
  return outcome

/-- Does what a script says, and writes it down. -/
def Script.record : Script → Run Journal (Except ControllerError Answer)
  | .finish outcome => return outcome
  | .sleep millis rest => do
    InitProcess.sleep millis
    rest.record
  | .act action inner rest => do
    let reply ← InitProcess.perform (noted inner.record) action
    note (.done action reply)
    (rest reply).record

open InitProcess Run

variable {κ κ' : Type}

/-! ## Recording -/

/-- A process without its slot and its controller. -/
def InitProcess.bare (p : InitProcess κ) : InitProcess Unit :=
  { p with slot := {}, controller := () }

theorem InitProcess.bare_emitted (p : InitProcess κ) (severity : Severity) (payload : Payload) :
    (p.emitted severity payload).bare = p.bare.emitted severity payload := by
  cases hs : p.sink <;> simp [emitted, event, bare, hs]

/-- The processes differ in their slots and controllers only. -/
abbrev InitProcess.Resembles (p : InitProcess κ) (p' : InitProcess κ') : Prop := p'.bare = p.bare

theorem Bond.resembles : Bond (Resembles : InitProcess κ → InitProcess κ' → Prop) where
  id h := congrArg InitProcess.id h
  busy h := congrArg InitProcess.busy h
  clock h := congrArg InitProcess.clock h
  record {_ _ entries} _ h :=
    congrArg (fun p : InitProcess Unit => { p with log := p.log ++ entries }) h
  emit severity payload h := by
    rw [Resembles, bare_emitted, bare_emitted, h]
  sleep millis h := congrArg (fun p : InitProcess Unit => { p with clock := p.clock + millis }) h
  hold busy h := congrArg (fun p : InitProcess Unit => { p with busy }) h
  call call h := congrArg (fun p : InitProcess Unit => { p with calls := p.calls ++ [call] }) h
  write _ _ h := h

theorem alike_noted_right {k : Pair} {m : Run κ (Except ControllerError Answer)}
    {inner : Run Journal (Except ControllerError Answer)} {call : Call}
    {Q : Except ControllerError Answer → Except ControllerError Answer → Pair → Prop}
    (h : Alike Resembles (fun _ => False) k m inner Q) :
    Alike Resembles (fun _ => False) k m (noted inner call) Q := by
  rw [← bind_pure m]
  exact .step (h.mono fun _ _ _ post =>
    .write_right (fun _ _ related pair => ⟨related, pair⟩) (.ret post))

/-- What is written down is no part of what a script does. -/
theorem Script.alike_record (script : Script) {k : Pair} (slots : k.left = k.right) :
    Alike (Resembles (κ := κ)) (fun _ => False) k script.run script.record
      fun outcome outcome' k' => outcome' = outcome ∧ k'.left = k'.right := by
  induction script generalizing k with
  | finish outcome => exact .ret ⟨rfl, slots⟩
  | sleep millis rest ih =>
    refine .step ((alike_sleep .resembles millis).mono ?_)
    rintro _ _ _ rfl
    exact ih slots
  | act action inner rest ihInner ih =>
    refine .step ((alike_perform .resembles .eq
      (fun call k slots => alike_noted_right (ihInner slots)) slots).mono ?_)
    rintro a b k' ⟨slots', replies⟩
    obtain rfl : b = a := replies.eq slots'
    exact .write_right (fun p p' related pair => ⟨related, pair⟩) (ih b slots')

/-- A result, but for the controller. -/
def looks (x : Except Halt (Except ControllerError Answer × InitProcess κ)) :
    Except Halt (Except ControllerError Answer × InitProcess Unit × Slot) :=
  x.map fun (outcome, p) => (outcome, p.bare, p.slot)

theorem Run.Agree.looks_eq {x : Except Halt (Except ControllerError Answer × InitProcess κ)}
    {x' : Except Halt (Except ControllerError Answer × InitProcess κ')}
    (h : Agree Resembles (fun _ => False)
      (fun outcome outcome' k => outcome' = outcome ∧ k.left = k.right) x x') :
    looks x' = looks x := by
  cases h with
  | returned related post =>
    obtain ⟨rfl, slots⟩ := post
    exact congrArg Except.ok (Prod.ext rfl (Prod.ext related slots.symm))
  | halted => rfl
  | spoilt bad => exact bad.elim
  | lost bad => exact bad.elim

/-- **Recording changes nothing but the journal.** -/
theorem Script.looks_record (script : Script) {p : InitProcess κ} {p' : InitProcess Journal}
    (bare : p.Resembles p') (slots : p.slot = p'.slot) : looks (script.record p') = looks (script.run p) :=
  (script.alike_record (k := .of p p') slots p p' bare rfl).looks_eq

/-! ## Settled slots -/

/-- An exit is recorded only where a further one is ignored. -/
def Slot.Settled (s : Slot) : Prop := s.exit.isSome = true → s.state.onExit = .ignore

/-- Where a further exit is ignored, it stays ignored. -/
theorem State.onExit_of_mayBecome {s t : State} (edge : s.mayBecome t = true)
    (ended : s.onExit = .ignore) : t.onExit = .ignore := by
  cases s <;> cases t <;> first | rfl | exact absurd ended (by decide) | cases edge

theorem Slot.Settled.install {s : Slot} {next : State} (h : s.Settled)
    (edge : s.state.mayBecome next = true) : Slot.Settled { s with state := next } :=
  fun recorded => State.onExit_of_mayBecome edge (h recorded)

section Notes

variable {rel : InitProcess Journal → InitProcess Journal → Prop} {spoilt : Journal → Prop} {k : Pair}

theorem alike_note {n n' : Slot → Note}
    (kept : ∀ p p', rel p p' → Pair.of p p' = k → rel (p.noting n) (p'.noting n')) :
    Alike rel spoilt k (note n) (note n') fun _ _ k' => k' = k :=
  .write fun p p' related pair => ⟨kept p p' related pair, pair⟩

end Notes

/-- The pair `k` of a process with itself has become `k'`: nothing is under way that was not before,
and if the slot was settled, it still is. -/
structure Pair.Settles (k k' : Pair) : Prop where
  slots : k'.left = k'.right
  busy : k'.busy = k.busy
  settled : k.left.Settled → k'.left.Settled

section Settled

variable {controller : Controller Journal} {k : Pair}

/-- A call settles the slot again, if the controller does. Between the record of the exit of a
frozen process and its stop, the slot is not settled; nothing is said of it then. -/
theorem perform_settles {action : Action} (slots : k.left = k.right)
    (effect : ∀ call k, k.left = k.right → Alike Resembles (fun _ => False) k (controller call)
      (controller call) fun outcome outcome' k' => outcome' = outcome ∧ k.Settles k') :
    Alike Resembles (fun _ => False) k (perform controller action) (perform controller action)
      fun a b k' => b = a ∧ k.Settles k' := by
  have same : k.right.state = k.left.state := by rw [slots]
  cases action with
  | request r =>
    have operated : Alike Resembles (fun _ => False) k (operate controller r) (operate controller r)
        fun a b k' => b = a ∧ k.Settles k' := by
      refine alike_operate .resembles same (fun _ _ _ => ⟨slots, rfl, id⟩) fun call next _ free => ?_
      refine (effect call { k with busy := true } slots).mono ?_
      rintro _ outcome k' ⟨rfl, ended⟩
      refine ⟨rfl, by rw [ended.slots], ⟨ended.slots, free.symm, ended.settled⟩, ?_⟩
      intro target _ edge
      exact ⟨Slot.Twins.eq.install edge ended.slots, free.symm,
        fun h => (ended.settled h).install edge⟩
    refine .step (operated.mono ?_)
    rintro _ a k' ⟨rfl, ended⟩
    exact .ret ⟨rfl, ended⟩
  | exited code =>
    have reported : Alike Resembles (fun _ => False) k (setExited controller code)
        (setExited controller code) fun _ _ k' => k.Settles k' := by
      refine alike_setExited .resembles same (by rw [slots]) (fun _ => ⟨slots, rfl, id⟩) ?_ ?_
      · intro exit live _ stops
        refine ⟨?_, rfl, fun _ _ => rfl⟩
        simp [Pair.recorded, Pair.install, slots]
      · intro exit live _ _
        refine (effect _ (k.recorded exit) (Slot.Twins.eq.record live slots)).mono ?_
        rintro _ outcome k' ⟨rfl, ended⟩
        exact ⟨rfl, by rw [ended.slots],
          fun edge => ⟨Slot.Twins.eq.install edge ended.slots, ended.busy, fun _ _ => rfl⟩⟩
    exact .step (reported.mono fun _ _ k' ended => .ret ⟨rfl, ended⟩)
  | query q =>
    refine (alike_ask .resembles).mono ?_
    rintro _ _ _ ⟨rfl, rfl, rfl⟩
    exact ⟨by rw [slots], slots, rfl, id⟩

/-- A script that is over has left a settled slot settled. -/
theorem Script.settles (script : Script) (slots : k.left = k.right) :
    Alike Resembles (fun _ => False) k script.record script.record
      fun outcome outcome' k' => outcome' = outcome ∧ k.Settles k' := by
  induction script generalizing k with
  | finish outcome => exact .ret ⟨rfl, slots, rfl, id⟩
  | sleep millis rest ih =>
    refine .step ((alike_sleep .resembles millis).mono ?_)
    rintro _ _ _ rfl
    exact ih slots
  | act action inner rest ihInner ih =>
    refine .step ((perform_settles slots fun call k slots => ?_).mono ?_)
    · refine .step ((ihInner slots).mono ?_)
      rintro _ outcome k' ⟨rfl, ended⟩
      refine .step ((alike_note fun p p' related pair => related).mono ?_)
      rintro _ _ _ rfl
      exact .ret ⟨rfl, ended⟩
    · rintro _ a k' ⟨rfl, ended⟩
      refine .step ((alike_note fun p p' related pair => related).mono ?_)
      rintro _ _ _ rfl
      refine (ih a ended.slots).mono ?_
      rintro _ outcome k'' ⟨rfl, ended'⟩
      exact ⟨rfl, ended'.slots, ended'.busy.trans ended.busy, ended'.settled ∘ ended.settled⟩

/-- The same, of a run. -/
theorem Script.settled_of_record {script : Script} {p q : InitProcess Journal}
    {outcome : Except ControllerError Answer} (ran : script.record p = .ok (outcome, q)) :
    q.busy = p.busy ∧ (p.slot.Settled → q.slot.Settled) := by
  have ends := script.settles (k := .of p p) rfl p p rfl rfl
  rw [ran] at ends
  cases ends with
  | returned _ post => exact ⟨post.2.busy, post.2.settled⟩
  | spoilt bad => exact bad.elim

end Settled

end ContainerInit
