import ContainerInit.Proofs.InitProcess.Journal

/-!
# Restored processes

A process on which no call is in progress is restored from its state: the state is all that the new
one is given. From then on the two cannot be told apart (`restore_faithful`), but by the questions
that show an exit: an exit that was recorded before is missing.

- **The missing exit** (`Slot.without`, `Note.without`): what is seen of the restored process, as a
  function of what is seen of the original one.
- **What is in common** (`InitProcess.Continues`): everything that has happened since. It is a bond,
  and the slots of the two processes are twins (`Slot.Forgets`), because an exit was recorded only
  where a further one is ignored.
- **Scripts** (`Script.Heedless`): what is done next may depend on every reply, but not on the exit
  that a reply shows.
-/

namespace ContainerInit

open InitProcess Run

/-! ## The missing exit -/

/-- The slot of a process that was restored when the exit `lost` was recorded. -/
def Slot.without (lost : Option ExitStatus) (s : Slot) : Slot :=
  match lost with
  | none => s
  | some _ => { s with exit := none }

/-- The reply to an action, if no exit is recorded. -/
def Action.replyWithout (id : String) (state : State) : Action → Reply → Reply
  | .query .exitStatus, _ => .exit none
  | .query .snapshot, _ => .snapshot ⟨id, state, none⟩
  | .query .description, _ => .text (ProcessSnapshot.text ⟨id, state, none⟩)
  | _, reply => reply

/-- What is written down of a process `id` that was restored when the exit `lost` was recorded,
where `n` is written down of the original one. -/
def Note.without (id : String) (lost : Option ExitStatus) (n : Note) : Note :=
  match lost, n with
  | none, n => n
  | some _, .answered call outcome slot => .answered call outcome (slot.without lost)
  | some _, .done action reply slot =>
    .done action (action.replyWithout id slot.state reply) (slot.without lost)
  | some _, .spared action before place => .spared action (before.without lost) place

/-- The second slot is the first one without the exit `lost`. If there is such an exit, it is the
one of the first slot, and no further one can be recorded. -/
structure Slot.Forgets (lost : Option ExitStatus) (s s' : Slot) : Prop where
  eq : s' = s.without lost
  past : lost.isSome = true → s.exit = lost ∧ s.state.onExit = .ignore

namespace Slot.Forgets

variable {lost : Option ExitStatus} {s s' : Slot}

theorem state (h : Slot.Forgets lost s s') : s'.state = s.state := by
  rw [h.eq]
  cases lost <;> rfl

/-- Calls cannot tell the slots apart. -/
theorem twins (lost : Option ExitStatus) : Slot.Twins (Slot.Forgets lost) where
  state h := h.state
  late {s s'} h := by
    cases lost with
    | none => rw [h.eq, Slot.without]
    | some exit =>
      have ignored := (h.past rfl).2
      exact ⟨fun _ => .inr ignored, fun _ => .inr (h.state ▸ ignored)⟩
  install {s s' next} edge h := by
    refine ⟨?_, fun recorded => ?_⟩
    · rw [h.eq]
      cases lost <;> rfl
    · obtain ⟨same, ignored⟩ := h.past recorded
      exact ⟨same, State.onExit_of_mayBecome edge ignored⟩
  record {s s' exit} live h := by
    cases lost with
    | none => exact ⟨by rw [h.eq]; rfl, nofun⟩
    | some before => exact absurd (.inr (h.past rfl).2) live

/-- A settled process, and what is left of it if its state is all that is known. -/
theorem of_settled (settled : s.Settled) : Slot.Forgets s.exit s { state := s.state } := by
  refine ⟨?_, fun recorded => ⟨rfl, settled recorded⟩⟩
  cases h : s.exit with
  | none =>
    rw [Slot.without, ← h]
  | some exit => rfl

end Slot.Forgets

theorem Note.without_answered {lost : Option ExitStatus} {id : String} {call : Call}
    {outcome : Except ControllerError Answer} {s s' : Slot} (slots : Slot.Forgets lost s s') :
    .answered call outcome s' = (Note.answered call outcome s).without id lost := by
  rw [slots.eq]
  cases lost <;> rfl

/-- What is got from the second process is what is got from the first one, without the exit. -/
theorem Note.without_done {lost : Option ExitStatus} {action : Action} {k : Pair} {a b : Reply}
    (slots : Slot.Forgets lost k.left k.right) (replies : action.Replies k a b) :
    .done action b k.right = (Note.done action a k.left).without k.id lost := by
  cases lost with
  | none =>
    have same : k.left = k.right := slots.eq.symm
    rw [replies.eq same, same]
    rfl
  | some exit =>
    rw [slots.eq]
    cases action with
    | query q =>
      obtain ⟨rfl, rfl⟩ := replies
      rw [slots.eq]
      cases q <;> rfl
    | _ => rw [show b = a from replies]; rfl

/-! ## What is in common -/

/-- The process, restored from its state. -/
def InitProcess.again (p : InitProcess Journal) : InitProcess Journal :=
  { restore p.id [] p.slot.state p.sink with clock := p.clock }

/-- The process `p` was restored when it was at `start`, and the restored one is `r` now. -/
structure InitProcess.Continues (start p r : InitProcess Journal) : Prop where
  id : p.id = start.id
  id' : r.id = p.id
  sink : p.sink = start.sink
  sink' : r.sink = p.sink
  busy : r.busy = p.busy
  clock : r.clock = p.clock
  calls : p.calls = start.calls ++ r.calls
  events : p.events.events = start.events.events ++ r.events.events
  log : ∃ entries, p.log = start.log ++ entries ∧ r.log = start.again.log ++ entries
  notes : ∃ notes, p.controller = start.controller ++ notes ∧
    r.controller = notes.map (Note.without start.id start.slot.exit)

namespace InitProcess.Continues

variable {start p r : InitProcess Journal}

theorem refl (free : start.busy = false) : start.Continues start start.again where
  id := rfl
  id' := rfl
  sink := rfl
  sink' := rfl
  busy := free.symm
  clock := rfl
  calls := (List.append_nil _).symm
  events := (List.append_nil _).symm
  log := ⟨[], (List.append_nil _).symm, (List.append_nil _).symm⟩
  notes := ⟨[], (List.append_nil _).symm, rfl⟩

/-- What the sink has received since. -/
theorem told (h : start.Continues p r) : p.told = start.told ++ r.told := by
  obtain ⟨entries, log, log'⟩ := h.log
  rw [InitProcess.told, InitProcess.told, InitProcess.told, h.sink', h.sink]
  cases start.sink with
  | memory => rw [h.events, List.map_append]
  | log =>
    simp only [log, log', List.filterMap_append]
    rfl

theorem log_append (h : start.Continues p r) (entries : Log) :
    start.Continues { p with log := p.log ++ entries } { r with log := r.log ++ entries } := by
  obtain ⟨since, log, log'⟩ := h.log
  refine { h with log := ⟨since ++ entries, ?_, ?_⟩ }
  · rw [log, List.append_assoc]
  · rw [log', List.append_assoc]

theorem bond (start : InitProcess Journal) : Bond (Continues start) where
  id h := h.id'
  busy h := h.busy
  clock h := h.clock
  record _ h := h.log_append _
  emit {p r} severity payload h := by
    have same : r.event severity payload = p.event severity payload := by
      rw [event, event, h.id', h.clock]
    cases hs : p.sink with
    | memory =>
      rw [emitted_memory hs, emitted_memory (h.sink'.trans hs), same]
      refine { h with events := ?_ }
      simp only [MemorySink.events_emit, h.events, List.append_assoc]
    | log =>
      rw [emitted_log hs, emitted_log (h.sink'.trans hs), same]
      exact h.log_append _
  sleep millis h := { h with clock := congrArg (· + millis) h.clock }
  hold busy h := { h with busy := rfl }
  call call h := { h with calls := by rw [h.calls, List.append_assoc] }
  write slot slot' h := { h with }

/-- Something is written down of both. -/
theorem note (h : start.Continues p r) {n n' : Slot → Note}
    (without : n' r.slot = (n p.slot).without start.id start.slot.exit) :
    start.Continues (p.noting n) (r.noting n') := by
  obtain ⟨notes, since, since'⟩ := h.notes
  refine { h with notes := ⟨notes ++ [n p.slot], ?_, ?_⟩ }
  · rw [noting, since, List.append_assoc]
  · rw [noting, since', without, List.map_append, List.map_singleton]

end InitProcess.Continues

/-! ## Scripts -/

/-- What is done next does not depend on the exit that the reply to a question shows. -/
def Script.Heedless : Script → Prop
  | .finish _ => True
  | .sleep _ rest => rest.Heedless
  | .act action inner rest =>
    inner.Heedless ∧ (∀ reply, (rest reply).Heedless) ∧
      ∀ q, action = .query q → ∀ id state exit,
        rest (q.reply ⟨id, state, none⟩) = rest (q.reply ⟨id, state, exit⟩)

/-- What is done next is the same after the two replies. -/
theorem Action.Replies.heedless {action : Action} {rest : Reply → Script} {k : Pair} {a b : Reply}
    {lost : Option ExitStatus} (h : action.Replies k a b) (slots : Slot.Forgets lost k.left k.right)
    (heed : ∀ q, action = .query q → ∀ id state exit,
      rest (q.reply ⟨id, state, none⟩) = rest (q.reply ⟨id, state, exit⟩)) : rest b = rest a := by
  cases action with
  | query q =>
    rw [h.1, h.2, slots.state, ← heed q rfl _ _ k.right.exit, ← heed q rfl _ _ k.left.exit]
  | _ => rw [show b = a from h]

/-- A script goes on alike with the original process and with the restored one. -/
theorem Script.continues {script : Script} (heedless : script.Heedless) {start : InitProcess Journal}
    {k : Pair} (slots : Slot.Forgets start.slot.exit k.left k.right) :
    Alike start.Continues (fun _ => False) k script.record script.record fun outcome outcome' k' =>
      outcome' = outcome ∧ Slot.Forgets start.slot.exit k'.left k'.right := by
  induction script generalizing k with
  | finish outcome => exact .ret ⟨rfl, slots⟩
  | sleep millis rest ih =>
    refine .step ((alike_sleep (Continues.bond start) millis).mono ?_)
    rintro _ _ _ rfl
    exact ih heedless slots
  | act action inner rest ihInner ih =>
    obtain ⟨heedlessInner, heedlessRest, heed⟩ := heedless
    have effect : ∀ (call : Call) (k : Pair), Slot.Forgets start.slot.exit k.left k.right →
        Alike start.Continues (fun _ => False) k (noted inner.record call) (noted inner.record call)
          fun outcome outcome' k' =>
            outcome' = outcome ∧ Slot.Forgets start.slot.exit k'.left k'.right := by
      intro call k slots
      refine .step ((ihInner heedlessInner slots).mono ?_)
      rintro _ outcome k' ⟨rfl, slots'⟩
      refine .step ((alike_note fun p r since pair => since.note ?answered).mono ?_)
      case answered =>
        rw [show r.slot = k'.right from congrArg Pair.right pair]
        rw [show p.slot = k'.left from congrArg Pair.left pair]
        exact Note.without_answered slots'
      rintro _ _ _ rfl
      exact .ret ⟨rfl, slots'⟩
    refine .step ((alike_perform (Continues.bond start) (Slot.Forgets.twins _) effect slots).mono ?_)
    rintro a b k' ⟨slots', replies⟩
    refine .step ((alike_note fun p r since pair => since.note ?done).mono ?_)
    case done =>
      rw [show r.slot = k'.right from congrArg Pair.right pair]
      rw [show p.slot = k'.left from congrArg Pair.left pair, ← since.id]
      rw [show p.id = k'.id from congrArg Pair.id pair]
      exact Note.without_done slots' replies
    rintro _ _ _ rfl
    rw [replies.heedless slots' heed]
    exact ih a (heedlessRest a) slots'

/-! ## Faithfulness -/

/-- A process that was just made, or found in some state. -/
inductive InitProcess.Begun : InitProcess Journal → Prop
  | created (id : String) (sink : Sink) : Begun (create id [] sink)
  | restored (id : String) (state : State) (sink : Sink) : Begun (restore id [] state sink)

theorem InitProcess.Begun.fresh {p : InitProcess Journal} (begun : p.Begun) :
    p.busy = false ∧ p.slot.Settled := by
  cases begun <;> exact ⟨rfl, nofun⟩

/-- A script that is allowed returns. -/
theorem Script.record_returns {script : Script} (allowed : script.Allowed false)
    {p : InitProcess Journal} (free : p.busy = false) :
    ∃ outcome q, script.record p = .ok (outcome, q) := by
  have idle : script.Allowed p.core.busy := by
    rw [show p.core.busy = false from free]
    exact allowed
  have told : script.Told Journal p.core := Script.told idle
  obtain ⟨outcome, q, ran, -⟩ := told p rfl
  have same := script.looks_record (show p.Resembles p from rfl) rfl
  rw [ran] at same
  cases recorded : script.record p with
  | error halt => rw [recorded] at same; cases same
  | ok x => exact ⟨x.1, x.2, rfl⟩

/-- **Restoring is faithful.** A process is just made, or found in any state, and goes through a
script that is completed; it is at `start` then. Restored from its state, it does the same in any
further script: the script returns the same from both or halts alike in both, and it returns where
it is allowed. All calls give the same replies, inside of effects too, the slots are in the same
states, and the calls of the controller, the events and the log since then are the same. What is
missing is an exit that was recorded at `start`: in the slot, and in the replies that show it. -/
theorem restore_faithful {origin start : InitProcess Journal} {past future : Script}
    {outcome : Except ControllerError Answer} (begun : origin.Begun)
    (ran : past.record origin = .ok (outcome, start)) (heedless : future.Heedless) :
    (∀ outcome p, future.record start = .ok (outcome, p) →
      ∃ r, future.record start.again = .ok (outcome, r) ∧ start.Continues p r ∧
        p.told = start.told ++ r.told ∧ Slot.Forgets start.slot.exit p.slot r.slot) ∧
    (∀ halt, future.record start = .error halt → future.record start.again = .error halt) ∧
    (future.Allowed false → ∃ outcome p, future.record start = .ok (outcome, p)) := by
  obtain ⟨free, unrecorded⟩ := begun.fresh
  obtain ⟨busy, settled⟩ := Script.settled_of_record ran
  have idle : start.busy = false := busy.trans free
  have slots := Slot.Forgets.of_settled (settled unrecorded)
  have ends := Script.continues (k := .of start start.again) heedless slots start start.again
    (.refl idle) rfl
  refine ⟨?_, ?_, fun allowed => Script.record_returns allowed idle⟩
  · intro outcome p done
    rw [done] at ends
    generalize restored : future.record start.again = x at ends
    cases ends with
    | returned since post =>
      obtain ⟨rfl, slots'⟩ := post
      exact ⟨_, rfl, since, since.told, slots'⟩
    | spoilt bad => exact bad.elim
  · intro halt stuck
    rw [stuck] at ends
    generalize restored : future.record start.again = x at ends
    cases ends with
    | halted => rfl
    | lost bad => exact bad.elim

/-- A frozen process ends, and is killed while it is resumed. -/
def ending : Script :=
  .sleep 5 <| .act (.exited 7)
    (.act (.exited 8) (.finish (.ok .done)) fun _ => .finish (.error (.failed "thaw"))) fun _ =>
    .finish (.ok .done)

/-- A process is looked at, killed, and deleted, and another exit is reported meanwhile. -/
def burial : Script :=
  .act (.query .exitStatus) (.finish (.ok .done)) fun _ =>
    .act (.request (.kill .kill true)) (.finish (.ok .done)) fun _ =>
    .act (.request .delete)
      (.act (.exited 9) (.finish (.ok .done)) fun _ => .finish (.ok .done)) fun _ =>
    .finish (.ok .done)

theorem restore_faithful_ending :
    (restore "web" [] .paused .memory).Begun ∧ burial.Heedless ∧
    ∃ outcome start, ending.record (restore "web" [] .paused .memory) = .ok (outcome, start) ∧
    ∃ outcome p r, burial.record start = .ok (outcome, p) ∧
      burial.record start.again = .ok (outcome, r) ∧ start.Continues p r ∧
      p.slot = ⟨.deleted, some ⟨7, Moment.ofMillis 5⟩⟩ ∧ r.slot = ⟨.deleted, none⟩ ∧
      r.calls = [.kill "web" .kill true, .delete "web"] ∧
      r.told = [⟨.info, "web", .stateChanged .delete .stopped .deleted⟩] := by
  have begun : (restore "web" [] .paused .memory).Begun := .restored _ _ _
  have allowed : ending.Allowed false ∧ burial.Allowed false := by
    simp [ending, burial, Script.Allowed]
  have heedless : burial.Heedless := by
    simp [burial, Script.Heedless]
  have shown : (ending.record (restore "web" [] .paused .memory)).toOption.bind (fun x =>
      (burial.record x.2).toOption.bind fun y => (burial.record x.2.again).toOption.map fun z =>
        (y.2.slot, z.2.slot, z.2.calls, z.2.told)) =
      some (⟨.deleted, some ⟨7, Moment.ofMillis 5⟩⟩, ⟨.deleted, none⟩,
        [.kill "web" .kill true, .delete "web"],
        [⟨.info, "web", .stateChanged .delete .stopped .deleted⟩]) := by
    decide +kernel
  obtain ⟨outcome, start, ran⟩ := Script.record_returns allowed.1
    (p := restore "web" [] .paused .memory) rfl
  obtain ⟨same, -, returns⟩ := restore_faithful begun ran heedless
  obtain ⟨outcome', p, done⟩ := returns allowed.2
  obtain ⟨r, restored, since, -⟩ := same outcome' p done
  rw [ran] at shown
  simp only [Except.toOption, Option.bind_some, done, restored, Option.map_some, Option.some.injEq,
    Prod.mk.injEq] at shown
  exact ⟨begun, heedless, outcome, start, ran, outcome', p, r, done, restored, since, shown⟩

end ContainerInit
