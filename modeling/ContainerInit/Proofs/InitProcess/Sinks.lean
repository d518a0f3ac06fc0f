import ContainerInit.Proofs.InitProcess.Restore
import ContainerInit.Rehearsal
import Mathlib.Data.List.Forall2

/-!
# Two sinks

The same is done to two processes that came to be in the same way: the events of one are kept, those
of the other are written to its log. The sink is not felt (`sinks_agree`): both do the same, and the
lines that the log has for the events are the events that were kept.

- **Lines** (`LogEntry.line?`): what a reader of the log knows an event by is the wording of the
  notice. No other notice has it (`line?_eq_none_iff`).
- **Mirrors** (`InitProcess.Mirrors`): the process whose events are kept, and the one whose events
  are logged. That the same has happened to both since some moment (`InitProcess.Reflects`) is a
  bond.
- **Plans** (`Player.mirrored_follow`): a controller that follows a plan does not feel the sink
  either, however deep its acts lie in each other.
-/

namespace ContainerInit

open InitProcess Run

/-! ## Lines -/

/-- The level of a line of the log, and its fields. -/
structure Line where
  level : String
  fields : List (String × FieldValue)
  deriving DecidableEq

/-- The line that tells of an event. -/
def Event.line (e : Event) : Line where
  level := e.severity.level
  fields := [("id", .text e.id), ("event", .text e.payload.kind.name),
    ("payload", .text e.payload.text)]

/-- The line of an entry that has the wording of an event. -/
def LogEntry.line? : LogEntry → Option Line
  | .notice n =>
    if n.message = "lifecycle event" then some ⟨n.severity.level, n.fields⟩ else none
  | _ => none

/-- The entry does not have the wording of an event. -/
def LogEntry.isPlain (entry : LogEntry) : Bool := entry.line?.isNone

/-- Only events have the wording of an event. -/
theorem Notice.message_eq_iff (n : Notice) :
    n.message = "lifecycle event" ↔ ∃ id payload severity, n = .lifecycleEvent id payload severity := by
  cases n with
  | signalFailed signal error => cases signal <;> simp [message, Signal.name]
  | logReady json => cases json <;> simp [message]
  | _ => simp [message]

theorem LogEntry.line?_eq_none_iff (entry : LogEntry) : entry.line? = none ↔ entry.message? = none := by
  cases entry with
  | notice n =>
    rw [line?, ite_eq_right_iff, Notice.message_eq_iff]
    cases n <;> simp [message?]
  | _ => simp [line?, message?]

/-- Entries that tell of no event have no lines. -/
theorem lines_of_silent {entries : Log} (silent : entries.filterMap LogEntry.message? = []) :
    entries.filterMap LogEntry.line? = [] ∧ entries.filter LogEntry.isPlain = entries := by
  have none : ∀ entry ∈ entries, entry.line? = Option.none := fun entry mem =>
    entry.line?_eq_none_iff.mpr (List.filterMap_eq_nil_iff.mp silent entry mem)
  exact ⟨List.filterMap_eq_nil_iff.mpr none,
    List.filter_eq_self.mpr fun entry mem => by rw [LogEntry.isPlain, none entry mem]; rfl⟩

/-! ## Mirrors -/

variable {κ α : Type} {p₀ r₀ p r : InitProcess κ}

/-- The process `p`, whose events are kept, and the process `r`, whose events go to the log, cannot
be told apart but by their sinks: what one has logged for the events, the other has kept. -/
structure InitProcess.Mirrors (p r : InitProcess κ) : Prop where
  id : r.id = p.id
  slot : r.slot = p.slot
  busy : r.busy = p.busy
  clock : r.clock = p.clock
  calls : r.calls = p.calls
  controller : r.controller = p.controller
  kept : r.events.events = []
  lines : r.log.filterMap LogEntry.line? = p.events.events.map Event.line
  plain : r.log.filter LogEntry.isPlain = p.log

/-- Since the processes were at `p₀` and `r₀`, the same has happened to both. -/
structure InitProcess.Reflects (p₀ r₀ p r : InitProcess κ) : Prop where
  sink : p.sink = .memory
  sink' : r.sink = .log
  id : r.id = p.id
  busy : r.busy = p.busy
  clock : r.clock = p.clock
  calls : r.calls = p.calls
  controller : r.controller = p.controller
  kept : r.events.events = []
  since : ∃ events entries, p.events.events = p₀.events.events ++ events ∧ r.log = r₀.log ++ entries ∧
    entries.filterMap LogEntry.line? = events.map Event.line ∧
    p.log = p₀.log ++ entries.filter LogEntry.isPlain

namespace InitProcess.Reflects

/-- Processes that come to be in the same way, but for their sinks. -/
theorem origin (origin : Origin) (id : String) (controller : κ) :
    Reflects (origin.process id controller .memory) (origin.process id controller .log)
      (origin.process id controller .memory) (origin.process id controller .log) := by
  cases origin <;> exact ⟨rfl, rfl, rfl, rfl, rfl, rfl, rfl, rfl, [], [], rfl, rfl, rfl, rfl⟩

/-- Counted from now on, nothing has happened. -/
theorem restart (h : Reflects p₀ r₀ p r) : Reflects p r p r :=
  { h with since := ⟨[], [], by simp⟩ }

/-- What was mirrored before still is. -/
theorem mirrors (h : Reflects p₀ r₀ p r) (before : p₀.Mirrors r₀) (slots : r.slot = p.slot) :
    p.Mirrors r := by
  obtain ⟨events, entries, kept, logged, lines, plain⟩ := h.since
  refine ⟨h.id, slots, h.busy, h.clock, h.calls, h.controller, h.kept, ?_, ?_⟩
  · rw [logged, kept, List.filterMap_append, List.map_append, before.lines, lines]
  · rw [logged, plain, List.filter_append, before.plain]

theorem bond (p₀ r₀ : InitProcess κ) : Bond (Reflects p₀ r₀) where
  id h := h.id
  busy h := h.busy
  clock h := h.clock
  record {p r new} silent h := by
    obtain ⟨events, entries, kept, logged, lines, plain⟩ := h.since
    obtain ⟨noLines, allPlain⟩ := lines_of_silent silent
    refine { h with since := ⟨events, entries ++ new, kept, ?_, ?_, ?_⟩ }
    · rw [logged, List.append_assoc]
    · rw [List.filterMap_append, lines, noLines, List.append_nil]
    · rw [plain, List.filter_append, allPlain, List.append_assoc]
  emit {p r} severity payload h := by
    have same : r.event severity payload = p.event severity payload := by
      rw [event, event, h.id, h.clock]
    rw [emitted_memory h.sink, emitted_log h.sink', same]
    obtain ⟨events, entries, kept, logged, lines, plain⟩ := h.since
    refine { h with since := ⟨events ++ [p.event severity payload],
      entries ++ Sink.log.entries (p.event severity payload), ?_, ?_, ?_, ?_⟩ }
    · rw [MemorySink.events_emit, kept, List.append_assoc]
    · rw [logged, List.append_assoc]
    · rw [List.filterMap_append, List.map_append, lines]
      rfl
    · rw [plain, List.filter_append]
      exact (List.append_nil _).symm ▸ rfl
  sleep millis h := { h with clock := congrArg (· + millis) h.clock }
  hold busy h := { h with busy := rfl }
  call call h := { h with calls := congrArg (· ++ [call]) h.calls }
  write _ _ h := { h with }

end InitProcess.Reflects

/-- Processes that come to be in the same way mirror each other. -/
theorem Origin.mirrors (origin : Origin) (id : String) (controller : κ) :
    (origin.process id controller .memory).Mirrors (origin.process id controller .log) := by
  cases origin <;> exact ⟨rfl, rfl, rfl, rfl, rfl, rfl, rfl, rfl, rfl⟩

/-- The second process does what the first one does. -/
abbrev Run.Mirrored (p₀ r₀ : InitProcess κ) (k : Pair) (m : Run κ α) : Prop :=
  Alike (Reflects p₀ r₀) (fun _ => False) k m m fun a b k' => b = a ∧ k'.left = k'.right

/-- How two runs end of which the second one mirrors the first one. -/
theorem Run.Mirrored.ends {m : Run κ α} (h : Mirrored p₀ r₀ (.of p r) m) (before : p₀.Mirrors r₀)
    (since : Reflects p₀ r₀ p r) :
    (∀ a q, m p = .ok (a, q) → ∃ s, m r = .ok (a, s) ∧ Reflects p₀ r₀ q s ∧ q.Mirrors s) ∧
    ∀ halt, m p = .error halt → m r = .error halt := by
  have agree := h p r since rfl
  constructor
  · intro a q ran
    rw [ran] at agree
    generalize m r = x at agree
    cases agree with
    | returned since' post =>
      obtain ⟨rfl, slots⟩ := post
      exact ⟨_, rfl, since', since'.mirrors before slots.symm⟩
    | spoilt bad => exact bad.elim
  · intro halt stuck
    rw [stuck] at agree
    generalize m r = x at agree
    cases agree with
    | halted => rfl
    | lost bad => exact bad.elim

/-! ## Scripts -/

/-- What is written down of one process is written down of its mirror. -/
theorem mirrored_note {p₀ r₀ : InitProcess Journal} {k : Pair} (slots : k.left = k.right)
    (n : Slot → Note) : Alike (Reflects p₀ r₀) (fun _ => False) k (note n) (note n)
      fun _ _ k' => k' = k := by
  refine alike_note fun p r since pair => ?_
  refine { since with controller := ?_ }
  rw [noting, noting, since.controller, Pair.slot_eq pair slots]

theorem Script.mirrored {p₀ r₀ : InitProcess Journal} (script : Script) {k : Pair}
    (slots : k.left = k.right) : Mirrored p₀ r₀ k script.record := by
  induction script generalizing k with
  | finish outcome => exact .ret ⟨rfl, slots⟩
  | sleep millis rest ih =>
    refine .step ((alike_sleep (Reflects.bond p₀ r₀) millis).mono ?_)
    rintro _ _ _ rfl
    exact ih slots
  | act action inner rest ihInner ih =>
    have effect : ∀ (call : Call) (k : Pair), k.left = k.right →
        Mirrored p₀ r₀ k (noted inner.record call) := by
      intro call k slots
      refine .step ((ihInner slots).mono ?_)
      rintro _ outcome k' ⟨rfl, slots'⟩
      refine .step ((mirrored_note slots' _).mono ?_)
      rintro _ _ _ rfl
      exact .ret ⟨rfl, slots'⟩
    refine .step ((alike_perform (Reflects.bond p₀ r₀) .eq effect slots).mono ?_)
    rintro a b k' ⟨slots', replies⟩
    obtain rfl : b = a := replies.eq slots'
    refine .step ((mirrored_note slots' _).mono ?_)
    rintro _ _ _ rfl
    exact ih b slots'

/-! ## Plans -/

namespace Player

variable {p₀ r₀ : InitProcess Player} {k : Pair}

theorem nextAct_eq (m : Method) (p : InitProcess Player) : nextAct m p =
    .ok ((p.controller.plan.next m).1,
      { p with controller := { p.controller with plan := (p.controller.plan.next m).2 } }) := rfl

theorem mirrored_nextAct (m : Method) (slots : k.left = k.right) :
    Mirrored p₀ r₀ k (nextAct m) := by
  intro p r since pair
  rw [nextAct_eq, nextAct_eq, since.controller]
  refine .returned { since with controller := rfl } ⟨rfl, ?_⟩
  rw [← pair] at slots
  exact slots

theorem mirrored_step {controller : Controller Player}
    (effect : ∀ call k, k.left = k.right → Mirrored p₀ r₀ k (controller call)) (step : Step)
    (slots : k.left = k.right) : Mirrored p₀ r₀ k (step.run controller) := by
  cases step with
  | noSignal e => exact .ret ⟨rfl, slots⟩
  | action action =>
    refine .step ((alike_perform (Reflects.bond p₀ r₀) .eq effect slots).mono ?_)
    rintro a b k' ⟨slots', replies⟩
    obtain rfl : b = a := replies.eq slots'
    exact .ret ⟨rfl, slots'⟩

theorem mirrored_runAside {controller : Controller Player}
    (effect : ∀ call k, k.left = k.right → Mirrored p₀ r₀ k (controller call)) (step : Step)
    (slots : k.left = k.right) : Mirrored p₀ r₀ k (runAside controller step) := by
  refine .step ((mirrored_step effect step slots).mono ?_)
  rintro _ outcome k' ⟨rfl, slots'⟩
  refine .write fun p r since pair => ?_
  have same := Pair.slot_eq pair slots'
  refine ⟨{ since with controller := ?_ }, rfl, same⟩
  rw [since.controller, same]

theorem mirrored_forM {f : Step → Run Player Unit}
    (each : ∀ step k, k.left = k.right → Mirrored p₀ r₀ k (f step)) (steps : List Step)
    (slots : k.left = k.right) : Mirrored p₀ r₀ k (steps.forM f) := by
  induction steps generalizing k with
  | nil => exact .ret ⟨rfl, slots⟩
  | cons step steps ih =>
    refine .step ((each step k slots).mono ?_)
    rintro _ _ k' ⟨-, slots'⟩
    exact ih slots'

/-- A controller that follows a plan does not feel the sink. -/
theorem mirrored_follow (depth : Nat) (call : Call) (slots : k.left = k.right) :
    Mirrored p₀ r₀ k (follow depth call) := by
  induction depth generalizing call k with
  | zero => exact .ret ⟨rfl, slots⟩
  | succ depth ih =>
    refine .step ((mirrored_nextAct call.method slots).mono ?_)
    rintro _ act k' ⟨rfl, slots'⟩
    cases act with
    | none => exact .ret ⟨rfl, slots'⟩
    | some act =>
      refine .step ((alike_sleep (Reflects.bond p₀ r₀) act.delay).mono ?_)
      rintro _ _ _ rfl
      refine .step ((mirrored_forM (fun step k => mirrored_runAside (fun call k => ih call) step)
        act.hooks slots').mono ?_)
      rintro _ _ k'' ⟨-, slots''⟩
      exact .ret ⟨rfl, slots''⟩

end Player

/-- Of two passages the first one is of a process whose events are kept, the second one of a process
whose events go to the log, and they do not differ in anything else. -/
structure Passage.Mirrors (a b : Passage) : Prop where
  outcome : b.outcome = a.outcome
  state : b.state = a.state
  exit : b.exit = a.exit
  calls : b.calls = a.calls
  asides : b.asides = a.asides
  kept : b.events = []
  lines : b.log.filterMap LogEntry.line? = a.events.map Event.line
  plain : b.log.filter LogEntry.isPlain = a.log

theorem Passage.Mirrors.between {p q r s : InitProcess Player} (before : p.Mirrors r)
    (after : q.Mirrors s) (since : Reflects p r q s) (outcome : Outcome) :
    (Passage.between outcome p q).Mirrors (.between outcome r s) := by
  obtain ⟨events, entries, kept, logged, lines, plain⟩ := since.since
  constructor
  case lines => simp [Passage.between, kept, logged, lines, MemorySink.size]
  case plain => simp [Passage.between, logged, plain]
  all_goals simp [Passage.between, before.calls, before.controller, after.slot, after.calls,
    after.controller, after.kept]

theorem rehearse_cons_of_ok {depth : Nat} {step : Step} {p q : InitProcess Player} {outcome : Outcome}
    (ran : step.run (Player.follow depth) p = .ok (outcome, q)) (steps : List Step) :
    rehearse depth p (step :: steps) =
      (rehearse depth q steps).map (Passage.between outcome p q :: ·) := by
  simp only [rehearse, StateT.run, ran]
  change (rehearse depth q steps >>= fun rest => pure (.between outcome p q :: rest)) = _
  cases rehearse depth q steps <;> rfl

theorem rehearse_cons_of_error {depth : Nat} {step : Step} {p : InitProcess Player} {halt : Halt}
    (stuck : step.run (Player.follow depth) p = .error halt) (steps : List Step) :
    rehearse depth p (step :: steps) = .error halt := by
  simp only [rehearse, StateT.run, stuck]
  rfl

/-- A rehearsal on the mirror of a process gives mirrored passages, or halts alike. -/
theorem rehearse_mirrors (depth : Nat) (steps : List Step) {p r : InitProcess Player}
    (mirrors : p.Mirrors r) (since : Reflects p r p r) :
    (∀ a, rehearse depth p steps = .ok a →
      ∃ b, rehearse depth r steps = .ok b ∧ List.Forall₂ Passage.Mirrors a b) ∧
    ∀ halt, rehearse depth p steps = .error halt → rehearse depth r steps = .error halt := by
  induction steps generalizing p r with
  | nil =>
    refine ⟨?_, nofun⟩
    rintro _ ⟨⟩
    exact ⟨[], rfl, .nil⟩
  | cons step steps ih =>
    have slots : (Pair.of p r).left = (Pair.of p r).right := mirrors.slot.symm
    have effect : ∀ (call : Call) (k : Pair), k.left = k.right →
        Mirrored p r k (Player.follow depth call) := fun call k => Player.mirrored_follow depth call
    obtain ⟨returns, halts⟩ := (Player.mirrored_step effect step slots).ends mirrors since
    cases ran : step.run (Player.follow depth) p with
    | error halt =>
      rw [rehearse_cons_of_error ran, rehearse_cons_of_error (halts halt ran)]
      exact ⟨nofun, fun _ same => same⟩
    | ok x =>
      obtain ⟨outcome, q⟩ := x
      obtain ⟨s, ran', since', mirrors'⟩ := returns outcome q ran
      obtain ⟨restReturns, restHalts⟩ := ih mirrors' since'.restart
      rw [rehearse_cons_of_ok ran, rehearse_cons_of_ok ran']
      cases rest : rehearse depth q steps with
      | error halt =>
        rw [restHalts halt rest]
        exact ⟨nofun, fun _ same => same⟩
      | ok a =>
        obtain ⟨b, rest', passages⟩ := restReturns a rest
        rw [rest']
        refine ⟨?_, nofun⟩
        rintro _ ⟨⟩
        exact ⟨_, rfl, .cons (.between mirrors mirrors' since' outcome) passages⟩

/-! ## Both sinks -/

/-- **The sink is not felt.** A process comes to be in any way, once with a sink that keeps events
and once with one that writes them to the log.

Whatever script is done, both runs return the same or halt alike, and they return if the script is
allowed. Then all that was written down is the same, the replies to all calls and the outcomes of
all effects with the slots that they left behind, and so are the slots, the clocks and the calls of
the controller. The lines that the log has for events are the events that were kept, one for one and
in order; without them, it is the log of the process whose events were kept.

The same holds of every rehearsal, step by step, whatever the plan of the controller is and however
deep its acts may lie in each other. -/
theorem sinks_agree (origin : Origin) (id : String) :
    (∀ script : Script,
      (∀ outcome p, script.record (origin.process id [] .memory) = .ok (outcome, p) →
        ∃ r, script.record (origin.process id [] .log) = .ok (outcome, r) ∧ p.Mirrors r) ∧
      (∀ halt, script.record (origin.process id [] .memory) = .error halt →
        script.record (origin.process id [] .log) = .error halt) ∧
      (script.Allowed false →
        ∃ outcome p, script.record (origin.process id [] .memory) = .ok (outcome, p))) ∧
    (∀ (plan : Plan) (depth : Nat) (steps : List Step),
      (∀ a, rehearse depth (origin.process id ⟨plan, []⟩ .memory) steps = .ok a →
        ∃ b, rehearse depth (origin.process id ⟨plan, []⟩ .log) steps = .ok b ∧
          List.Forall₂ Passage.Mirrors a b) ∧
      (∀ halt, rehearse depth (origin.process id ⟨plan, []⟩ .memory) steps = .error halt →
        rehearse depth (origin.process id ⟨plan, []⟩ .log) steps = .error halt)) := by
  constructor
  · intro script
    have since := Reflects.origin origin id ([] : Journal)
    have before := origin.mirrors id ([] : Journal)
    obtain ⟨returns, halts⟩ := (script.mirrored before.slot.symm).ends before since
    refine ⟨fun outcome p ran => ?_, halts, fun allowed => Script.record_returns allowed ?_⟩
    · obtain ⟨r, ran', -, mirrors⟩ := returns outcome p ran
      exact ⟨r, ran', mirrors⟩
    · cases origin <;> rfl
  · intro plan depth steps
    exact rehearse_mirrors depth steps (origin.mirrors id _) (.origin origin id _)

/-- The plan of a controller whose first resume asks for a start, and fails. -/
def failedThaw : Plan where
  acts
    | .resume => [some { hooks := [.action (.request .start)], error := some (.failed "thaw") }]
    | _ => []

theorem sinks_agree_thaw :
    (∃ outcome p r, thaw.record (restore "web" [] .paused .memory) = .ok (outcome, p) ∧
      thaw.record (restore "web" [] .paused .log) = .ok (outcome, r) ∧ p.Mirrors r ∧
      (r.log.filterMap LogEntry.line?).map (fun line => (line.level, line.fields[2]?)) = [
        ("INFO", some ("payload", .text "ExitRecorded \x7b status: 7, previous: Paused \x7d")),
        ("INFO", some ("payload", .text "OperationRejected \x7b operation: Start, state: Paused \x7d")),
        ("ERROR", some ("payload", .text "CompensatingResumeFailed \x7b error: \"thaw\" \x7d")),
        ("INFO", some ("payload",
          .text "StateChanged \x7b operation: SetExited, from: Paused, to: Stopped \x7d")),
        ("INFO", some ("payload",
          .text "StateChanged \x7b operation: Delete, from: Stopped, to: Deleted \x7d"))]) ∧
    ∃ a b, rehearse 1 (restore "web" ⟨failedThaw, []⟩ .paused .memory) [.action (.exited 7)] = .ok a ∧
      rehearse 1 (restore "web" ⟨failedThaw, []⟩ .paused .log) [.action (.exited 7)] = .ok b ∧
      List.Forall₂ Passage.Mirrors a b ∧
      a.map (fun passage => passage.events.map Event.severity) = [[.info, .info, .error, .info]] := by
  obtain ⟨scripts, rehearsals⟩ := sinks_agree (.found .paused) "web"
  constructor
  · obtain ⟨returns, -, allowed⟩ := scripts thaw
    obtain ⟨outcome, p, ran⟩ := allowed (by simp [thaw, Script.Allowed])
    obtain ⟨r, ran', mirrors⟩ := returns outcome p ran
    have logged : (thaw.record (restore "web" [] .paused .log)).toOption.map (fun x =>
        (x.2.log.filterMap LogEntry.line?).map fun line => (line.level, line.fields[2]?)) =
        some _ := congrArg _ (congrArg Except.toOption ran')
    refine ⟨outcome, p, r, ran, ran', mirrors, Option.some.inj (logged.symm.trans ?_)⟩
    decide +kernel
  · have played : (rehearse 1 (restore "web" ⟨failedThaw, []⟩ .paused .memory)
        [.action (.exited 7)]).toOption.map (List.map fun passage =>
          passage.events.map Event.severity) = some [[.info, .info, .error, .info]] := by
      decide +kernel
    cases rehearsed : rehearse 1 (restore "web" ⟨failedThaw, []⟩ .paused .memory)
        [.action (.exited 7)] with
    | error halt =>
      rw [rehearsed] at played
      cases played
    | ok a =>
      rw [rehearsed] at played
      obtain ⟨b, rehearsed', mirrors⟩ := (rehearsals failedThaw 1 _).1 a rehearsed
      exact ⟨a, b, rfl, rehearsed', mirrors, Option.some.inj played⟩

end ContainerInit
