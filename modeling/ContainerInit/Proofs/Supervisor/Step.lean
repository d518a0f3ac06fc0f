import ContainerInit.Proofs.Local.Callers
import ContainerInit.Proofs.Local.Process
import ContainerInit.Supervisor.Basic

/-!
# Steps of a supervision

What can happen to a supervision, in whatever order its tasks, the interrupts and the host do it.

- **Steps** (`Supervision.Step`): a task takes a turn, the main task sees an interrupt or the end of
  the grace period, the system refuses what the waiter asks of it, or the host goes on by itself.
- **Runs** (`Supervision.Reachable`): any steps one after the other, with the number of turns that
  the tasks have taken and with what the wait has given.
- **The only wait** (`LocalStage.Waits`): what holds at each of its stages, where nobody else waits
  for the process and nobody deletes it. It goes on once the child has ended (`Waits.goesOn`), and
  left to itself it comes to what can be reported of the ending (`LocalController.runs_wait`).
- **Calm** (`Supervision.Calm`): what is no turn of a task leaves the process and the tasks as they
  are, up to time and host (`calm_of_ask`, `calm_of_pass`).
- **Writing** (`Supervision.Writes`): what is added to the output of the host is what the books
  list. No turn but a deletion writes anything (`Writes.of_step`).
-/

namespace ContainerInit

open Host (Life Ending)

/-! ## The wait -/

/-- The code that is reported of what a wait gave. -/
def reportOf : Except ControllerError Int32 → Int32
  | .ok code => code
  | .error _ => unknownExitCode

/-- What a wait leaves behind: the child is taken, and a code that it gave is recorded. -/
structure LocalController.Waited (c : LocalController) (result : Except ControllerError Int32) :
    Prop where
  taken : c.init.child = none
  exit : ∀ {code : Int32}, result = .ok code → c.init.exit = some code

namespace LocalStage

/-- What holds at the stages of the only wait. -/
def Waits (c : LocalController) : LocalStage → Prop
  | .arriving _ => c.init.child ≠ none ∧ c.init.exit = none
  | .awaiting .. => c.init.exit = none
  | .recording .. => True
  | .releasing _ _ code => c.init.exit = some code
  | .finished result => ∃ r, (Waiter.mk (.finished result)).result? = some r ∧ c.Waited r
  | _ => False

/-- The number of sections that a wait has at most before it. -/
def sectionsLeft : LocalStage → Nat
  | .arriving _ => 4
  | .awaiting .. => 3
  | .recording .. => 2
  | .releasing .. => 1
  | _ => 0

variable {c c' : LocalController} {s s' : LocalStage} {ns : List Notice}

theorem Waits.of_init_eq (same : c'.init = c.init) (waits : s.Waits c) : s.Waits c' := by
  cases s with
  | finished result =>
    obtain ⟨r, past, taken, exit⟩ := waits
    exact ⟨r, past, by rw [same]; exact taken, fun gave => by rw [same]; exact exit gave⟩
  | arriving | awaiting | releasing => simpa only [Waits, same] using waits
  | recording => trivial
  | _ => exact waits

theorem Waits.waited {r : Except ControllerError Int32} (waits : s.Waits c)
    (past : (Waiter.mk s).result? = some r) : c.Waited r := by
  cases s with
  | finished result =>
    obtain ⟨r', over', waited⟩ := waits
    cases past.symm.trans over'
    exact waited
  | _ => cases past

theorem result?_of_step? (step : c.step? s = some (c', s', ns)) :
    (Waiter.mk s).result? = none := by
  cases s with
  | finished result => cases step
  | _ => rfl

/-- A section of the only wait. -/
theorem Waits.step (waits : s.Waits c) (fits : s.Fits c)
    (step : c.step? s = some (c', s', ns)) :
    s'.Waits c' ∧ s'.sectionsLeft < s.sectionsLeft := by
  have work := LocalController.work_of_step? step
  cases s with
  | arriving id =>
    -- Any section may refuse, as far as `Work` goes; this one cannot, since the child is there.
    obtain ⟨held, unseen⟩ := waits
    obtain ⟨pid, held⟩ := Option.ne_none_iff_exists'.mp held
    simp only [LocalController.step?, LocalController.takeChild, unseen, held, Section.follow,
      Option.some.injEq, Prod.mk.injEq] at step
    obtain ⟨rfl, rfl, rfl⟩ := step
    exact ⟨rfl, by simp [sectionsLeft]⟩
  | awaiting id pid =>
    cases work with
    | refuse =>
      refine ⟨⟨_, rfl, fits.2, fun gave => ?_⟩, by simp [sectionsLeft]⟩
      cases gave
    | see => exact ⟨trivial, by simp [sectionsLeft]⟩
  | recording id pid code =>
    cases work with
    | refuse =>
      refine ⟨⟨_, rfl, fits.2.1, fun gave => ?_⟩, by simp [sectionsLeft]⟩
      cases gave
    | record => exact ⟨rfl, by simp [sectionsLeft]⟩
  | releasing id pid code =>
    cases work with
    | refuse =>
      refine ⟨⟨_, rfl, fits.2.1, fun gave => ?_⟩, by simp [sectionsLeft]⟩
      cases gave
    | letGo =>
      refine ⟨⟨_, rfl, fits.2.1, fun gave => ?_⟩, by simp [sectionsLeft]⟩
      cases gave
      exact waits
  | finished result => cases step
  | _ => cases waits

/-- The only wait can go on once the child has ended. -/
theorem Waits.goesOn (waits : s.Waits c) (fits : s.Fits c) (tidy : c.Tidy)
    (under : (Waiter.mk s).result? = none) {pid : Nat} {l : Life} (born : c.init.pid = some pid)
    (child : c.host.Child pid l) (dead : l ≠ .alive) : (c.step? s).isSome := by
  cases s with
  | awaiting id pid' =>
    cases born.symm.trans fits.1
    obtain ⟨l', child', gone, -⟩ := tidy.init born
    cases child.unique child'
    cases l with
    | alive => exact absurd rfl dead
    | reaped => exact absurd waits (gone rfl)
    | ended e =>
      have ending := child.ending?_eq_some.mpr rfl
      cases seen : reportedCode e <;>
        simp [LocalController.step?, LocalController.seen?, ending, seen]
  | arriving | recording | releasing => rfl
  | finished result =>
    obtain ⟨r, past, -⟩ := waits
    cases under.symm.trans past
  | _ => cases waits

end LocalStage

namespace LocalController

/-- A wait for a child that has ended, with nobody else at work. -/
theorem runs_wait {c : LocalController} (id : String) {pid : Nat} {e : Ending}
    (held : c.init.child = some pid) (unseen : c.init.exit = none)
    (ended : c.host.ending? pid = some e) :
    ∃ c' ns, Runs c (.arriving id) c'
        (.finished ((reportedCode e).map .code)) ns ∧
      ∀ {error : ControllerError}, reportedCode e = .error error → c'.init.exit = none := by
  let taken : LocalController := { c with init := { c.init with child := none } }
  have first : c.step? (.arriving id) = some (taken, .awaiting id pid, []) := by
    simp [taken, step?, takeChild, unseen, held, Section.follow]
  cases reported : reportedCode e with
  | error error =>
    have second : taken.step? (.awaiting id pid) = some (taken, .finished (.error error), []) := by
      simp only [taken, step?, seen?, ended, reported,
        Option.map_some]
    exact ⟨_, _, .step first (.one second), fun _ => unseen⟩
  | ok code =>
    have second : taken.step? (.awaiting id pid) = some (taken, .recording id pid code, []) := by
      simp only [taken, step?, seen?, ended, reported,
        Option.map_some]
    refine ⟨_, _, .step first (.step second (.step rfl (.one rfl))), fun failed => ?_⟩
    cases failed

end LocalController

/-! ## Steps -/

/-- The main task waits for the waiter. -/
def Phase.awaits : Phase → Bool
  | .waiting | .terminating _ | .killing => true
  | _ => false

namespace Supervision

variable {start s t u : Supervision} {k n : Nat} {w : Option (Except ControllerError Int32)}

/-- What the wait has given, as long as the waiter has not gone on from it. -/
def waited? (s : Supervision) : Option (Except ControllerError Int32) :=
  match s.waiter with
  | .waiting stage => (Waiter.mk stage).result?
  | _ => none

/-- What can happen, and how many turns of the two tasks it is. -/
inductive Step (s : Supervision) : Nat → Supervision → Prop
  | task (turn : Turn) {t : Supervision} (own : turn ∈ [Turn.waiter, .join, .delete])
    (step : s.step? turn = some t) : Step s 1 t
  | ask (turn : Turn) {t : Supervision} (asked : turn ∈ [Turn.interrupt, .expire])
    (step : s.step? turn = some t) : Step s 0 t
  | fault {stage : LocalStage} (e : ControllerError) (place : s.waiter = .waiting stage)
    (asks : s.process.controller.asksSystem stage = true) :
    Step s 0 { s with waiter := .waiting (.finished (.error e)) }
  | pass {host : Host} (evolves : s.process.controller.host.Evolves host) :
    Step s 0 { s with process := s.process.letRun fun _ => host }

/-- What a supervision leads to, how many turns its tasks have taken by then, and what the wait has
given. -/
inductive Reachable (start : Supervision) :
    Nat → Option (Except ControllerError Int32) → Supervision → Prop
  | refl : Reachable start 0 none start
  | step {n k : Nat} {w : Option (Except ControllerError Int32)} {s t : Supervision}
    (reachable : Reachable start n w s) (step : Step s k t) :
    Reachable start (n + k) (t.waited?.or w) t

/-- A turn of a task is one of three. -/
theorem task_cases {turn : Turn} (own : turn ∈ [Turn.waiter, .join, .delete])
    (step : s.step? turn = some t) :
    s.waiterStep? = some t ∨ (s.waiter = .done ∧ s.join? = some t) ∨
      (s.phase = .deleting ∧ s.delete? = some t) := by
  simp only [List.mem_cons, List.not_mem_nil, or_false] at own
  rcases own with rfl | rfl | rfl
  · exact .inl step
  · have joined : s.join? = some t := step
    refine .inr (.inl ⟨?_, joined⟩)
    unfold join? at joined
    split at joined <;> first | assumption | cases joined
  · have deleted : s.delete? = some t := step
    refine .inr (.inr ⟨?_, deleted⟩)
    unfold delete? at deleted
    split at deleted
    · assumption
    · cases deleted

/-! ## What leaves the tasks alone -/

/-- Time has passed, and the process is as before. -/
structure Aged (s t : Supervision) : Prop where
  config : t.config = s.config
  reported : t.reported = s.reported
  printed : t.printed = s.printed
  id : t.process.id = s.process.id
  busy : t.process.busy = s.process.busy
  slot : t.process.slot = s.process.slot
  controller : ∃ host, s.process.controller.host.Evolves host ∧
    t.process.controller = { s.process.controller with host }

/-- Time has passed, and the tasks are where they were, except that the main task may have asked the
process to end. -/
structure Calm (s t : Supervision) : Prop extends Aged s t where
  waiter : t.waiter = s.waiter
  phase : t.phase = s.phase ∨ s.phase.awaits = true ∧ t.phase.awaits = true

namespace Aged

theorem trans (first : s.Aged t) (second : t.Aged u) : s.Aged u := by
  obtain ⟨host, evolves, controller⟩ := first.controller
  obtain ⟨host', evolves', controller'⟩ := second.controller
  rw [controller] at evolves' controller'
  exact ⟨second.config.trans first.config, second.reported.trans first.reported,
    second.printed.trans first.printed, second.id.trans first.id, second.busy.trans first.busy,
    second.slot.trans first.slot, host', evolves.trans evolves', controller'⟩

theorem init (aged : s.Aged t) : t.process.controller.init = s.process.controller.init := by
  obtain ⟨host, -, controller⟩ := aged.controller
  rw [controller]

theorem later (aged : s.Aged t) : s.process.controller.Later t.process.controller := by
  obtain ⟨host, evolves, controller⟩ := aged.controller
  exact controller ▸ .of_evolves evolves

theorem tidy (aged : s.Aged t) (tidy : s.process.controller.Tidy) :
    t.process.controller.Tidy := by
  obtain ⟨host, evolves, controller⟩ := aged.controller
  exact controller ▸ tidy.of_evolves evolves

theorem waited (aged : s.Aged t) {r : Except ControllerError Int32}
    (waited : s.process.controller.Waited r) : t.process.controller.Waited r :=
  ⟨aged.init ▸ waited.taken, fun gave => aged.init ▸ waited.exit gave⟩

end Aged

/-- An accepted request is the call of the controller. -/
theorem request?_eq {r : Request} {next : Option State} {call : Call}
    (free : s.process.busy = false)
    (accepted : s.process.slot.state.dispatch r.operation = .ok (.delegate next))
    (asks : r.call? s.process.id = some call) :
    ∃ q, s.request? r = some ((s.process.controller.call call).result.mapError .controller,
        { s with process := q }) ∧
      q.id = s.process.id ∧ q.busy = false ∧
      q.controller = (s.process.controller.call call).controller ∧
      q.slot = s.process.slot.afterEffect (s.process.controller.call call).result next := by
  obtain ⟨q, ran, rest⟩ := InitProcess.operate_local free accepted asks
  refine ⟨q, ?_, rest⟩
  simp only [request?, StateT.run, ran]

/-- A signal to the process leaves it as it was, whether it could be sent or not. -/
theorem kill?_eq (signal : Signal) (free : s.process.busy = false)
    (accepted : s.process.slot.state.dispatch .kill = .ok (.delegate none)) :
    ∃ t, s.kill? signal = some t ∧ s.Aged t ∧ t.waiter = s.waiter ∧ t.phase = s.phase := by
  obtain ⟨q, asked, id, busy, controller, slot⟩ :=
    request?_eq (r := .kill signal true) free accepted rfl
  have sends : LocalController.signalOf? (.kill s.process.id signal true) = some (signal, true) :=
    rfl
  obtain ⟨host, evolves, sent⟩ :=
    LocalController.call_of_signalOf? (c := s.process.controller) sends
  have same : q.slot = s.process.slot := by
    rw [slot]
    cases (s.process.controller.call (.kill s.process.id signal true)).result <;> rfl
  have aged (log : Log) : s.Aged { s with process := { q with log } } :=
    ⟨rfl, rfl, rfl, id, busy.trans free.symm, same, host, evolves, controller.trans sent⟩
  unfold kill?
  rw [asked]
  cases (s.process.controller.call (.kill s.process.id signal true)).result with
  | ok a => exact ⟨_, rfl, aged q.log, rfl, rfl⟩
  | error e => exact ⟨_, rfl, aged _, rfl, rfl⟩

theorem aged_note (s : Supervision) (n : Notice) : s.Aged (s.note n) :=
  ⟨rfl, rfl, rfl, rfl, rfl, rfl, _, .refl _, rfl⟩

/-- An interrupt and the end of the grace period leave the tasks where they are. -/
theorem calm_of_ask {turn : Turn} (asked : turn ∈ [Turn.interrupt, .expire])
    (free : s.process.busy = false)
    (accepted : s.process.slot.state.dispatch .kill = .ok (.delegate none))
    (step : s.step? turn = some t) : s.Calm t := by
  have kill (n : Notice) (signal : Signal) := kill?_eq (s := s.note n) signal free accepted
  simp only [List.mem_cons, List.not_mem_nil, or_false] at asked
  rcases asked with rfl | rfl
  · simp only [step?, interrupt?] at step
    split at step
    · rename_i phase
      obtain ⟨killed, sent, aged, waiter, -⟩ := kill (.interrupted s.config.id) .terminate
      rw [sent] at step
      cases step
      exact ⟨(aged_note ..).trans ⟨aged.config, aged.reported, aged.printed, aged.id, aged.busy,
        aged.slot, aged.controller⟩, waiter, .inr ⟨by rw [phase]; rfl, rfl⟩⟩
    · cases step
  · simp only [step?, expire?] at step
    split at step
    · rename_i phase
      split at step
      · obtain ⟨killed, sent, aged, waiter, -⟩ := kill (.graceEnded s.config.killGrace) .kill
        rw [sent] at step
        cases step
        exact ⟨(aged_note ..).trans ⟨aged.config, aged.reported, aged.printed, aged.id, aged.busy,
          aged.slot, aged.controller⟩, waiter, .inr ⟨by rw [phase]; rfl, rfl⟩⟩
      · cases step
    · cases step

theorem calm_of_pass {host : Host} (evolves : s.process.controller.host.Evolves host) :
    s.Calm { s with process := s.process.letRun fun _ => host } :=
  ⟨⟨rfl, rfl, rfl, rfl, rfl, rfl, host, evolves, rfl⟩, rfl, .inl rfl⟩

/-! ## What is written -/

/-- A look of the process, as it is written. -/
def lineOf (snapshot : ProcessSnapshot) : Host.Outlet × String :=
  (.host .output, snapshot.toTree.render ++ "\n")

/-- The looks of the process that are written from one moment to another, to the host and in the
books. -/
structure Writes (s t : Supervision) (looks : List ProcessSnapshot) : Prop where
  printed : t.printed = s.printed ++ looks
  written : t.process.controller.host.written =
    s.process.controller.host.written ++ looks.map lineOf

theorem Writes.nothing (printed : t.printed = s.printed)
    (written : t.process.controller.host.written = s.process.controller.host.written) :
    s.Writes t [] :=
  ⟨by simpa using printed, by simpa using written⟩

theorem Writes.of_request {r : Request} {result : Except LifecycleError Answer}
    (asked : s.request? r = some (result, t)) : s.Writes t [] := by
  unfold request? at asked
  split at asked
  · rename_i process ran
    cases asked
    exact .nothing rfl (InitProcess.written_operate ran)
  · cases asked

/-- Sending a signal to the process is no reason to write, whether it could be sent or not. -/
theorem Writes.of_kill {signal : Signal} (killed : s.kill? signal = some t) : s.Writes t [] := by
  unfold kill? at killed
  cases asked : s.request? (.kill signal true) with
  | none => rw [asked] at killed; cases killed
  | some outcome =>
    obtain ⟨result, process⟩ := outcome
    have quiet := Writes.of_request asked
    rw [asked] at killed
    cases result <;> cases killed <;> exact ⟨quiet.printed, quiet.written⟩

theorem Writes.of_waiter (step : s.waiterStep? = some t) : s.Writes t [] := by
  unfold waiterStep? at step
  split at step
  · cases step
    exact .nothing rfl rfl
  · cases step
    exact .nothing rfl rfl
  · rename_i stage _ _ _
    cases next : s.process.controller.step? stage with
    | none => rw [next] at step; cases step
    | some after =>
      rw [next] at step
      cases step
      exact .nothing rfl (LocalController.work_of_step? next).written
  · split at step
    · rename_i ran
      cases step
      exact .nothing rfl (InitProcess.written_setExited ran)
    · cases step
  · cases step
  · cases step

theorem Writes.of_interrupt (step : s.interrupt? = some t) : s.Writes t [] := by
  unfold interrupt? at step
  split at step
  · cases sent : (s.note (.interrupted s.config.id)).kill? .terminate with
    | none => rw [sent] at step; cases step
    | some killed =>
      rw [sent] at step
      cases step
      exact ⟨(Writes.of_kill sent).printed, (Writes.of_kill sent).written⟩
  · cases step

theorem Writes.of_expire (step : s.expire? = some t) : s.Writes t [] := by
  unfold expire? at step
  split at step
  · split at step
    · cases sent : (s.note (.graceEnded s.config.killGrace)).kill? .kill with
      | none => rw [sent] at step; cases step
      | some killed =>
        rw [sent] at step
        cases step
        exact ⟨(Writes.of_kill sent).printed, (Writes.of_kill sent).written⟩
    · cases step
  · cases step

/-- **Only a deletion writes.** What the processes of the host write is their own. -/
theorem Writes.of_step {turn : Turn} (other : turn ≠ .delete) (own : turn ≠ .tick)
    (step : s.step? turn = some t) : s.Writes t [] := by
  cases turn with
  | waiter => exact .of_waiter step
  | join =>
    simp only [step?, join?] at step
    split at step <;> cases step <;> exact .nothing rfl rfl
  | interrupt => exact .of_interrupt step
  | expire => exact .of_expire step
  | delete => exact absurd rfl other
  | tick => exact absurd rfl own

end Supervision

end ContainerInit
