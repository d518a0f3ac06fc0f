import ContainerInit.Proofs.Supervisor.Step

/-!
# The course of a supervision

Where a supervision stands, whatever has happened to it.

- **Places** (`Supervision.Course`): where the two tasks are, what was reported and written when
  they are there, and how many turns they take at most from there on.
- **Invariant** (`Supervision.Steady`): a supervision is at one of these places, and its books are
  true.
- **Turns** (`watched`, `heard`, `reports`, `joins`, `refuses`, `deletes`): what each turn of a task
  does at its place, and that it can be taken there.
- **Steps** (`Steady.step`, `Reachable.steady`): every step leads from place to place, and every
  turn of a task lowers the number of turns that are left.
- **Going on** (`Steady.goesOn`): before the end a task can take a turn, once the init process has
  ended.
-/

namespace ContainerInit

namespace Supervision

variable {start s t : Supervision} {k n : Nat} {w : Option (Except ControllerError Int32)}

/-! ## Places -/

/-- Nothing is reported, and the main task waits. -/
structure Untold (s : Supervision) : Prop where
  slot : s.process.slot = ⟨.running, none⟩
  reported : s.reported = []
  printed : s.printed = []
  awaits : s.phase.awaits = true

/-- A code is reported, and nothing is written yet. -/
structure Told (s : Supervision) (code : Int32) : Prop where
  slot : ∃ moment, s.process.slot = ⟨.stopped, some ⟨code, moment⟩⟩
  reported : s.reported = [code]
  printed : s.printed = []

/-- Where a supervision is, with what the wait has given, and how many turns its tasks take at most
from there on. -/
inductive Course (s : Supervision) : Option (Except ControllerError Int32) → Nat → Prop
  | watching {stage : LocalStage} (place : s.waiter = .waiting stage) (untold : s.Untold)
    (fits : stage.Fits s.process.controller) (waits : stage.Waits s.process.controller) :
    Course s (Waiter.mk stage).result? (stage.sectionsLeft + 4)
  | reporting {r : Except ControllerError Int32} (place : s.waiter = .reporting (reportOf r))
    (untold : s.Untold) (waited : s.process.controller.Waited r) : Course s (some r) 3
  | reported {r : Except ControllerError Int32} (place : s.waiter = .done)
    (awaits : s.phase.awaits = true) (told : s.Told (reportOf r))
    (waited : s.process.controller.Waited r) : Course s (some r) 2
  | deleting {r : Except ControllerError Int32} (place : s.waiter = .joined)
    (phase : s.phase = .deleting) (told : s.Told (reportOf r))
    (waited : s.process.controller.Waited r) : Course s (some r) 1
  | refused {e : ControllerError} (place : s.waiter = .joined)
    (phase : s.phase = .failed ⟨"failed to delete init process",
      some (LifecycleError.controller (.stillRunning s.config.id)).message⟩)
    (reported : s.reported = [unknownExitCode]) (printed : s.printed = [])
    (unseen : s.process.controller.init.exit = none) : Course s (some (.error e)) 0
  | deleted {r : Except ControllerError Int32} (place : s.waiter = .joined)
    (phase : s.phase = .finished (reportOf r)) (reported : s.reported = [reportOf r])
    (printed : ∃ moment, s.printed = [⟨s.config.id, .deleted, some ⟨reportOf r, moment⟩⟩])
    (seen : s.process.controller.init.exit ≠ none) : Course s (some r) 0

/-- The books of a supervision are true. -/
structure InOrder (s : Supervision) : Prop where
  tidy : s.process.controller.Tidy
  born : s.process.controller.init.pid ≠ none
  free : s.process.busy = false
  id : s.process.id = s.config.id

/-- A supervision is on its course. -/
structure Steady (s : Supervision) (w : Option (Except ControllerError Int32)) (k : Nat) :
    Prop where
  order : s.InOrder
  course : s.Course w k

theorem InOrder.aged (order : s.InOrder) (aged : s.Aged t) : t.InOrder where
  tidy := aged.tidy order.tidy
  born := aged.init ▸ order.born
  free := aged.busy.trans order.free
  id := aged.id.trans (order.id.trans (congrArg Config.id aged.config.symm))

theorem Untold.calm (untold : s.Untold) (calm : s.Calm t) : t.Untold where
  slot := calm.slot.trans untold.slot
  reported := calm.reported.trans untold.reported
  printed := calm.printed.trans untold.printed
  awaits := calm.phase.elim (fun same => same ▸ untold.awaits) (·.2)

theorem Told.aged {code : Int32} (told : s.Told code) (aged : s.Aged t) : t.Told code where
  slot := told.slot.imp fun _ slot => aged.slot.trans slot
  reported := aged.reported.trans told.reported
  printed := aged.printed.trans told.printed

/-- At a place where the main task does not wait, it has not begun to. -/
theorem Calm.phase_eq (calm : s.Calm t) (busy : s.phase.awaits = false) : t.phase = s.phase :=
  calm.phase.elim id fun waits => nomatch busy.symm.trans waits.1

/-- What is no turn of a task leaves a supervision where it is. -/
theorem Course.calm (course : s.Course w k) (calm : s.Calm t) : t.Course w k := by
  have aged := calm.toAged
  cases course with
  | watching place untold fits waits =>
    exact .watching (calm.waiter.trans place) (untold.calm calm) (aged.later.fits fits)
      (waits.of_init_eq aged.init)
  | reporting place untold waited =>
    exact .reporting (calm.waiter.trans place) (untold.calm calm) (aged.waited waited)
  | reported place awaits told waited =>
    exact .reported (calm.waiter.trans place)
      (calm.phase.elim (fun same => same ▸ awaits) (·.2)) (told.aged aged) (aged.waited waited)
  | deleting place phase told waited =>
    have busy : s.phase.awaits = false := by rw [phase]; rfl
    exact .deleting (calm.waiter.trans place) ((calm.phase_eq busy).trans phase) (told.aged aged)
      (aged.waited waited)
  | refused place phase reported printed unseen =>
    have busy : s.phase.awaits = false := by rw [phase]; rfl
    refine .refused (calm.waiter.trans place) ?_ (aged.reported.trans reported)
      (aged.printed.trans printed) (aged.init ▸ unseen)
    rw [calm.phase_eq busy, phase, aged.config]
  | deleted place phase reported printed seen =>
    have busy : s.phase.awaits = false := by rw [phase]; rfl
    refine .deleted (calm.waiter.trans place) ((calm.phase_eq busy).trans phase)
      (aged.reported.trans reported) ?_ (aged.init ▸ seen)
    rw [aged.printed, aged.config]
    exact printed

theorem Steady.calm (steady : s.Steady w k) (calm : s.Calm t) : t.Steady w k :=
  ⟨steady.order.aged calm.toAged, steady.course.calm calm⟩

/-- While the waiter waits, nothing is reported. -/
theorem Course.of_watching {stage : LocalStage} (course : s.Course w k)
    (place : s.waiter = .waiting stage) : s.Untold ∧ stage.Fits s.process.controller ∧
      stage.Waits s.process.controller ∧ w = (Waiter.mk stage).result? ∧
      k = stage.sectionsLeft + 4 := by
  cases course with
  | watching here untold fits waits =>
    cases here.symm.trans place
    exact ⟨untold, fits, waits, rfl, rfl⟩
  | reporting here | reported here | deleting here | refused here | deleted here =>
    cases here.symm.trans place

/-- What the wait has given is known at every place. -/
theorem Course.waited?_or (course : s.Course w k) : s.waited?.or w = w := by
  cases course with
  | @watching stage place =>
    simp only [waited?, place]
    cases (Waiter.mk stage).result? <;> rfl
  | reporting place | reported place | deleting place | refused place | deleted place =>
    rw [waited?, place]
    rfl

/-! ## Turns of the tasks -/

/-- The waiter does a section of the wait. -/
theorem watched {stage stage' : LocalStage} {c : LocalController} {ns : List Notice}
    (order : s.InOrder) (place : s.waiter = .waiting stage) (untold : s.Untold)
    (fits : stage.Fits s.process.controller) (waits : stage.Waits s.process.controller)
    (step : s.process.controller.step? stage = some (c, stage', ns)) :
    ∃ t, s.waiterStep? = some t ∧ t.Steady (Waiter.mk stage').result? (stage'.sectionsLeft + 4) ∧
      s.process.controller.Later t.process.controller ∧ t.process.controller = c ∧
      t.waiter = .waiting stage' ∧ stage'.sectionsLeft < stage.sectionsLeft := by
  obtain ⟨waits', less⟩ := waits.step fits step
  have work := LocalController.work_of_step? step
  have later := work.later order.tidy
  refine ⟨{ s with
    waiter := .waiting stage'
    process := { s.process with
      controller := c, log := s.process.log ++ ns.map LogEntry.notice } }, ?_, ?_, later,
    rfl, rfl, less⟩
  · unfold waiterStep?
    split
    · rename_i here
      cases here.symm.trans place
      cases step
    · rename_i here
      cases here.symm.trans place
      cases step
    · rename_i here
      cases here.symm.trans place
      rw [step]
      rfl
    all_goals rename_i here; cases here.symm.trans place
  · refine ⟨⟨work.tidy order.tidy fits, fun unborn => ?_, order.free, order.id⟩,
      .watching rfl ⟨untold.slot, untold.reported, untold.printed, untold.awaits⟩
        (work.fits order.tidy fits) waits'⟩
    obtain ⟨pid, born⟩ := Option.ne_none_iff_exists'.mp order.born
    exact nomatch (later.pid born).symm.trans unborn

/-- The waiter goes on from a wait that is over. -/
theorem heard {stage : LocalStage} {r : Except ControllerError Int32} (order : s.InOrder)
    (place : s.waiter = .waiting stage) (past : (Waiter.mk stage).result? = some r)
    (untold : s.Untold) (waits : stage.Waits s.process.controller) :
    ∃ t, s.waiterStep? = some t ∧ t.Steady (some r) 3 ∧
      s.process.controller.Later t.process.controller ∧
      t.process.controller.init = s.process.controller.init := by
  have waited := waits.waited past
  cases stage with
  | finished result =>
    cases result with
    | ok yield =>
      cases yield with
      | answer a => cases past
      | code code =>
        cases past
        refine ⟨{ s with waiter := .reporting code }, by simp only [waiterStep?, place],
          ⟨order.aged ?_, .reporting rfl ?_ waited⟩, .refl _, rfl⟩
        · exact ⟨rfl, rfl, rfl, rfl, rfl, rfl, _, .refl _, rfl⟩
        · exact ⟨untold.slot, untold.reported, untold.printed, untold.awaits⟩
    | error e =>
      cases past
      refine ⟨{ s.note (.waitFailed s.config.id e.message) with
        waiter := .reporting unknownExitCode }, by simp only [waiterStep?, place],
        ⟨order.aged ?_, .reporting rfl ?_ waited⟩, .refl _, rfl⟩
      · exact ⟨rfl, rfl, rfl, rfl, rfl, rfl, _, .refl _, rfl⟩
      · exact ⟨untold.slot, untold.reported, untold.printed, untold.awaits⟩
  | _ => cases past

/-- The waiter reports the exit. -/
theorem reports {r : Except ControllerError Int32} (order : s.InOrder)
    (place : s.waiter = .reporting (reportOf r)) (untold : s.Untold)
    (waited : s.process.controller.Waited r) :
    ∃ t, s.waiterStep? = some t ∧ t.Steady (some r) 2 ∧
      s.process.controller.Later t.process.controller ∧
      t.process.controller.init = s.process.controller.init := by
  have unseen : s.process.slot.exit = none := by rw [untold.slot]
  have stops : s.process.slot.state.onExit = .stop := by rw [untold.slot]; rfl
  obtain ⟨q, moment, ran, id, busy, slot, host, evolves, controller⟩ :=
    InitProcess.setExited_local (reportOf r) unseen stops
  have init : q.controller.init = s.process.controller.init := by rw [controller]
  refine ⟨{ s with process := q, waiter := .done, reported := s.reported ++ [reportOf r] }, ?_,
    ⟨⟨controller ▸ order.tidy.of_evolves evolves, init ▸ order.born, busy.trans order.free,
      id.trans order.id⟩, .reported rfl untold.awaits ⟨⟨moment, slot⟩, ?_, untold.printed⟩ ?_⟩,
    controller ▸ .of_evolves evolves, init⟩
  · simp only [waiterStep?, place, StateT.run, ran]
  · rw [untold.reported]
    rfl
  · exact ⟨init ▸ waited.taken, fun gave => init ▸ waited.exit gave⟩

/-- The main task sees that the waiter is done. -/
theorem joins {r : Except ControllerError Int32} (order : s.InOrder) (place : s.waiter = .done)
    (awaits : s.phase.awaits = true) (told : s.Told (reportOf r))
    (waited : s.process.controller.Waited r) :
    ∃ t, s.join? = some t ∧ t.Steady (some r) 1 ∧
      s.process.controller.Later t.process.controller ∧
      t.process.controller.init = s.process.controller.init := by
  refine ⟨{ s with waiter := .joined, phase := .deleting }, ?_,
    ⟨⟨order.tidy, order.born, order.free, order.id⟩,
      .deleting rfl rfl ⟨told.slot, told.reported, told.printed⟩ waited⟩, .refl _, rfl⟩
  unfold join?
  rw [place]
  cases phase : s.phase with
  | waiting | terminating | killing => rfl
  | _ => rw [phase] at awaits; cases awaits

/-- What the call of the controller leaves in order. -/
theorem InOrder.call {q : LocalProcess} (order : s.InOrder) (call : Call) (id : q.id = s.process.id)
    (free : q.busy = false)
    (controller : q.controller = (s.process.controller.call call).controller) :
    ({ s with process := q } : Supervision).InOrder ∧
      s.process.controller.Later q.controller := by
  obtain ⟨tidy, later⟩ :=
    (LocalController.runs_call s.process.controller call).tidy_later order.tidy trivial
  rw [← controller] at tidy later
  refine ⟨⟨tidy, fun unborn => ?_, free, id.trans order.id⟩, later⟩
  obtain ⟨pid, born⟩ := Option.ne_none_iff_exists'.mp order.born
  exact nomatch (later.pid born).symm.trans unborn

/-- The deletion of a process whose exit was reported is a call of the controller. -/
theorem deletion_asked {code : Int32} (order : s.InOrder) (told : s.Told code) :
    ∃ q moment, s.request? .delete =
        some ((s.process.controller.call (.delete s.process.id)).result.mapError .controller,
          { s with process := q }) ∧
      ({ s with process := q } : Supervision).InOrder ∧
      s.process.controller.Later q.controller ∧
      q.controller = (s.process.controller.call (.delete s.process.id)).controller ∧
      q.slot = (⟨.stopped, some ⟨code, moment⟩⟩ : Slot).afterEffect
        (s.process.controller.call (.delete s.process.id)).result (some .deleted) := by
  obtain ⟨moment, stopped⟩ := told.slot
  have accepted : s.process.slot.state.dispatch .delete = .ok (.delegate (some .deleted)) := by
    rw [stopped]
    rfl
  obtain ⟨q, asked, id, free, controller, slot⟩ :=
    request?_eq (r := .delete) order.free accepted rfl
  obtain ⟨order', later⟩ := order.call _ id free controller
  exact ⟨q, moment, asked, order', later, controller, stopped ▸ slot⟩

/-- A process whose exit is not recorded is not deleted. -/
theorem refuses {r : Except ControllerError Int32} (order : s.InOrder)
    (place : s.waiter = .joined) (phase : s.phase = .deleting) (told : s.Told (reportOf r))
    (waited : s.process.controller.Waited r)
    (unseen : s.process.controller.init.exit = none) :
    ∃ t, s.delete? = some t ∧ t.Steady (some r) 0 ∧
      s.process.controller.Later t.process.controller ∧ (∃ f, t.phase = .failed f) ∧
      s.Writes t [] := by
  obtain ⟨q, -, asked, order', later, controller, -⟩ := deletion_asked order told
  have quiet := Writes.of_request asked
  obtain ⟨refused, same⟩ := LocalController.call_delete_of_taken s.process.id order.born unseen
    waited.taken
  rw [same] at controller
  cases r with
  | ok code => exact nomatch unseen.symm.trans (waited.exit rfl)
  | error e =>
    refine ⟨{ s with
      process := q
      phase := .failed ⟨"failed to delete init process",
        some (LifecycleError.controller (.stillRunning s.config.id)).message⟩ }, ?_,
      ⟨⟨order'.tidy, order'.born, order'.free, order'.id⟩,
        .refused place rfl told.reported told.printed (controller ▸ unseen)⟩, later, ⟨_, rfl⟩,
      quiet.printed, quiet.written⟩
    simp only [delete?, phase]
    rw [asked, refused, order.id]
    rfl

/-- A process whose exit is recorded is deleted, and the code that was reported is written. -/
theorem deletes {r : Except ControllerError Int32} (order : s.InOrder)
    (place : s.waiter = .joined) (phase : s.phase = .deleting) (told : s.Told (reportOf r))
    (seen : s.process.controller.init.exit ≠ none) :
    ∃ t, s.delete? = some t ∧ t.Steady (some r) 0 ∧
      s.process.controller.Later t.process.controller ∧ t.phase = .finished (reportOf r) ∧
      ∃ moment, s.Writes t [⟨s.config.id, .deleted, some ⟨reportOf r, moment⟩⟩] := by
  obtain ⟨q, moment, asked, order', later, -, slot⟩ := deletion_asked order told
  have done := LocalController.call_delete_of_exit s.process.id seen
  rw [done] at slot
  have exit : (q.slot.exit.map (·.code)).getD 0 = reportOf r := by rw [slot]; rfl
  have snapshot : q.snapshot = ⟨s.config.id, .deleted, some ⟨reportOf r, moment⟩⟩ := by
    have id : q.id = s.config.id := order'.id
    rw [InitProcess.snapshot, slot, id]
    rfl
  refine ⟨{ ({ s with process := q } : Supervision).print.note
    (.supervisorExiting s.config.id (reportOf r)) with phase := .finished (reportOf r) }, ?_,
    ⟨⟨order'.tidy.of_evolves (.of_processes_eq rfl rfl), order'.born, order'.free, order'.id⟩,
      .deleted place rfl told.reported ⟨moment, ?_⟩ (later.exit seen)⟩,
    later.trans (.of_evolves (.of_processes_eq rfl rfl)), rfl, moment, ?_⟩
  · simp only [delete?, phase]
    rw [asked, done, ← exit]
    rfl
  · show s.printed ++ [q.snapshot] = _
    rw [told.printed, snapshot]
    rfl
  · have quiet : q.controller.host.written = s.process.controller.host.written := by
      simpa using (Writes.of_request asked).written
    refine ⟨congrArg (s.printed ++ [·]) snapshot, ?_⟩
    show q.controller.host.written ++ [lineOf q.snapshot] = _
    rw [quiet, snapshot]
    rfl

/-! ## All steps -/

theorem step?_of_waiterStep? {stage : LocalStage} (place : s.waiter = .waiting stage)
    (under : (Waiter.mk stage).result? = none) (step : s.waiterStep? = some t) :
    ∃ c stage' ns, s.process.controller.step? stage = some (c, stage', ns) := by
  unfold waiterStep? at step
  split at step
  · rename_i here
    cases here.symm.trans place
    cases under
  · rename_i here
    cases here.symm.trans place
    cases under
  · rename_i here
    cases here.symm.trans place
    cases next : s.process.controller.step? stage with
    | none => rw [next] at step; cases step
    | some next => exact ⟨_, _, _, rfl⟩
  all_goals rename_i here; cases here.symm.trans place

/-- A turn of a task leads to another place, from which fewer turns are left. -/
theorem Steady.task {turn : Turn} (steady : s.Steady w k)
    (own : turn ∈ [Turn.waiter, .join, .delete]) (step : s.step? turn = some t) :
    ∃ k', t.Steady (t.waited?.or w) k' ∧ k' < k ∧
      s.process.controller.Later t.process.controller := by
  obtain ⟨order, course⟩ := steady
  -- What the tasks do is a function of where they are.
  have only {next? : Option Supervision} {r : Except ControllerError Int32} {k' : Nat}
      {P : Supervision → Prop}
      (next : ∃ t, next? = some t ∧ t.Steady (some r) k' ∧
        s.process.controller.Later t.process.controller ∧ P t)
      (step : next? = some t) (less : k' < k) (gave : w = some r) :
      ∃ k', t.Steady (t.waited?.or w) k' ∧ k' < k ∧
        s.process.controller.Later t.process.controller := by
    obtain ⟨_, made, steady, later, -⟩ := next
    cases made.symm.trans step
    exact ⟨k', by rw [gave, steady.course.waited?_or]; exact steady, less, later⟩
  cases course with
  | @watching stage place untold fits waits =>
    rcases task_cases own step with step | ⟨elsewhere, -⟩ | ⟨phase, -⟩
    · cases past : (Waiter.mk stage).result? with
      | some r =>
        rw [past] at only
        exact only (heard order place past untold waits) step (by omega) rfl
      | none =>
        obtain ⟨c, stage', ns, next⟩ := step?_of_waiterStep? place past step
        obtain ⟨t', made, steady, later, -, place', less⟩ :=
          watched order place untold fits waits next
        cases made.symm.trans step
        have gives : t.waited? = (Waiter.mk stage').result? := by simp only [waited?, place']
        exact ⟨_, by rw [gives, Option.or_none]; exact steady, by omega, later⟩
    · exact nomatch elsewhere.symm.trans place
    · exact absurd untold.awaits (by rw [phase]; exact nofun)
  | reporting place untold waited =>
    rcases task_cases own step with step | ⟨elsewhere, -⟩ | ⟨phase, -⟩
    · exact only (reports order place untold waited) step (by omega) rfl
    · exact nomatch elsewhere.symm.trans place
    · exact absurd untold.awaits (by rw [phase]; exact nofun)
  | reported place awaits told waited =>
    rcases task_cases own step with step | ⟨-, step⟩ | ⟨phase, -⟩
    · simp only [waiterStep?, place] at step
      cases step
    · exact only (joins order place awaits told waited) step (by omega) rfl
    · exact absurd awaits (by rw [phase]; exact nofun)
  | deleting place phase told waited =>
    rcases task_cases own step with step | ⟨elsewhere, -⟩ | ⟨-, step⟩
    · simp only [waiterStep?, place] at step
      cases step
    · exact nomatch elsewhere.symm.trans place
    · by_cases seen : s.process.controller.init.exit = none
      · exact only (refuses order place phase told waited seen) step (by omega) rfl
      · exact only (deletes order place phase told seen) step (by omega) rfl
  | refused place phase | deleted place phase =>
    rcases task_cases own step with step | ⟨elsewhere, -⟩ | ⟨deleting, -⟩
    · simp only [waiterStep?, place] at step
      cases step
    · exact nomatch elsewhere.symm.trans place
    · exact nomatch deleting.symm.trans phase

/-- The waiter asks the system for something only while it waits for the child, or lets it go. -/
theorem Steady.fault {stage : LocalStage} (steady : s.Steady w k) (e : ControllerError)
    (place : s.waiter = .waiting stage) (asks : s.process.controller.asksSystem stage = true) :
    ({ s with waiter := .waiting (.finished (.error e)) } : Supervision).Steady
      (some (.error e)) 4 ∧ 4 ≤ k := by
  obtain ⟨order, course⟩ := steady
  obtain ⟨untold, fits, waits, -, rfl⟩ := course.of_watching place
  have taken : s.process.controller.init.child = none := by
    cases stage with
    | awaiting => exact fits.2
    | releasing => exact fits.2.1
    | arriving | recording | finished => cases asks
    | _ => cases waits
  have past : Course { s with waiter := .waiting (.finished (.error e)) }
      (Waiter.mk (.finished (.error e))).result?
      ((LocalStage.finished (.error e)).sectionsLeft + 4) :=
    .watching rfl ⟨untold.slot, untold.reported, untold.printed, untold.awaits⟩ trivial
      ⟨_, rfl, taken, nofun⟩
  exact ⟨⟨⟨order.tidy, order.born, order.free, order.id⟩, past⟩, by omega⟩

/-- The process of a supervision whose main task waits can be sent a signal. -/
theorem Course.killable (course : s.Course w k) (awaits : s.phase.awaits = true) :
    s.process.slot.state.dispatch .kill = .ok (.delegate none) := by
  cases course with
  | watching _ untold | reporting _ untold => rw [untold.slot]; rfl
  | reported _ _ told =>
    obtain ⟨moment, stopped⟩ := told.slot
    rw [stopped]
    rfl
  | deleting _ phase | refused _ phase | deleted _ phase =>
    rw [phase] at awaits
    cases awaits

theorem awaits_of_ask {turn : Turn} (asked : turn ∈ [Turn.interrupt, .expire])
    (step : s.step? turn = some t) : s.phase.awaits = true := by
  simp only [List.mem_cons, List.not_mem_nil, or_false] at asked
  rcases asked with rfl | rfl
  · simp only [step?, interrupt?] at step
    split at step
    · rename_i phase
      rw [phase]
      rfl
    · cases step
  · simp only [step?, expire?] at step
    split at step
    · rename_i phase
      rw [phase]
      rfl
    · cases step

/-- **A step keeps a supervision on its course.** -/
theorem Steady.step (steady : s.Steady w k) (step : s.Step n t) :
    ∃ k', t.Steady (t.waited?.or w) k' ∧ k' + n ≤ k ∧
      s.process.controller.Later t.process.controller := by
  have rest {t : Supervision} (calm : s.Calm t) :
      ∃ k', t.Steady (t.waited?.or w) k' ∧ k' + 0 ≤ k ∧
        s.process.controller.Later t.process.controller := by
    have still := steady.calm calm
    exact ⟨k, by rw [still.course.waited?_or]; exact still, Nat.le_refl k, calm.later⟩
  cases step with
  | task turn own step => exact steady.task own step
  | ask turn asked step =>
    have killable := steady.course.killable (awaits_of_ask asked step)
    exact rest (calm_of_ask asked steady.order.free killable step)
  | fault e place asks =>
    obtain ⟨steady, le⟩ := steady.fault e place asks
    exact ⟨4, steady, le, .refl _⟩
  | pass evolves => exact rest (calm_of_pass evolves)

/-- **A run keeps a supervision on its course**, and its tasks take no more turns than there were at
the start. -/
theorem Reachable.steady (reachable : Reachable start n w s) (steady : start.Steady none k) :
    ∃ k', s.Steady w k' ∧ k' + n ≤ k := by
  induction reachable with
  | refl => exact ⟨k, steady, Nat.le_refl k⟩
  | step _ step ih =>
    obtain ⟨k', steady, le⟩ := ih
    obtain ⟨k'', steady, le', -⟩ := steady.step step
    exact ⟨k'', steady, by omega⟩

/-! ## Going on -/

/-- The init process has ended. -/
def HasEnded (s : Supervision) : Prop :=
  ∃ pid l, s.process.controller.init.pid = some pid ∧ s.process.controller.host.Child pid l ∧
    l ≠ .alive

/-- An init process that has ended does not live again. -/
theorem Steady.hasEnded (steady : s.Steady w k) (ended : s.HasEnded) (step : s.Step n t) :
    t.HasEnded := by
  obtain ⟨-, -, -, later⟩ := steady.step step
  obtain ⟨pid, l, born, child, dead⟩ := ended
  obtain ⟨l', child', leads⟩ := later.child child
  exact ⟨pid, l', later.pid born, child', leads.not_alive dead⟩

/-- One of the tasks can take a turn. -/
def GoesOn (s : Supervision) : Prop :=
  ∃ turn ∈ [Turn.waiter, .join, .delete], (s.step? turn).isSome

/-- **A supervision goes on to its end** once the init process has ended. -/
theorem Steady.goesOn (steady : s.Steady w k) (ended : s.HasEnded) : k = 0 ∨ s.GoesOn := by
  obtain ⟨order, course⟩ := steady
  have can (turn : Turn) (own : turn ∈ [Turn.waiter, .join, .delete]) {P : Supervision → Prop}
      (next : ∃ t, s.step? turn = some t ∧ P t) : s.GoesOn := by
    obtain ⟨t, step, -⟩ := next
    exact ⟨turn, own, Option.isSome_iff_exists.mpr ⟨t, step⟩⟩
  cases course with
  | @watching stage place untold fits waits =>
    right
    cases past : (Waiter.mk stage).result? with
    | some r => exact can .waiter (by decide) (heard order place past untold waits)
    | none =>
      obtain ⟨pid, l, born, child, dead⟩ := ended
      obtain ⟨⟨c, stage', ns⟩, next⟩ :=
        Option.isSome_iff_exists.mp (waits.goesOn fits order.tidy past born child dead)
      exact can .waiter (by decide) (watched order place untold fits waits next)
  | reporting place untold waited =>
    exact .inr (can .waiter (by decide) (reports order place untold waited))
  | reported place awaits told waited =>
    exact .inr (can .join (by decide) (joins order place awaits told waited))
  | deleting place phase told waited =>
    right
    by_cases seen : s.process.controller.init.exit = none
    · exact can .delete (by decide) (refuses order place phase told waited seen)
    · exact can .delete (by decide) (deletes order place phase told seen)
  | refused | deleted => exact .inl rfl

end Supervision

end ContainerInit
