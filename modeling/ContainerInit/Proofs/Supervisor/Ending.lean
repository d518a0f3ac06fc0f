import ContainerInit.Proofs.Supervisor.Course

/-!
# The end of a supervision

A supervision reports the exit of its process once and comes to its end, whatever its waiter sees.

- **Beginning** (`begin_underWay`, `steady_of_begin`): a supervision begins if its process can be
  started, and then it is on its course.
- **Account** (`Supervision.Accounted`, `accounted`): what was reported and written at any time,
  what a deletion does, and how many turns it takes at most to come to the end. A deletion succeeds
  if the exit is recorded; the wait has recorded it if it gave a code.
- **Runs to the end** (`Steady.runOut`): where the process has ended before the wait begins, the
  tasks come to the end that the wait decides. A wait that cannot report the ending records no exit,
  and then the process is not deleted (`deletion_refused`).
-/

namespace ContainerInit

open Host (Ending)

namespace Supervision

variable {start s t : Supervision} {k n : Nat} {w : Option (Except ControllerError Int32)}

/-! ## The beginning -/

variable {args : List String} {lookup : String → Option String} {fresh : Uuid} {host : Host}
  {config : Config}

/-- The process that is to be started. -/
def readied (args : List String) (host : Host) (config : Config) : LocalProcess :=
  let process := InitProcess.create config.id { launch := { args }, host } .log
  { process with
    log := [.notice (.logReady config.traceJson)] ++
      [.notice (.supervisorStarting config.id args)] ++ process.log
    clock := host.clock }

/-- The start of the process, as a call of its controller. -/
def starting (args : List String) (host : Host) (config : Config) : Section Answer :=
  (readied args host config).controller.call (.start config.id)

theorem begin_eq (loaded : Config.load lookup fresh = .ok config) (given : args.isEmpty = false) :
    Supervision.begin args lookup fresh host =
      match (InitProcess.operate LocalController.asController .start).run
        (readied args host config) with
      | .error _ => .failed ⟨"failed to start init process", none⟩ (readied args host config).log
      | .ok (.error e, process) =>
        .failed ⟨"failed to start init process", some e.message⟩ process.log
      | .ok (.ok _, process) =>
        .underWay (({
          config, process, waiter := .waiting (.arriving config.id) } : Supervision).note
            (.initRunning config.id process.controller.init.pid)) := by
  unfold Supervision.begin
  simp only [loaded, given]
  rfl

/-- What becomes of the process that is to be started. -/
theorem start_eq (args : List String) (host : Host) (config : Config) :
    ∃ q, InitProcess.operate LocalController.asController .start (readied args host config) =
        .ok ((starting args host config).result.mapError .controller, q) ∧
      q.id = config.id ∧ q.busy = false ∧ q.controller = (starting args host config).controller ∧
      q.slot = Slot.afterEffect {} (starting args host config).result (some .running) :=
  InitProcess.operate_local rfl rfl rfl

/-- A supervision begins if the process can be started. -/
theorem begin_underWay (numbered : host.Numbered)
    (loaded : Config.load lookup fresh = .ok config) (given : args.isEmpty = false) {a : Answer}
    (started : (starting args host config).result = .ok a) :
    ∃ start, Supervision.begin args lookup fresh host = .underWay start ∧ start.Steady none 8 ∧
      start.waiter = .waiting (.arriving config.id) ∧
      start.process.controller = (starting args host config).controller := by
  obtain ⟨q, ran, id, free, controller, slot⟩ := start_eq args host config
  obtain ⟨tidy, -⟩ := (LocalController.runs_call _ (.start config.id)).tidy_later
    (LocalInterleaving.sound_fresh { args } numbered).tidy trivial
  obtain ⟨pid, init⟩ := LocalController.call_start started
  rw [started] at ran slot
  have known : q.controller.init = ⟨some pid, some pid, none⟩ :=
    (congrArg LocalController.init controller).trans init
  let start : Supervision :=
    ({ config, process := q, waiter := .waiting (.arriving config.id) } : Supervision).note
      (.initRunning config.id q.controller.init.pid)
  have course : start.Course (Waiter.mk (.arriving config.id)).result?
      ((LocalStage.arriving config.id).sectionsLeft + 4) := by
    refine .watching rfl ⟨slot, rfl, rfl, rfl⟩ trivial ?_
    show q.controller.init.child ≠ none ∧ q.controller.init.exit = none
    rw [known]
    exact ⟨nofun, rfl⟩
  have order : start.InOrder := by
    refine ⟨?_, ?_, free, id⟩
    · show q.controller.Tidy
      rw [controller]
      exact tidy
    · show q.controller.init.pid ≠ none
      rw [known]
      exact nofun
  exact ⟨start, by rw [begin_eq loaded given, StateT.run, ran]; rfl, ⟨order, course⟩, rfl,
    controller⟩

/-- A supervision that has begun is on its course. -/
theorem steady_of_begin (numbered : host.Numbered)
    (begun : Supervision.begin args lookup fresh host = .underWay start) : start.Steady none 8 := by
  cases loaded : Config.load lookup fresh with
  | error e =>
    simp only [Supervision.begin, loaded] at begun
    cases begun
  | ok config =>
    cases given : args.isEmpty with
    | true =>
      simp only [Supervision.begin, loaded, given] at begun
      cases begun
    | false =>
      cases started : (starting args host config).result with
      | ok a =>
        obtain ⟨_, same, steady, -⟩ := begin_underWay numbered loaded given started
        cases same.symm.trans begun
        exact steady
      | error e =>
        obtain ⟨q, ran, -⟩ := start_eq args host config
        rw [begin_eq loaded given, StateT.run, ran, started] at begun
        cases begun

/-! ## The account -/

/-- What is true of a supervision whose tasks have taken `n` turns and whose wait has given `w`. -/
structure Accounted (s : Supervision) (n : Nat) (w : Option (Except ControllerError Int32)) :
    Prop where
  /-- The exit is reported once at most, with the code that the wait gave, or with the unknown one
  if it failed. -/
  reported : s.reported = [] ∨ ∃ r, w = some r ∧ s.reported = [reportOf r]
  /-- The main task waits for the waiter until it has seen that it is done, and never again. -/
  joined : s.waiter = .joined ↔ s.phase.awaits = false
  /-- When the main task goes on to the deletion, the exit is reported. -/
  first : s.phase.awaits = false → s.reported ≠ []
  /-- A deletion succeeds if the exit is recorded, as it is where the wait gave a code, and then it
  writes one line to the host's output, which says that the process is deleted, and with which code.
  If the exit is not recorded, the deletion fails and writes nothing. -/
  deletion : s.phase = .deleting → ∃ r t, w = some r ∧ s.delete? = some t ∧
    (∀ {code : Int32}, r = .ok code → s.process.controller.init.exit = some code) ∧
    (s.process.controller.init.exit ≠ none → t.phase = .finished (reportOf r) ∧
      ∃ moment, s.Writes t [⟨s.config.id, .deleted, some ⟨reportOf r, moment⟩⟩]) ∧
    (s.process.controller.init.exit = none → (∃ f, t.phase = .failed f) ∧ s.Writes t [])
  /-- Only a deletion writes. -/
  quiet : ∀ {turn : Turn} {t : Supervision}, turn ≠ .delete → turn ≠ .tick →
    s.step? turn = some t → s.Writes t []
  /-- At the end after a deletion, the process was written once, deleted, with the code that was
  reported, which is the exit code of the supervision too. -/
  finished : ∀ {code : Int32}, s.phase = .finished code → s.reported = [code] ∧
    ∃ moment, s.printed = [⟨s.config.id, .deleted, some ⟨code, moment⟩⟩]
  /-- At the end without a deletion, the wait has failed and has recorded no exit. -/
  failed : ∀ {f : Failure}, s.phase = .failed f → s.reported = [unknownExitCode] ∧
    s.process.controller.init.exit = none ∧ (∃ e, w = some (.error e)) ∧
    f = ⟨"failed to delete init process",
      some (LifecycleError.controller (.stillRunning s.config.id)).message⟩
  /-- Before the end nothing is written, nor at an end without a deletion. -/
  printed : s.printed ≠ [] → ∃ code, s.phase = .finished code
  /-- The tasks take no more turns than there are from the start to the end. -/
  turns : n ≤ 8
  /-- Once the init process has ended, there is a turn to take before the end. -/
  goesOn : s.HasEnded →
    (∃ code, s.phase = .finished code) ∨ (∃ f, s.phase = .failed f) ∨ s.GoesOn
  /-- And it does not live again. -/
  hasEnded : s.HasEnded → ∀ {k : Nat} {t : Supervision}, s.Step k t → t.HasEnded

namespace Course

variable (course : s.Course w k)

include course

theorem reported_eq : s.reported = [] ∨ ∃ r, w = some r ∧ s.reported = [reportOf r] := by
  cases course with
  | watching _ untold | reporting _ untold => exact .inl untold.reported
  | reported _ _ told | deleting _ _ told => exact .inr ⟨_, rfl, told.reported⟩
  | refused _ _ reported => exact .inr ⟨_, rfl, reported⟩
  | deleted _ _ reported => exact .inr ⟨_, rfl, reported⟩

theorem joined_iff : s.waiter = .joined ↔ s.phase.awaits = false := by
  cases course with
  | watching place untold | reporting place untold => simp [place, untold.awaits]
  | reported place awaits => simp [place, awaits]
  | deleting place phase | refused place phase | deleted place phase =>
    simp [place, phase, Phase.awaits]

theorem reported_ne_nil (busy : s.phase.awaits = false) : s.reported ≠ [] := by
  cases course with
  | watching _ untold | reporting _ untold => exact nomatch busy.symm.trans untold.awaits
  | reported _ awaits => exact nomatch busy.symm.trans awaits
  | deleting _ _ told => rw [told.reported]; exact nofun
  | refused _ _ reported | deleted _ _ reported => rw [reported]; exact nofun

theorem finished_eq {code : Int32} (past : s.phase = .finished code) : s.reported = [code] ∧
    ∃ moment, s.printed = [⟨s.config.id, .deleted, some ⟨code, moment⟩⟩] := by
  have busy : s.phase.awaits = false := by rw [past]; rfl
  cases course with
  | watching _ untold | reporting _ untold => exact nomatch busy.symm.trans untold.awaits
  | reported _ awaits => exact nomatch busy.symm.trans awaits
  | deleting _ phase | refused _ phase => exact nomatch past.symm.trans phase
  | deleted _ phase reported printed =>
    cases past.symm.trans phase
    exact ⟨reported, printed⟩

theorem failed_eq {f : Failure} (past : s.phase = .failed f) :
    s.reported = [unknownExitCode] ∧ s.process.controller.init.exit = none ∧
      (∃ e, w = some (.error e)) ∧ f = ⟨"failed to delete init process",
        some (LifecycleError.controller (.stillRunning s.config.id)).message⟩ := by
  have busy : s.phase.awaits = false := by rw [past]; rfl
  cases course with
  | watching _ untold | reporting _ untold => exact nomatch busy.symm.trans untold.awaits
  | reported _ awaits => exact nomatch busy.symm.trans awaits
  | deleting _ phase | deleted _ phase => exact nomatch past.symm.trans phase
  | refused _ phase reported _ unseen =>
    cases past.symm.trans phase
    exact ⟨reported, unseen, ⟨_, rfl⟩, rfl⟩

theorem finished_of_printed (printed : s.printed ≠ []) : ∃ code, s.phase = .finished code := by
  cases course with
  | watching _ untold | reporting _ untold => exact absurd untold.printed printed
  | reported _ _ told | deleting _ _ told => exact absurd told.printed printed
  | refused _ _ _ empty => exact absurd empty printed
  | deleted _ phase => exact ⟨_, phase⟩

theorem at_end (none : k = 0) : (∃ code, s.phase = .finished code) ∨ ∃ f, s.phase = .failed f := by
  cases course with
  | refused _ phase => exact .inr ⟨_, phase⟩
  | deleted _ phase => exact .inl ⟨_, phase⟩
  | _ => omega

end Course

/-- What a deletion does at its place. -/
theorem Steady.deletion (steady : s.Steady w k) (phase : s.phase = .deleting) :
    ∃ r t, w = some r ∧ s.delete? = some t ∧
      (∀ {code : Int32}, r = .ok code → s.process.controller.init.exit = some code) ∧
      (s.process.controller.init.exit ≠ none → t.phase = .finished (reportOf r) ∧
        ∃ moment, s.Writes t [⟨s.config.id, .deleted, some ⟨reportOf r, moment⟩⟩]) ∧
      (s.process.controller.init.exit = none → (∃ f, t.phase = .failed f) ∧ s.Writes t []) := by
  obtain ⟨order, course⟩ := steady
  have busy : s.phase.awaits = false := by rw [phase]; rfl
  cases course with
  | watching _ untold | reporting _ untold => exact nomatch busy.symm.trans untold.awaits
  | reported _ awaits => exact nomatch busy.symm.trans awaits
  | refused _ past | deleted _ past => exact nomatch phase.symm.trans past
  | deleting place _ told waited =>
    by_cases seen : s.process.controller.init.exit = none
    · obtain ⟨t, step, -, -, failed⟩ := refuses order place phase told waited seen
      exact ⟨_, t, rfl, step, waited.exit, fun recorded => absurd seen recorded, fun _ => failed⟩
    · obtain ⟨t, step, -, -, finished⟩ := deletes order place phase told seen
      exact ⟨_, t, rfl, step, waited.exit, fun _ => finished, fun unseen => absurd unseen seen⟩

/-- **A supervision reports the exit of its process once, and ends, whatever its waiter sees.**
Whatever its tasks do in whatever order, whenever an interrupt comes and the grace period ends,
whatever the host does, and whatever the system refuses the waiter. -/
theorem accounted (numbered : host.Numbered)
    (begun : Supervision.begin args lookup fresh host = .underWay start)
    (reachable : Reachable start n w s) : s.Accounted n w := by
  obtain ⟨k, steady, turns⟩ := reachable.steady (steady_of_begin numbered begun)
  have course := steady.course
  refine ⟨course.reported_eq, course.joined_iff, course.reported_ne_nil, steady.deletion, .of_step,
    course.finished_eq, course.failed_eq, course.finished_of_printed, by omega, fun ended => ?_,
    fun ended => steady.hasEnded ended⟩
  rcases steady.goesOn ended with none | goesOn
  · exact (course.at_end none).imp_right .inl
  · exact .inr (.inr goesOn)

/-! ## Runs to the end -/

/-- The waiter does sections of the wait. -/
theorem Steady.watch {c c' : LocalController} {stage stage' : LocalStage} {ns : List Notice}
    (runs : LocalController.Runs c stage c' stage' ns) {n k : Nat}
    {w : Option (Except ControllerError Int32)} {s : Supervision}
    (reachable : Reachable start n w s) (steady : s.Steady w k)
    (place : s.waiter = .waiting stage) (controller : s.process.controller = c) :
    ∃ m k' w' t, Reachable start m w' t ∧ t.Steady w' k' ∧ t.waiter = .waiting stage' ∧
      t.process.controller = c' := by
  induction runs generalizing n k w s with
  | refl c stage => exact ⟨n, k, w, s, reachable, steady, place, controller⟩
  | step first rest ih =>
    obtain ⟨untold, fits, waits, gave, -⟩ := steady.course.of_watching place
    rw [LocalStage.result?_of_step? first] at gave
    subst controller gave
    obtain ⟨t, step, steady, -, controller, place, -⟩ :=
      watched steady.order place untold fits waits first
    have turn := reachable.step (.task .waiter (by decide) step)
    rw [Option.or_none, waited?, place] at turn
    exact ih turn steady place controller

/-- Once the wait is over, the tasks come to an end without anybody else. -/
theorem Steady.toEnd {r : Except ControllerError Int32} (reachable : Reachable start n w s)
    (steady : s.Steady w k) (gave : w = some r) :
    ∃ m t, Reachable start m (some r) t ∧ t.Steady (some r) 0 ∧
      (s.process.controller.init.exit = none → ∃ f, t.phase = .failed f) := by
  -- The induction is on the turns that are left; where the exit is not recorded, that carries over
  -- from place to place up to the deletion.
  induction k using Nat.strongRecOn generalizing n w s with
  | ind k ih =>
  have reached : Reachable start n (some r) s := gave ▸ reachable
  obtain ⟨order, course⟩ := steady
  have next (turn : Turn) (own : turn ∈ [Turn.waiter, .join, .delete]) {k' : Nat} {t : Supervision}
      (step : s.step? turn = some t) (steady : t.Steady (some r) k') :
      Reachable start (n + 1) (some r) t := by
    have after := reached.step (.task turn own step)
    rwa [steady.course.waited?_or] at after
  cases course with
  | watching place untold fits waits =>
    obtain ⟨t, step, steady, -, same⟩ := heard order place gave untold waits
    have := ih 3 (by omega) (next .waiter (by decide) step steady) steady rfl
    rwa [same] at this
  | reporting place untold waited =>
    cases gave
    obtain ⟨t, step, steady, -, same⟩ := reports order place untold waited
    have := ih 2 (by omega) (next .waiter (by decide) step steady) steady rfl
    rwa [same] at this
  | reported place awaits told waited =>
    cases gave
    obtain ⟨t, step, steady, -, same⟩ := joins order place awaits told waited
    have := ih 1 (by omega) (next .join (by decide) step steady) steady rfl
    rwa [same] at this
  | deleting place phase told waited =>
    cases gave
    by_cases seen : s.process.controller.init.exit = none
    · obtain ⟨t, step, steady, -, failed, -⟩ := refuses order place phase told waited seen
      exact ⟨_, t, next .delete (by decide) step steady, steady, fun _ => failed⟩
    · obtain ⟨t, step, steady, -⟩ := deletes order place phase told seen
      exact ⟨_, t, next .delete (by decide) step steady, steady,
        fun unseen => absurd unseen seen⟩
  | refused place phase reported printed unseen =>
    cases gave
    exact ⟨n, s, reached, ⟨order, .refused place phase reported printed unseen⟩,
      fun _ => ⟨_, phase⟩⟩
  | deleted place phase reported printed seen =>
    cases gave
    exact ⟨n, s, reached, ⟨order, .deleted place phase reported printed seen⟩,
      fun unseen => absurd unseen seen⟩

/-- A supervision whose process has ended before the wait begins comes to its end with what the wait
gives. -/
theorem Steady.runOut {id : String} {pid : Nat} {e : Ending} (reachable : Reachable start n w s)
    (steady : s.Steady w k) (place : s.waiter = .waiting (.arriving id))
    (held : s.process.controller.init.child = some pid)
    (ended : s.process.controller.host.ending? pid = some e) :
    ∃ m t, Reachable start m (some (reportedCode e)) t ∧ t.Steady (some (reportedCode e)) 0 ∧
      ∀ {error : ControllerError}, reportedCode e = .error error → ∃ f, t.phase = .failed f := by
  obtain ⟨-, -, ⟨-, unseen⟩, -⟩ := steady.course.of_watching place
  obtain ⟨c, ns, runs, unrecorded⟩ := LocalController.runs_wait id held unseen ended
  obtain ⟨m, k', w', t, reachable, steady, place, rfl⟩ := watch runs reachable steady place rfl
  obtain ⟨-, -, -, gave, -⟩ := steady.course.of_watching place
  have past : (Waiter.mk (.finished ((reportedCode e).map .code))).result? =
      some (reportedCode e) := by
    cases reportedCode e <;> rfl
  obtain ⟨m', t', reachable', steady', failed⟩ := steady.toEnd reachable (gave.trans past)
  exact ⟨m', t', reachable', steady', fun error => failed (unrecorded error)⟩

/-- A supervision of `/bin/true`, right after a signal has ended it. -/
theorem begin_true {number : Nat} {host : Host}
    (sent : LocalController.ofTrue.host.signal 100 true number = .ok host) :
    ∃ start s, Supervision.begin ["/bin/true"] (fun _ => none) ⟨0, 0⟩ {} = .underWay start ∧
      Reachable start 0 none s ∧ s.Steady none 8 ∧ s.process.controller.init.child = some 100 ∧
      s.process.controller.init.pid = some 100 ∧ s.process.controller.host = host ∧
      ∃ id, s.waiter = .waiting (.arriving id) := by
  have loaded : Config.load (fun _ => none) ⟨0, 0⟩ = .ok ⟨(⟨0, 0⟩ : Uuid).text, 10000, false⟩ := rfl
  have started (config : Config) : starting ["/bin/true"] {} config =
      ⟨.ok .done, .ofTrue, [.initSpawned config.id 100 ["/bin/true"]], []⟩ := by
    simp only [starting, readied, InitProcess.create, LocalController.call, LocalController.start,
      Host.launch_true]
    rfl
  obtain ⟨start, begun, steady, place, controller⟩ :=
    begin_underWay Host.numbered_empty loaded rfl (congrArg Section.result (started _))
  rw [started] at controller
  have evolves : start.process.controller.host.Evolves host := by
    rw [controller]
    exact Host.evolves_signal sent
  have after := steady.calm (calm_of_pass evolves)
  have passed := Reachable.refl.step (.pass evolves)
  rw [after.course.waited?_or] at passed
  exact ⟨start, _, begun, passed, after, congrArg (·.init.child) controller,
    congrArg (·.init.pid) controller, rfl, _, place⟩

theorem accounted_killedTrue :
    ∃ start n s, Supervision.begin ["/bin/true"] (fun _ => none) ⟨0, 0⟩ {} = .underWay start ∧
      Reachable start n (some (.ok 137)) s ∧ s.Accounted n (some (.ok 137)) ∧
      s.phase = .finished 137 := by
  obtain ⟨host, sent, dead⟩ : ∃ host, LocalController.ofTrue.host.signal 100 true 9 = .ok host ∧
      host.ending? 100 = some (.signaled 9) := ⟨_, rfl, rfl⟩
  obtain ⟨start, s, begun, reachable, steady, held, -, rfl, id, place⟩ := begin_true sent
  obtain ⟨n, t, reachable, steady, -⟩ := steady.runOut reachable place held dead
  have gives : reportedCode (.signaled 9) = .ok 137 := rfl
  rw [gives] at reachable steady
  have account := accounted Host.numbered_empty begun reachable
  refine ⟨start, n, t, begun, reachable, account, ?_⟩
  rcases steady.course.at_end rfl with ⟨code, finished⟩ | ⟨f, failed⟩
  · obtain ⟨told, -⟩ := account.finished finished
    rcases account.reported with untold | ⟨r, gave, reported⟩
    · exact nomatch untold.symm.trans told
    · cases gave
      cases told.symm.trans reported
      exact finished
  · obtain ⟨-, -, ⟨e, error⟩, -⟩ := account.failed failed
    cases error

/-- A wait fails for a signal beyond the standard ones. The process has ended, its exit was reported
with the unknown code, and yet it is not deleted. -/
theorem deletion_refused :
    ∃ start ended n e s,
      Supervision.begin ["/bin/true"] (fun _ => none) ⟨0, 0⟩ {} = .underWay start ∧
      Reachable start 0 none ended ∧ ended.HasEnded ∧
      Reachable ended n (some (.error e)) s ∧ s.reported = [unknownExitCode] ∧ s.printed = [] ∧
      s.phase = .failed ⟨"failed to delete init process",
        some (LifecycleError.controller (.stillRunning s.config.id)).message⟩ := by
  obtain ⟨host, sent, dead, child⟩ :
      ∃ host, LocalController.ofTrue.host.signal 100 true 34 = .ok host ∧
        host.ending? 100 = some (.signaled 34) ∧ host.Child 100 (.ended (.signaled 34)) :=
    ⟨_, rfl, rfl, _, rfl, rfl, rfl⟩
  obtain ⟨start, s, begun, passed, steady, held, born, rfl, id, place⟩ := begin_true sent
  obtain ⟨n, t, reachable, past, failed⟩ := steady.runOut .refl place held dead
  obtain ⟨f, failed⟩ := failed rfl
  obtain ⟨reported, -, ⟨e, gave⟩, rfl⟩ := past.course.failed_eq failed
  rw [gave] at reachable
  refine ⟨start, s, n, e, t, begun, passed, ⟨100, _, born, child, nofun⟩, reachable, reported, ?_,
    failed⟩
  by_contra printed
  obtain ⟨code, finished⟩ := past.course.finished_of_printed printed
  exact nomatch failed.symm.trans finished

end Supervision

end ContainerInit
