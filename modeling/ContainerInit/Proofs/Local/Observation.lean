import ContainerInit.Proofs.Local.Custody

/-!
# Who sees the exit

How the init process has ended is seen by the waiter that has its child, or by a delete that finds
the child in the slot. Whichever comes first, one code is recorded, and every wait returns it
(`exits_observed`); but a waiter can make nothing of a signal beyond the standard ones, and a delete
can (`observers_disagree`).

- **Endings** (`Ending.Reportable`): those that a waiter can report.
- **One code** (`Truthful`, `Agrees`): the recorded exit is that of the ending, for as long as the
  ending is kept and after that.
- **Lost exits** (`Lost`): a waiter had the child and failed. Then no exit is ever recorded.
-/

namespace ContainerInit

open Host (Life Ending)

/-! ## Endings that a waiter can report -/

/-- The ending is an exit, or a standard signal. -/
def Host.Ending.Reportable : Ending → Prop
  | .exited _ => True
  | .signaled n => n ≤ reportableSignals

theorem reportedCode_of_reportable {e : Ending} (h : e.Reportable) :
    reportedCode e = .ok (exitCodeOf e) := by
  cases e with
  | exited status => rfl
  | signaled n => exact if_pos h

theorem reportedCode_of_not_reportable {e : Ending} (h : ¬ e.Reportable) :
    reportedCode e = .error (.io Host.Errno.invalidArgument.named) := by
  cases e with
  | exited status => exact absurd trivial h
  | signaled n => exact if_neg h

/-- A signal that has a name can be reported, with the exit code that belongs to it. -/
theorem Signal.reportable (signal : Signal) :
    (Ending.signaled signal.number).Reportable ∧
      exitCodeOf (.signaled signal.number) = signal.exitCode :=
  ⟨signal.number_le.2, rfl⟩

/-- What becomes of a process that has ended: its ending is kept, or it is gone. -/
theorem Host.Life.Leads.of_ended {e : Ending} {l : Life} (leads : (Life.ended e).Leads l) :
    l = .ended e ∨ l = .reaped :=
  leads.imp_left Life.MayBecome.of_ended

/-- Where a waiter that has the child goes on to with a code. -/
def LocalStage.goesOn (code : Int32) : LocalStage → LocalStage
  | .awaiting id pid => .recording id pid code
  | .recording id pid _ => .releasing id pid code
  | .releasing .. => .finished (.ok (.code code))
  | s => s

namespace LocalInterleaving

variable {c d : LocalInterleaving} {u : Caller} {pid : Nat} {e : Ending} {code : Int32}

/-! ## One code -/

/-- The exit that a turn writes is that of the ending of the init process. -/
private theorem Turn.exit_of_ended (sound : c.Sound) (guarded : c.Guarded) (turn : c.Turn u d) :
    d.controller.init.exit = c.controller.init.exit ∨ ∃ pid e,
      c.controller.init.pid = some pid ∧ c.controller.host.Child pid (.ended e) ∧
      d.controller.init.exit = some (exitCodeOf e) := by
  refine turn.exit_eq.imp_right ?_
  rintro ⟨s, code, place, writes, exit⟩
  obtain ⟨-, pid, e, born, child, rfl⟩ := (sound.booked guarded).writes place writes
  exact ⟨pid, e, born, child, exit⟩

/-- The recorded exit is that of the ending, where the ending is kept. -/
def Truthful (c : LocalInterleaving) : Prop :=
  ∀ pid e code, c.controller.init.pid = some pid → c.controller.host.Child pid (.ended e) →
    c.controller.init.exit = some code → code = exitCodeOf e

private theorem Truthful.kept (truthful : c.Truthful) (tidy : c.controller.Tidy)
    (later : c.controller.Later d.controller)
    (exit : d.controller.init.exit = c.controller.init.exit) : d.Truthful := by
  intro pid e code born child recorded
  rw [exit] at recorded
  have seen : c.controller.init.exit ≠ none := by rw [recorded]; exact nofun
  obtain ⟨q, known⟩ := Option.ne_none_iff_exists'.mp fun unborn => seen (tidy.unborn unborn).2
  cases (later.pid known).symm.trans born
  obtain ⟨l, there, -, past⟩ := tidy.init known
  obtain ⟨l', there', leads⟩ := later.child there
  cases there'.unique child
  cases l with
  | alive => exact absurd rfl (past seen)
  | ended e' =>
    rcases leads.of_ended with same | gone
    · cases same
      exact truthful pid e code known there recorded
    · cases gone
  | reaped => cases leads.of_reaped

private theorem truthful_of_written (later : c.controller.Later d.controller)
    (born : c.controller.init.pid = some pid) (child : c.controller.host.Child pid (.ended e))
    (exit : d.controller.init.exit = some (exitCodeOf e)) : d.Truthful := by
  intro q e' code known there recorded
  cases (later.pid born).symm.trans known
  cases exit.symm.trans recorded
  obtain ⟨l, child', leads⟩ := later.child child
  cases child'.unique there
  rcases leads.of_ended with same | gone
  · cases same
    rfl
  · cases gone

theorem Reachable.truthful {start : LocalInterleaving} (reachable : Reachable start c)
    (sound : start.Sound) (guarded : start.Guarded) (truthful : start.Truthful) : c.Truthful := by
  induction reachable with
  | refl => exact truthful
  | @turn c d u reachable turn ih =>
    have later := turn.later (reachable.sound sound)
    rcases turn.exit_of_ended (reachable.sound sound) (reachable.guarded sound guarded) with
      same | ⟨pid, e, born, child, exit⟩
    · exact ih.kept (reachable.sound sound).tidy later same
    · exact truthful_of_written later born child exit
  | pass reachable evolves ih =>
    exact ih.kept (reachable.sound sound).tidy (.of_evolves evolves) rfl

/-- The init process has ended as `e`, and if an exit is recorded, then this one. -/
structure Agrees (c : LocalInterleaving) (pid : Nat) (e : Ending) : Prop where
  born : c.controller.init.pid = some pid
  ended : c.controller.host.Child pid (.ended e) ∨ c.controller.host.Child pid .reaped
  code : ∀ {code}, c.controller.init.exit = some code → code = exitCodeOf e

private theorem Agrees.ended_later (agrees : c.Agrees pid e)
    (later : c.controller.Later d.controller) :
    d.controller.host.Child pid (.ended e) ∨ d.controller.host.Child pid .reaped := by
  rcases agrees.ended with child | gone
  · obtain ⟨l, child, leads⟩ := later.child child
    rcases leads.of_ended with rfl | rfl
    · exact .inl child
    · exact .inr child
  · exact .inr (later.reaped gone)

/-- **A turn keeps to the code.** -/
theorem Agrees.turn (agrees : c.Agrees pid e) (sound : c.Sound) (guarded : c.Guarded)
    (turn : c.Turn u d) : d.Agrees pid e := by
  have later := turn.later sound
  refine ⟨later.pid agrees.born, agrees.ended_later later, fun {code} exit => ?_⟩
  rcases turn.exit_of_ended sound guarded with same | ⟨q, e', born, child, written⟩
  · exact agrees.code (same ▸ exit)
  · cases agrees.born.symm.trans born
    cases written.symm.trans exit
    rcases agrees.ended with ended | gone
    · cases ended.unique child
      rfl
    · cases gone.unique child

theorem Reachable.agrees (reachable : Reachable c d) (sound : c.Sound) (guarded : c.Guarded)
    (agrees : c.Agrees pid e) : d.Agrees pid e := by
  induction reachable with
  | refl => exact agrees
  | turn u reachable turn ih =>
    exact ih.turn (reachable.sound sound) (reachable.guarded sound guarded) turn
  | pass reachable evolves ih =>
    exact ⟨ih.born, ih.ended_later (.of_evolves evolves), ih.code⟩

/-! ## What callers make of the ending -/

/-- As long as no exit is recorded, the ending is kept. -/
theorem Agrees.child_of_unseen (agrees : c.Agrees pid e) (sound : c.Sound)
    (unseen : c.controller.init.exit = none) : c.controller.host.Child pid (.ended e) := by
  refine agrees.ended.resolve_right fun gone => ?_
  obtain ⟨l, child, reaped, -⟩ := sound.tidy.init agrees.born
  exact reaped (child.unique gone) unseen

/-- What callers make of an init process that has ended as `e`. -/
structure Observed (c : LocalInterleaving) (e : Ending) : Prop where
  recorded : ∀ {code : Int32}, c.controller.init.exit = some code → code = exitCodeOf e
  returned : ∀ {u : Caller} {code : Int32}, c.stages u = some (.finished (.ok (.code code))) →
    code = exitCodeOf e
  /-- A wait that begins after that returns the recorded code. -/
  known : c.controller.init.exit ≠ none → ∀ id, c.controller.step? (.arriving id) =
    some (c.controller, .finished (.ok (.code (exitCodeOf e))), [])
  /-- A delete that finds the child in the slot records the code. -/
  looked : c.controller.init.child ≠ none → ∀ id, ∃ controller,
    c.controller.step? (.begin (.delete id)) = some (controller, .draining id, []) ∧
      controller.init.exit = some (exitCodeOf e)
  /-- A waiter that has the child goes on, up to its return with the code, if it can report it. -/
  waited : e.Reportable → ∀ {u : Caller} {s : LocalStage} {pid : Nat}, c.stages u = some s →
    s.held? = some pid →
    ∃ controller ns, c.controller.step? s = some (controller, s.goesOn (exitCodeOf e), ns)
  /-- Otherwise it fails when it looks at the child. -/
  failed : ¬ e.Reportable → ∀ {u : Caller} {id : String} {pid : Nat},
    c.stages u = some (.awaiting id pid) → c.controller.step? (.awaiting id pid) =
      some (c.controller, .finished (.error (.io Host.Errno.invalidArgument.named)), [])

theorem Agrees.observed (agrees : c.Agrees pid e) (sound : c.Sound) (guarded : c.Guarded) :
    c.Observed e where
  recorded := agrees.code
  returned place := agrees.code (guarded.tells place)
  known seen id := by
    obtain ⟨code, recorded⟩ := Option.ne_none_iff_exists'.mp seen
    simp only [LocalController.step?, LocalController.takeChild, recorded, Section.follow,
      agrees.code recorded]
  looked found id := by
    obtain ⟨child, held⟩ := Option.ne_none_iff_exists'.mp found
    obtain ⟨born, unseen⟩ := sound.tidy.slot held
    cases agrees.born.symm.trans born
    have ended := (agrees.child_of_unseen sound unseen).ending?_eq_some.mpr rfl
    have live : c.controller.livePid? = some pid :=
      LocalController.livePid?_eq_some.mpr ⟨agrees.born, unseen⟩
    refine ⟨{ c.controller with
      init := { c.controller.init with exit := some (exitCodeOf e), child := none }
      host := c.controller.host.reap pid }, ?_, rfl⟩
    simp only [LocalController.step?, LocalController.releaseInit, live, held, ended,
      Section.follow]
  waited reportable {u s q} place held := by
    have tells := guarded.tells place
    obtain ⟨born, -⟩ := sound.holds ⟨s, place, held⟩
    cases agrees.born.symm.trans born
    cases s with
    | awaiting id q =>
      cases held
      have ended := (agrees.child_of_unseen sound tells).ending?_eq_some.mpr rfl
      refine ⟨c.controller, [], ?_⟩
      simp only [LocalController.step?, LocalController.seen?, ended, Option.map_some,
        reportedCode_of_reportable reportable, LocalStage.goesOn]
    | recording id q code =>
      cases held
      obtain ⟨unseen, e', child, rfl⟩ := tells
      cases (agrees.child_of_unseen sound unseen).unique child
      exact ⟨_, _, rfl⟩
    | releasing id q code =>
      cases agrees.code tells
      exact ⟨_, _, rfl⟩
    | _ => cases held
  failed lost {u id q} place := by
    have tells := guarded.tells place
    obtain ⟨born, -⟩ := sound.holds ⟨_, place, rfl⟩
    cases agrees.born.symm.trans born
    have ended := (agrees.child_of_unseen sound tells).ending?_eq_some.mpr rfl
    simp only [LocalController.step?, LocalController.seen?, ended, Option.map_some,
      reportedCode_of_not_reportable lost]

/-! ## Lost exits -/

/-- No exit is recorded, and nobody has the child or will find it. -/
structure Lost (c : LocalInterleaving) : Prop where
  missing : c.controller.Missing
  free : ∀ u pid, ¬ c.Holds u pid

/-- Who has taken the child and fails has lost the exit. -/
theorem Turn.lost (turn : c.Turn u d) (sound : c.Sound) (guarded : c.Guarded) {id : String}
    (place : c.stages u = some (.awaiting id pid)) {error : ControllerError}
    (failed : d.stages u = some (.finished (.error error)))
    (controller : d.controller = c.controller) : d.Lost := by
  have unseen : c.controller.init.exit = none := guarded.tells place
  obtain ⟨born, taken⟩ := sound.holds ⟨_, place, rfl⟩
  refine ⟨controller ▸ ⟨by rw [born]; exact nofun, taken, unseen⟩, fun v q holds => ?_⟩
  obtain ⟨s, there, held⟩ := holds
  by_cases own : v = u
  · subst own
    cases failed.symm.trans there
    cases held
  · rw [turn.stages_other own] at there
    exact own (guarded.alone ⟨_, place, rfl⟩ ⟨s, there, held⟩)

/-- Nobody records a lost exit. -/
theorem Reachable.lost (reachable : Reachable c d) (sound : c.Sound) (lost : c.Lost) : d.Lost := by
  induction reachable with
  | refl => exact lost
  | pass _ _ ih => exact ⟨⟨ih.missing.pid, ih.missing.child, ih.missing.exit⟩, ih.free⟩
  | @turn c d u reachable turn ih =>
    have later := turn.later (reachable.sound sound)
    have missing : d.controller.Missing := by
      obtain ⟨pid, born⟩ := Option.ne_none_iff_exists'.mp ih.missing.pid
      refine ⟨by rw [later.pid born]; exact nofun, later.taken ih.missing.pid ih.missing.child, ?_⟩
      rcases turn.exit_eq with same | ⟨s, code, place, writes, -⟩
      · exact same.trans ih.missing.exit
      · cases s with
        | recording id pid => exact absurd ⟨_, place, rfl⟩ (ih.free u pid)
        | begin call =>
          cases call with
          | delete id =>
            obtain ⟨-, child, -, -, held, -⟩ := LocalController.written?_delete writes
            exact nomatch ih.missing.child.symm.trans held
          | _ => cases writes
        | _ => cases writes
    refine ⟨missing, fun v pid ⟨s, there, held⟩ => ?_⟩
    by_cases own : v = u
    · subst own
      cases turn with
      | work place step =>
        cases (stages_setStage ..).symm.trans there
        rcases (LocalController.work_of_step? step).held held with had | found
        · exact ih.free v pid ⟨_, place, had⟩
        · exact nomatch ih.missing.child.symm.trans found
      | _ =>
        cases (stages_setStage ..).symm.trans there
        try cases held
    · rw [turn.stages_other own] at there
      exact ih.free v pid ⟨s, there, held⟩

/-- Where an exit is lost, waits find no process, and deletes find one that has not ended. -/
theorem Lost.refuses (lost : c.Lost) (id : String) :
    c.controller.step? (.arriving id) =
        some (c.controller, .finished (.error (.notFound id)), []) ∧
      c.controller.step? (.begin (.delete id)) =
        some (c.controller, .finished (.error (.stillRunning id)), []) := by
  obtain ⟨pid, born⟩ := Option.ne_none_iff_exists'.mp lost.missing.pid
  have live := LocalController.livePid?_eq_some.mpr ⟨born, lost.missing.exit⟩
  constructor
  · simp only [LocalController.step?, LocalController.takeChild, lost.missing.exit,
      lost.missing.child, Section.refuse, Section.follow]
  · simp only [LocalController.step?, LocalController.releaseInit, live, lost.missing.child,
      Section.refuse, Section.follow]

/-- **Exits do not depend on who sees them**, up to the signals that a waiter cannot report. The
init process of a controller has ended as `e`; whatever callers have done, and do from then on:

- The exit that is recorded is the code of `e`, and waits return no other code. A delete that finds
  the child in the slot records it, and a wait that comes after that returns it.
- If `e` is an exit or a standard signal, then the waiter that has the child goes on at each of its
  steps, up to its return with the code. So it is for all signals that have a name, with their exit
  codes.
- After any other signal, the waiter that has the child fails. From then on no exit is recorded;
  waits find no process, and the process cannot be deleted. -/
theorem exits_observed (launch : ExecOptions) {host : Host} (numbered : host.Numbered)
    (reachable : Reachable (fresh launch host) c) (born : c.controller.init.pid = some pid)
    (ended : c.controller.host.Child pid (.ended e)) :
    (∀ signal : Signal, e = .signaled signal.number →
      e.Reportable ∧ exitCodeOf e = signal.exitCode) ∧
    ∀ {d : LocalInterleaving}, Reachable c d →
      d.Observed e ∧
      (¬ e.Reportable → ∀ {u : Caller} {id : String} {d' : LocalInterleaving},
        d.stages u = some (.awaiting id pid) → d.Turn u d' →
        (∃ error, d'.stages u = some (.finished (.error error))) ∧
        ∀ {d'' : LocalInterleaving}, Reachable d' d'' → d''.controller.init.exit = none ∧ ∀ id,
          d''.controller.step? (.arriving id) =
              some (d''.controller, .finished (.error (.notFound id)), []) ∧
            d''.controller.step? (.begin (.delete id)) =
              some (d''.controller, .finished (.error (.stillRunning id)), [])) := by
  have sound := reachable.sound (sound_fresh launch numbered)
  have guarded := reachable.guarded (sound_fresh launch numbered) (guarded_fresh launch host)
  have truthful := reachable.truthful (sound_fresh launch numbered) (guarded_fresh launch host)
    fun _ _ _ unborn => nomatch unborn
  have agrees : c.Agrees pid e := ⟨born, .inl ended, truthful pid e _ born ended⟩
  refine ⟨fun signal same => same ▸ signal.reportable, fun {d} later => ?_⟩
  have agrees := later.agrees sound guarded agrees
  have guarded := later.guarded sound guarded
  have sound := later.sound sound
  have observed := agrees.observed sound guarded
  refine ⟨observed, fun silent {u id d'} place turn => ?_⟩
  have fails : ∃ error, d'.stages u = some (.finished (.error error)) ∧
      d'.controller = d.controller := by
    cases turn with
    | call _ free | wait _ free => exact nomatch free.symm.trans place
    | leave past => exact nomatch past.symm.trans place
    | fault error => exact ⟨error, stages_setStage .., rfl⟩
    | work here step =>
      cases here.symm.trans place
      cases step.symm.trans (observed.failed silent place)
      exact ⟨_, stages_setStage .., rfl⟩
  obtain ⟨error, failed, controller⟩ := fails
  refine ⟨⟨error, failed⟩, fun {d''} after => ?_⟩
  have lost := after.lost (sound.turn turn) (turn.lost sound guarded place failed controller)
  exact ⟨lost.missing.exit, lost.refuses⟩

/-- `/bin/true` is started, and a signal is sent to it. -/
private theorem signalled_true {number : Nat} {host : Host}
    (sent : LocalController.ofTrue.host.signal 100 true number = .ok host) :
    ∃ c, Reachable (fresh { args := ["/bin/true"] } {}) c ∧
      c.controller = { LocalController.ofTrue with host } ∧ c.stages 1 = none ∧
      c.stages 2 = none := by
  obtain ⟨c, started, known, -, -, free⟩ := exists_startedTrue
  have evolves : c.controller.host.Evolves host := by
    rw [known]
    exact Host.evolves_signal sent
  exact ⟨_, started.pass evolves, congrArg ({ · with host }) known, free 1 (by decide),
    free 2 (by decide)⟩

theorem exits_observed_terminated :
    ∃ c d, Reachable (fresh { args := ["/bin/true"] } {}) c ∧ Reachable c d ∧
      c.controller.host.Child 100 (.ended (.signaled 15)) ∧
      c.stages 1 = some (.awaiting "web" 100) ∧
      d.stages 1 = some (.finished (.ok (.code Signal.terminate.exitCode))) ∧
      d.controller.init.exit = some Signal.terminate.exitCode := by
  obtain ⟨host, sent, child⟩ : ∃ host, LocalController.ofTrue.host.signal 100 true 15 = .ok host ∧
      host.Child 100 (.ended (.signaled 15)) := ⟨_, rfl, _, rfl, rfl, rfl⟩
  obtain ⟨c, signalled, controller, free, -⟩ := signalled_true sent
  have step : c.controller.step? (.arriving "web") = some ({ LocalController.ofTrue with
      host, init := { pid := some 100 } }, .awaiting "web" 100, []) := by
    rw [controller]
    rfl
  have taken := (signalled.turn 1 (.wait "web" free)).turn 1 (.work (stages_setStage ..) step)
  obtain ⟨named, observed⟩ := exits_observed _ Host.numbered_empty taken rfl child
  obtain ⟨reportable, code⟩ := named .terminate rfl
  obtain ⟨_, _, sees⟩ := (observed .refl).1.waited reportable (stages_setStage ..) rfl
  have seen := Reachable.refl.turn 1 (.work (stages_setStage ..) sees)
  have recorded := seen.turn 1 (.work (stages_setStage ..) rfl)
  have returned := recorded.turn 1 (.work (stages_setStage ..) rfl)
  exact ⟨_, _, taken, returned, child, stages_setStage .., by rw [← code]; rfl,
    by rw [← code]; rfl⟩

/-- A signal beyond the standard ones ends `/bin/true`. A caller that waits for it fails and records
nothing; after a delete that comes first, the same wait returns the code. -/
theorem observers_disagree :
    ∃ c d, Reachable (fresh { args := ["/bin/true"] } {}) c ∧
      Reachable (fresh { args := ["/bin/true"] } {}) d ∧
      c.controller.host.Child 100 (.ended (.signaled 34)) ∧
      c.stages 1 = some (.finished (.error (.io "EINVAL: Invalid argument"))) ∧
      c.controller.init.exit = none ∧
      d.stages 1 = some (.finished (.ok (.code 162))) ∧ d.controller.init.exit = some 162 := by
  obtain ⟨host, sent, child⟩ : ∃ host, LocalController.ofTrue.host.signal 100 true 34 = .ok host ∧
      host.Child 100 (.ended (.signaled 34)) := ⟨_, rfl, _, rfl, rfl, rfl⟩
  have ended := child.ending?_eq_some.mpr rfl
  obtain ⟨c, signalled, controller, free, free'⟩ := signalled_true sent
  have takes : c.controller.step? (.arriving "web") = some ({ LocalController.ofTrue with
      host, init := { pid := some 100 } }, .awaiting "web" 100, []) := by
    rw [controller]
    rfl
  have fails : LocalController.step? { LocalController.ofTrue with
        host, init := { pid := some 100 } } (.awaiting "web" 100) =
      some ({ LocalController.ofTrue with host, init := { pid := some 100 } },
        .finished (.error (.io "EINVAL: Invalid argument")), []) := by
    simp only [LocalController.step?, LocalController.seen?, ended]
    rfl
  have releases : c.controller.step? (.begin (.delete "web")) = some ({ LocalController.ofTrue with
      host := host.reap 100, init := { pid := some 100, exit := some 162 } },
      .draining "web", []) := by
    simp only [controller, LocalController.step?, LocalController.releaseInit,
      LocalController.livePid?, LocalController.ofTrue, ended]
    rfl
  have taken := (signalled.turn 1 (.wait "web" free)).turn 1 (.work (stages_setStage ..) takes)
  have failed := taken.turn 1 (.work (stages_setStage ..) fails)
  have deleted := (signalled.turn 2 (.call (.delete "web") free')).turn 2
    (.work (stages_setStage ..) releases)
  have waited := (deleted.turn 1 (.wait "web" free)).turn 1 (.work (stages_setStage ..) rfl)
  exact ⟨_, _, failed, waited, child, stages_setStage .., rfl, stages_setStage .., rfl⟩

end LocalInterleaving

end ContainerInit
