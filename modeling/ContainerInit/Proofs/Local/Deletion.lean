import ContainerInit.Proofs.Interleaving.Calls
import ContainerInit.Proofs.Local.Joint

/-!
# Nothing outlives a deletion

Whatever callers of an init process over a local controller do: once the process is deleted, its
init process has ended or was never started, every session has ended and is gone, and nothing is
started any more (`deleted_for_good`).

- **Starting** (`LocalStage.spawns`): the two sections that start a process. All others add no child
  to the host (`Turn.starts`), and cannot undo that everything is cleared (`Work.cleared`).
- **Account** (`Reachable.account`): a child of the host was there before the controller, or the
  controller has reported it. So what holds of the processes reported holds of the host's.
- **One operation at a time** (`Sound.quiet`): while a deletion is under way or done, no call of the
  controller is at a stage that starts a process, since that would be a call of another operation.
- **Invariant** (`Joint.Clears`): a deletion clears everything before it is committed.
-/

namespace ContainerInit

open Host (Life)

/-- A deleted process delegates nothing. -/
theorem State.dispatch_deleted (o : Operation) (dispatch : Dispatch) :
    State.deleted.dispatch o ≠ .ok dispatch := by
  cases o <;> exact nofun

/-- The next section starts a process, if it succeeds. -/
def LocalStage.spawns : LocalStage → Bool
  | .begin (.start _) | .opening .. => true
  | _ => false

/-! ## Sections that start nothing -/

namespace LocalController

variable {c c' : LocalController} {s s' : LocalStage} {ns : List Notice}

/-- There is no live init process, and no session. -/
def Cleared (c : LocalController) : Prop := c.livePid? = none ∧ c.sessions = []

theorem livePid?_eq_none : c.livePid? = none ↔ c.init.pid = none ∨ c.init.exit ≠ none := by
  cases born : c.init.pid <;> cases exit : c.init.exit <;> simp [livePid?, born, exit]

namespace Work

variable (work : Work c s c' s' ns) (quiet : s.spawns = false)

include work quiet

theorem past (tidy : c.Tidy) (past : c.livePid? = none) : c'.livePid? = none := by
  refine livePid?_eq_none.mpr ((livePid?_eq_none.mp past).imp (fun unborn => ?_)
    (work.later tidy).exit)
  cases work with
  | start => cases quiet
  | _ => exact unborn

theorem cleared (tidy : c.Tidy) (cleared : c.Cleared) : c'.Cleared := by
  refine ⟨work.past quiet tidy cleared.1, ?_⟩
  cases work with
  | join => cases quiet
  | drain => rfl
  | _ => exact cleared.2

end Work

/-- A deletion of the controller succeeds at the end of the sessions only. -/
theorem Work.drained {id : String} {yield : Yield}
    (work : Work c s c' (.finished (.ok yield)) ns) (serves : s.Serves (.delete id)) :
    s = .draining id ∧ c'.sessions = [] := by
  cases work with
  | drain => cases serves; exact ⟨rfl, rfl⟩
  | send sends => cases serves; cases sends
  | _ => cases serves

theorem Work.draining {id : String} (work : Work c s c' (.draining id) ns) :
    c'.livePid? = none := by
  cases work with
  | forget past => exact past
  | release => exact livePid?_of_exit nofun

end LocalController

/-! ## Deletions -/

namespace Interleaving

variable {c d : Interleaving} {u : Caller}

/-- The process is deleted, or a deletion is to be committed. -/
def Doomed (c : Interleaving) : Prop :=
  c.slot.state = .deleted ∨
    ∃ f r a source, c.Pending f ∧ f.stage = .committing r a source .deleted

/-- A process is deleted by a commit, and a deletion is committed once the controller returns. -/
theorem Move.doomed (numbered : c.Numbered) (m : Move c u d) (doomed : d.Doomed) :
    c.Doomed ∨ ∃ f outer r call source a, c.frames u = f :: outer ∧
      f.stage = .performing r call source (some .deleted) ∧
      d.history = c.history ++ [.answered f.number call (.ok a)] := by
  cases m with
  | lock => exact .inl doomed
  | begin action free =>
    refine .inl (doomed.imp_right ?_)
    rintro ⟨f, r, a, source, pending, stage⟩
    refine ⟨f, r, a, source, ((pending_begin rfl).mp pending).resolve_left ?_, stage⟩
    rintro rfl
    cases action with
    | request | exited => cases stage
    | query q => cases q <;> cases stage
  | finish top stage =>
    refine .inl (doomed.imp_right ?_)
    rintro ⟨f, r, a, source, pending, stage⟩
    exact ⟨f, r, a, source, ((numbered.pending_drop top rfl).mp pending).1, stage⟩
  | @turn f outer stage slot holder slotHolder marks top turn lock =>
    rcases doomed with deleted | ⟨g, r, a, source, pending, committing⟩
    · have deleted : slot.state = .deleted := deleted
      generalize hs : f.stage = s at turn
      cases turn with
      | @install r a source target =>
        cases deleted
        exact .inl (.inr ⟨f, r, a, source, .head top, hs⟩)
      | claim | claimFrozen | stop => cases deleted
      | _ => exact .inl (.inl deleted)
    · rcases (numbered.pending_swap top rfl).mp pending with rfl | ⟨pending, -⟩
      · have committing : stage = .committing r a source .deleted := committing
        generalize hs : f.stage = s at turn
        cases turn with
        | @succeedTo r call source target a =>
          cases committing
          exact .inr ⟨f, outer, r, call, source, a, top, hs, rfl⟩
        | _ => cases committing
      · exact .inl (.inr ⟨g, r, a, source, pending, committing⟩)

/-- What the controller returned is what the history says. -/
theorem outcome_of_finish {outcome outcome' : Except ControllerError Answer}
    (taken : c.step? u (.finish outcome) = some d) {f : Frame} {outer : List Frame} {r : Request}
    {call : Call} {source : State} {next : Option State} (top : c.frames u = f :: outer)
    (stage : f.stage = .performing r call source next)
    (told : d.history = c.history ++ [.answered f.number call outcome']) : outcome = outcome' := by
  simp only [step?, top, stage, conclude, Option.some.injEq] at taken
  cases taken
  cases List.append_cancel_left told
  rfl

end Interleaving

namespace LocalInterleaving

variable {c d : LocalInterleaving} {u : Caller}

/-- Nothing is started, and what is cleared stays cleared. -/
structure Calm (c d : LocalInterleaving) : Prop where
  gains : c.Gains d [] []
  past : c.controller.livePid? = none → d.controller.livePid? = none
  cleared : c.controller.Cleared → d.controller.Cleared

theorem Calm.refl (c : LocalInterleaving) : c.Calm c := ⟨.nothing rfl rfl rfl, id, id⟩

theorem Turn.calm (sound : c.Sound) (quiet : ∀ s, c.stages u = some s → s.spawns = false)
    (turn : c.Turn u d) : c.Calm d := by
  have gains : c.Gains d [] [] := by
    cases turn.starts sound with
    | nothing gains => exact gains
    | init place | session place => cases quiet _ place
  cases turn with
  | work place step =>
    have work := LocalController.work_of_step? step
    have still := quiet _ place
    exact ⟨gains, work.past still sound.tidy, work.cleared still sound.tidy⟩
  | _ => exact ⟨gains, id, id⟩

end LocalInterleaving

namespace Joint

variable {c d : Joint}

/-- A deletion is under way or done. -/
inductive Deleting (c : Joint) : Prop
  | doomed (doomed : c.process.Doomed)
  | performing {u : Caller} {f : Frame} {outer : List Frame} {r : Request} {id : String}
    {source : State} {next : Option State} (top : c.process.frames u = f :: outer)
    (stage : f.stage = .performing r (.delete id) source next)

/-- **Nothing is started while a deletion is under way or done.** -/
theorem Sound.quiet (sound : c.Sound) (deleting : c.Deleting) {u : Caller} {s : LocalStage}
    (place : c.under.stages u = some s) : s.spawns = false := by
  refine Bool.eq_false_iff.mpr fun spawns => ?_
  rcases sound.serves place with ⟨f, outer, call, top, asks, serves⟩ | ⟨-, wait⟩
  · have pending := Interleaving.Pending.head top
    -- What is started is started by an operation other than a deletion.
    obtain ⟨r, source, next, stage, other⟩ : ∃ r source next,
        f.stage = .performing r call source next ∧ ∀ id, call ≠ .delete id := by
      have other : ∀ id, call ≠ .delete id ∧ call ≠ .resume id := by
        cases s with
        | begin c =>
          cases serves
          cases call with
          | start => exact fun _ => ⟨nofun, nofun⟩
          | _ => cases spawns
        | opening => cases serves; exact fun _ => ⟨nofun, nofun⟩
        | _ => cases spawns
      cases hs : f.stage with
      | performing r call' source next =>
        rw [hs] at asks
        cases asks
        exact ⟨r, source, next, rfl, fun id => (other id).1⟩
      | resuming => rw [hs] at asks; cases asks; exact absurd rfl (other _).2
      | _ => rw [hs] at asks; cases asks
    have exclusive : f.stage.isExclusive = true := by rw [stage]; rfl
    rcases deleting with (deleted | ⟨g, _, _, _, there, committing⟩) | ⟨elsewhere, performing⟩
    · have suits := sound.process.suits pending
      rw [stage] at suits
      have dispatched : f.stage.source? = some source := by rw [stage]; rfl
      rcases sound.process.source pending dispatched with same | stopped
      · exact State.dispatch_deleted _ _ ((deleted.symm.trans same) ▸ suits.2.1)
      · exact nomatch deleted.symm.trans stopped
    · have same := sound.process.alone pending there exclusive (by rw [committing]; rfl)
      cases sound.process.numbered.pending_eq pending there same
      exact nomatch stage.symm.trans committing
    · have there := Interleaving.Pending.head elsewhere
      have same := sound.process.alone pending there exclusive (by rw [performing]; rfl)
      cases sound.process.numbered.pending_eq pending there same
      cases stage.symm.trans performing
      exact other _ rfl
  · cases s <;> first | exact False.elim wait | cases spawns

theorem Sound.gains (sound : c.Sound) (step : c.Step d) :
    ∃ init session, c.under.Gains d.under init session := by
  rcases step.under with same | ⟨u, turn⟩ | ⟨host, proceeds, same⟩
  · exact ⟨[], [], same ▸ .nothing rfl rfl rfl⟩
  · exact (turn.starts sound.under).gains
  · exact ⟨[], [], same ▸ .nothing proceeds.children rfl rfl⟩

theorem Sound.calm (sound : c.Sound) (deleting : c.Deleting) (step : c.Step d) :
    c.under.Calm d.under := by
  rcases step.under with same | ⟨u, turn⟩ | ⟨host, proceeds, same⟩
  · exact same ▸ .refl _
  · exact turn.calm sound.under fun s place => sound.quiet deleting place
  · exact same ▸ ⟨.nothing proceeds.children rfl rfl, id, id⟩

/-! ## The invariant -/

/-- A deletion clears everything before it is committed. -/
structure Clears (c : Joint) : Prop where
  /-- The sessions are ended only where there is no live init process. -/
  draining : ∀ {u : Caller} {id : String}, c.under.stages u = some (.draining id) →
    c.under.controller.livePid? = none
  drained : ∀ {u : Caller} {f : Frame} {outer : List Frame} {r : Request} {id : String}
    {source : State} {next : Option State} {yield : Yield}, c.process.frames u = f :: outer →
    f.stage = .performing r (.delete id) source next →
    c.under.stages u = some (.finished (.ok yield)) → c.under.controller.Cleared
  doomed : c.process.Doomed → c.under.controller.Cleared

theorem clears_fresh (id : String) (moments : Nat → Moment) (launch : ExecOptions) (host : Host) :
    (fresh id moments launch host).Clears := by
  refine ⟨nofun, nofun, ?_⟩
  rintro (deleted | ⟨f, _, _, _, ⟨u, mem⟩, -⟩)
  · cases deleted
  · cases mem

/-- The end of the sessions is reached from a stage where there is no live init process. -/
theorem Sound.deleting_of_draining (sound : c.Sound) {u : Caller} {id : String}
    (place : c.under.stages u = some (.draining id)) : c.Deleting := by
  rcases sound.serves place with ⟨f, outer, call, top, asks, rfl⟩ | ⟨-, ⟨⟩⟩
  cases stage : f.stage with
  | performing r call source next =>
    rw [stage] at asks
    cases asks
    exact .performing top stage
  | resuming => rw [stage] at asks; cases asks
  | _ => rw [stage] at asks; cases asks

/-- Whose deletion is committed. -/
theorem Sound.delete_of_performing (sound : c.Sound) {f : Frame} {r : Request} {call : Call}
    {source : State} (pending : c.process.Pending f)
    (stage : f.stage = .performing r call source (some .deleted)) :
    ∃ id, call = .delete id := by
  have suits := sound.process.suits pending
  rw [stage] at suits
  obtain ⟨-, dispatched, asks⟩ := suits
  rcases Operation.start_or_delete dispatched with ⟨-, -, other⟩ | ⟨delete, -⟩
  · cases other
  · cases r <;> cases delete
    cases asks
    exact ⟨_, rfl⟩

theorem Clears.draining_step (clears : c.Clears) (sound : c.Sound) (step : c.Step d) {u : Caller}
    {id : String} (place : d.under.stages u = some (.draining id)) :
    d.under.controller.livePid? = none := by
  by_cases before : c.under.stages u = some (.draining id)
  · exact (sound.calm (sound.deleting_of_draining before) step).past (clears.draining before)
  · rcases step.under with same | ⟨v, turn⟩ | ⟨host, -, same⟩
    · rw [same] at place
      exact absurd place before
    · by_cases here : u = v
      · subst here
        generalize d.under = under at turn place
        cases turn with
        | work _ step =>
          cases (LocalInterleaving.stages_setStage ..).symm.trans place
          exact (LocalController.work_of_step? step).draining
        | _ => cases (LocalInterleaving.stages_setStage ..).symm.trans place
      · exact absurd ((turn.stages_other here).symm.trans place) before
    · rw [same] at place
      exact absurd place before

/-- The last section of a deletion clears what is left. -/
theorem Clears.drained_turn (clears : c.Clears) (sound : c.Sound) {under : LocalInterleaving}
    {u : Caller} {s : LocalStage} {f : Frame} {outer : List Frame} {r : Request} {id : String}
    {source : State} {next : Option State} {yield : Yield} (turn : c.under.Turn u under)
    (before : c.under.stages u = some s) (top : c.process.frames u = f :: outer)
    (stage : f.stage = .performing r (.delete id) source next)
    (place : under.stages u = some (.finished (.ok yield))) : under.controller.Cleared := by
  have serves : s.Serves (.delete id) := by
    rcases sound.serves before with ⟨f', outer', call, top', asks, serves⟩ | ⟨free, -⟩
    · cases top.symm.trans top'
      rw [stage] at asks
      cases asks
      exact serves
    · exact nomatch free.symm.trans top
  cases turn with
  | work here step =>
    cases here.symm.trans before
    cases (LocalInterleaving.stages_setStage ..).symm.trans place
    have work := LocalController.work_of_step? step
    obtain ⟨rfl, drained⟩ := work.drained serves
    exact ⟨work.past rfl sound.under.tidy (clears.draining before), drained⟩
  | call _ free | wait _ free => exact nomatch free.symm.trans before
  | _ => cases (LocalInterleaving.stages_setStage ..).symm.trans place

theorem Clears.drained_step (clears : c.Clears) (sound : c.Sound) (step : c.Step d) {u : Caller}
    {f : Frame} {outer : List Frame} {r : Request} {id : String} {source : State}
    {next : Option State} {yield : Yield} (top : d.process.frames u = f :: outer)
    (stage : f.stage = .performing r (.delete id) source next)
    (place : d.under.stages u = some (.finished (.ok yield))) :
    d.under.controller.Cleared := by
  -- Where the call was at this stage before the step, it has cleared everything before it.
  have old (top : c.process.frames u = f :: outer)
      (place : c.under.stages u = some (.finished (.ok yield))) : d.under.controller.Cleared :=
    (sound.calm (.performing top stage) step).cleared (clears.drained top stage place)
  cases step with
  | @act v choice process idle own taken =>
    by_cases here : u = v
    · subst here
      exact nomatch idle.symm.trans place
    · exact old ((Interleaving.frames_of_step? taken here).symm.trans top) place
  | @answer v outcome process past taken =>
    by_cases here : u = v
    · subst here
      cases (LocalInterleaving.stages_setStage ..).symm.trans place
    · exact old ((Interleaving.frames_of_step? taken here).symm.trans top)
        ((if_neg here).symm.trans place)
  | @work v before after under turn was is =>
    by_cases here : u = v
    · subst here
      exact clears.drained_turn sound turn was top stage place
    · exact old top ((turn.stages_other here).symm.trans place)
  | @consult v | @wait v | @leave v =>
    by_cases here : u = v
    · subst here
      cases (LocalInterleaving.stages_setStage ..).symm.trans place
    · exact old top ((if_neg here).symm.trans place)
  | pass => exact old top place

theorem Clears.doomed_step (clears : c.Clears) (sound : c.Sound) (step : c.Step d)
    (doomed : d.process.Doomed) : d.under.controller.Cleared := by
  have old (before : c.process.Doomed) : d.under.controller.Cleared :=
    (sound.calm (.doomed before) step).cleared (clears.doomed before)
  cases step with
  | @act u choice process idle own taken =>
    rcases (sound.process.move taken).doomed sound.process.numbered doomed with
      before | ⟨f, outer, r, call, source, a, top, stage, -⟩
    · exact old before
    · have performing : f.stage.isPerforming = true := by rw [stage]; rfl
      exact nomatch performing.symm.trans (own f outer top)
  | @answer u outcome process past taken =>
    rcases (sound.process.move taken).doomed sound.process.numbered doomed with
      before | ⟨f, outer, r, call, source, a, top, stage, told⟩
    · exact old before
    · obtain ⟨id, rfl⟩ := sound.delete_of_performing (.head top) stage
      cases Interleaving.outcome_of_finish taken top stage told
      exact clears.drained top stage past
  | _ => exact old doomed

/-- **Every step of a deletion clears before it commits.** -/
theorem Clears.step (clears : c.Clears) (sound : c.Sound) (step : c.Step d) : d.Clears :=
  ⟨clears.draining_step sound step, clears.drained_step sound step, clears.doomed_step sound step⟩

theorem Reachable.clears {start : Joint} (reachable : Reachable start c) (sound : start.Sound)
    (clears : start.Clears) : c.Clears := by
  induction reachable with
  | refl => exact clears
  | step reachable step ih => exact ih.step (reachable.sound sound) step

/-- **The children of the host are those that it had before and those that the controller has
reported.** -/
theorem Reachable.account {start : Joint} (reachable : Reachable start c) (sound : start.Sound)
    {base : List Nat} (account : start.under.controller.host.children.Perm
      (base ++ start.under.initPids ++ start.under.sessionPids)) :
    c.under.controller.host.children.Perm (base ++ c.under.initPids ++ c.under.sessionPids) := by
  induction reachable with
  | refl => exact account
  | step reachable step ih =>
    obtain ⟨init, session, gains⟩ := (reachable.sound sound).gains step
    exact gains.account ih

/-- From a deletion on, nothing is started. -/
theorem Reachable.calm (reachable : Reachable c d) (sound : c.Sound)
    (deleted : c.process.slot.state = .deleted) :
    d.process.slot.state = .deleted ∧
      d.under.controller.host.children = c.under.controller.host.children ∧
      d.under.initPids = c.under.initPids ∧ d.under.sessionPids = c.under.sessionPids := by
  induction reachable with
  | refl => exact ⟨deleted, rfl, rfl, rfl⟩
  | @step d e reachable step ih =>
    obtain ⟨deleted, children, init, session⟩ := ih
    have there := reachable.sound sound
    have calm := there.calm (.doomed (.inl deleted)) step
    obtain ⟨children', init', session'⟩ := calm.gains.unchanged
    refine ⟨?_, children'.trans children, init'.trans init, session'.trans session⟩
    rcases step.process with same | ⟨u, choice, taken⟩
    · rw [same]
      exact deleted
    · have le := there.process.state_le ((there.process.move taken).change there.process.numbered)
      exact State.eq_deleted_of_le (deleted ▸ le)

/-- Once the process is deleted, an init process that was started has ended. -/
theorem Sound.ended_of_past (sound : c.Sound) (past : c.under.controller.livePid? = none)
    {pid : Nat} (born : c.under.controller.init.pid = some pid) :
    ∃ l, c.under.controller.host.Child pid l ∧ l ≠ .alive := by
  obtain ⟨l, child, -, ended⟩ := sound.under.tidy.init born
  have exit : c.under.controller.init.exit ≠ none :=
    (LocalController.livePid?_eq_none.mp past).resolve_left (by rw [born]; exact nofun)
  exact ⟨l, child, ended exit⟩

/-- A session that is no longer kept is gone. -/
theorem Sound.reaped_of_cleared (sound : c.Sound) (sessions : c.under.controller.sessions = [])
    {pid : Nat} (mem : pid ∈ c.under.sessionPids) :
    c.under.controller.host.Child pid .reaped := by
  refine (sound.under.sessionPids pid mem).resolve_left ?_
  rw [sessions]
  exact List.not_mem_nil

/-- **Nothing outlives a deletion.** Whatever callers of a new process over a new local controller
do, wrong reports of exits and waits included: once the process is deleted,

- each process of the host that was started by the controller is one that the host began with, or
  the init process, which has ended, or it is gone,
- for all that the host was asked to start was reported,
- namely at most one init process, which has ended, and sessions, all of which have ended and are
  gone, and none is kept,
- and nothing is started from then on. -/
theorem deleted_for_good {id : String} {moments : Nat → Moment} {launch : ExecOptions} {host : Host}
    (numbered : host.Numbered) (reachable : Reachable (fresh id moments launch host) c)
    (deleted : c.process.slot.state = .deleted) :
    (∀ p ∈ c.under.controller.host.processes, p.parent = Host.selfPid →
      p.pid ∈ host.children ∨ p.life = .reaped ∨
        c.under.controller.init.pid = some p.pid ∧ p.life ≠ .alive) ∧
    c.under.controller.host.children.Perm
      (host.children ++ c.under.initPids ++ c.under.sessionPids) ∧
    (c.under.initPids = [] ∨ ∃ pid l, c.under.initPids = [pid] ∧
      c.under.controller.host.Child pid l ∧ l ≠ .alive) ∧
    (∀ pid ∈ c.under.sessionPids, c.under.controller.host.Child pid .reaped) ∧
    c.under.controller.sessions = [] ∧
    ∀ {d : Joint}, Reachable c d →
      d.under.controller.host.children = c.under.controller.host.children ∧
      d.under.initPids = c.under.initPids ∧ d.under.sessionPids = c.under.sessionPids := by
  have new := sound_fresh id moments launch numbered
  have sound := reachable.sound new
  obtain ⟨past, sessions⟩ :=
    (reachable.clears new (clears_fresh id moments launch host)).doomed (.inl deleted)
  have known := sound.under.initPids
  have before : host.children.Perm (host.children ++ [] ++ []) :=
    .of_eq ((List.append_nil _).symm.trans (List.append_nil _).symm)
  have account := reachable.account new before
  refine ⟨fun p mem own => ?_, account, ?_, fun pid mem => sound.reaped_of_cleared sessions mem,
    sessions, fun later => (later.calm sound deleted).2⟩
  · have child := sound.under.tidy.numbered.child mem own
    have counted := account.mem_iff.mp (Host.mem_children mem own)
    rw [List.mem_append, List.mem_append, known, Option.mem_toList] at counted
    rcases counted with (old | born) | session
    · exact .inl old
    · obtain ⟨l, there, ended⟩ := sound.ended_of_past past born
      exact .inr (.inr ⟨born, child.unique there ▸ ended⟩)
    · exact .inr (.inl (child.unique (sound.reaped_of_cleared sessions session)))
  · rw [known]
    cases born : c.under.controller.init.pid with
    | none => exact .inl rfl
    | some pid =>
      obtain ⟨l, child, ended⟩ := sound.ended_of_past past born
      exact .inr ⟨pid, l, rfl, child, ended⟩

end Joint

namespace LocalController

/-- A controller that has started `/bin/true`, and a session of `/bin/true` beside it. -/
def ofTrueBeside : LocalController :=
  { ofTrue with
    sessions := [("sh", 101)]
    host := ofTrue.host.add
      { pid := 101, parent := Host.selfPid, group := Host.selfPid, program := .exit 0 } }

theorem private_ofTrueBeside : ofTrueBeside.host.Private :=
  Host.private_of_exit (List.forall_mem_cons.mpr
    ⟨⟨rfl, by decide⟩, List.forall_mem_singleton.mpr ⟨rfl, by decide⟩⟩)

end LocalController

namespace Joint

/-- A request, up to where the controller is called for it. -/
def upToCall (r : Request) : List Choice := [.act (.request r), .go, .go, .go, .go]

/-- `/bin/true` is started with a session of `/bin/true` beside it. It ends before the session does,
and is deleted. -/
theorem deleted_for_good_outlivedSession :
    ∃ c, Reachable (fresh "web" (fun _ => Moment.ofMillis 0) { args := ["/bin/true"] } {}) c ∧
      c.process.slot.state = .deleted ∧ c.under.controller.host.children = [100, 101] ∧
      c.under.initPids = [100] ∧ c.under.sessionPids = [101] ∧
      c.under.controller.host.Child 101 .reaped := by
  obtain ⟨p₁, p₂, p₃, p₄, p₅, p₆, p₇, begun, start, started, running, exec, entered, ended, delete,
      cleared, committed, deleted⟩ : ∃ p₁ p₂ p₃ p₄ p₅ p₆ p₇,
      (Interleaving.initial "web" .created fun _ => Moment.ofMillis 0).acts? 0 (upToCall .start) =
        some p₁ ∧
      (p₁.frames 0).head?.bind (·.stage.call? p₁.id) = some (.start "web") ∧
      p₁.step? 0 (.finish (.ok .done)) = some p₂ ∧
      p₂.acts? 0 ([.go, .go, .go, .go, .go] ++ upToCall (.exec "sh" { args := ["/bin/true"] })) =
        some p₃ ∧
      (p₃.frames 0).head?.bind (·.stage.call? p₃.id) =
        some (.exec "web" "sh" { args := ["/bin/true"] }) ∧
      p₃.step? 0 (.finish (.ok (.session ⟨"sh", some 101⟩))) = some p₄ ∧
      p₄.acts? 0 ([.go, .go, .act (.exited 0), .go, .go, .go, .go, .go] ++ upToCall .delete) =
        some p₅ ∧
      (p₅.frames 0).head?.bind (·.stage.call? p₅.id) = some (.delete "web") ∧
      p₅.step? 0 (.finish (.ok .done)) = some p₆ ∧
      p₆.acts? 0 [.go, .go] = some p₇ ∧ p₇.slot.state = .deleted :=
    ⟨_, _, _, _, _, _, _, rfl, rfl, rfl, rfl, rfl, rfl, rfl, rfl, rfl, rfl, rfl⟩
  have spawned : LocalController.call { launch := { args := ["/bin/true"] } } (.start "web") =
      ⟨.ok .done, .ofTrue, [.initSpawned "web" 100 ["/bin/true"]], []⟩ := by
    simp only [LocalController.call, LocalController.start, Host.launch_true]
    rfl
  have joined : LocalController.ofTrue.call (.exec "web" "sh" { args := ["/bin/true"] }) =
      ⟨.ok (.session ⟨"sh", some 101⟩), .ofTrueBeside, [.sessionSpawned "web" "sh" 101], []⟩ := by
    have live : LocalController.ofTrue.checkLive "web" = ⟨.ok (), .ofTrue, [], []⟩ := rfl
    have unused : LocalController.ofTrue.sessions.lookup "sh" = none := rfl
    simp only [LocalController.call, LocalController.chain, live, LocalController.openSession,
      unused, Host.launch_true]
    rfl
  -- The host runs `/bin/true` to its end, and the deletion ends the session.
  obtain ⟨host, controller, ticked, released, children⟩ : ∃ host controller,
      LocalController.ofTrueBeside.host.tick? = some host ∧
      ({ LocalController.ofTrueBeside with host } : LocalController).call (.delete "web") =
        ⟨.ok .done, controller, [.sessionOutlived "web" "sh", .initDeleted "web"], []⟩ ∧
      controller.host.children = [100, 101] :=
    ⟨_, _, rfl, rfl, rfl⟩
  have asked :
      Reachable (fresh "web" (fun _ => Moment.ofMillis 0) { args := ["/bin/true"] } {}) _ :=
    reachable_of_acts? rfl begun
  obtain ⟨_, one⟩ := asked.call spawned rfl start started
  obtain ⟨_, both⟩ := (one.trans (reachable_of_acts? rfl running)).call joined rfl exec entered
  have waiting := both.trans (reachable_of_acts? rfl ended)
  have numbered := (waiting.sound (sound_fresh _ _ _ Host.numbered_empty)).under.tidy.numbered
  have passed := waiting.step
    (.pass (Host.proceeds_tick numbered LocalController.private_ofTrueBeside ticked))
  obtain ⟨_, gone⟩ := passed.call released rfl delete cleared
  have last := gone.trans (reachable_of_acts? rfl committed)
  obtain ⟨-, -, -, sessions, -⟩ := deleted_for_good Host.numbered_empty last deleted
  exact ⟨_, last, deleted, children, rfl, rfl, sessions 101 List.mem_cons_self⟩

end Joint

end ContainerInit
