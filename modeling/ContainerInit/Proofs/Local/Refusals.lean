import ContainerInit.Proofs.Local.Custody

/-!
# Calls that fail

A call of a local controller checks several things, some of them in a section of its own, and fails
for one of them or because the system refuses. Whichever it is, the call has changed nothing by then
(`failures_change_nothing`).

- **Decisions** (`LocalStage.Undecided`, `LocalStage.Accepted`): up to the section that succeeds, a
  call changes nothing; after it, the call does not fail (`Work.undecided`, `Work.accepted`).
- **Courses** (`During`): one call among others, with what each of its own steps does.
- **Deletes** (`Undeletable`): the one reason for which a delete fails by itself.
- **Sessions** (`Obstacle`, `Opened`): what can be in the way of a session, in the order in which it
  is looked for, and what a session changes that is started.
-/

namespace ContainerInit

open Host (Life Ending)

/-! ## Decisions -/

namespace LocalStage

/-- A call at this stage may still fail. -/
def Undecided : LocalStage → Prop
  | .begin _ | .opening .. | .finished (.error _) => True
  | _ => False

/-- A call at this stage has done what it was asked, or has only the sessions left to end. -/
def Accepted : LocalStage → Prop
  | .draining _ | .finished (.ok _) => True
  | _ => False

end LocalStage

namespace LocalController

variable {c c' : LocalController} {s s' : LocalStage} {ns : List Notice} {id execId : String}
  {options : ExecOptions}

/-- Up to the section that succeeds, a call changes nothing. -/
theorem Work.undecided (work : Work c s c' s' ns) (early : s.Undecided) :
    c' = c ∧ s'.Undecided ∨ s'.Accepted := by
  cases work with
  | refuse | check => exact .inl ⟨rfl, trivial⟩
  | start | send | skip | forget | release | join => exact .inr trivial
  | _ => cases early

/-- A call does not fail after that. -/
theorem accepted_of_step? (past : s.Accepted) (step : c.step? s = some (c', s', ns)) :
    s'.Accepted := by
  cases s with
  | draining id => cases step; exact trivial
  | finished result => cases step
  | _ => cases past

/-- The system is asked for nothing after that. -/
theorem asksSystem_of_accepted (past : s.Accepted) : c.asksSystem s = false := by
  cases s with
  | draining | finished => rfl
  | _ => cases past

/-- A whole call that fails has changed nothing. -/
theorem Runs.refused {e : ControllerError} (runs : Runs c s c' s' ns)
    (early : s.Undecided) (failed : s' = .finished (.error e)) : c' = c := by
  have past : ∀ {c c' : LocalController} {s s' : LocalStage} {ns : List Notice},
      Runs c s c' s' ns → s.Accepted → s'.Accepted := by
    intro c c' s s' ns runs
    induction runs with
    | refl => exact id
    | step first _ ih => exact fun done => ih (accepted_of_step? done first)
  induction runs with
  | refl => rfl
  | step first rest ih =>
    rcases (work_of_step? first).undecided early with ⟨rfl, still⟩ | done
    · exact ih still failed
    · exact (failed ▸ past rest done).elim

/-! ## Deletes -/

/-- The init process was started and no exit is recorded. It is still alive, or its child is not in
the slot. -/
def Undeletable (c : LocalController) : Prop :=
  ∃ pid, c.init.pid = some pid ∧ c.init.exit = none ∧
    (c.init.child = some pid ∧ c.host.Child pid .alive ∨ c.init.child = none)

theorem step?_delete (tidy : c.Tidy) (id : String) :
    c.Undeletable ∧
        c.step? (.begin (.delete id)) = some (c, .finished (.error (.stillRunning id)), []) ∨
      ¬ c.Undeletable ∧ ∃ c', c.step? (.begin (.delete id)) = some (c', .draining id, []) := by
  cases live : c.livePid? with
  | none =>
    refine .inr ⟨fun ⟨pid, born, unseen, _⟩ => ?_,
      { c with init := { c.init with child := none } }, ?_⟩
    · cases live.symm.trans (livePid?_eq_some.mpr ⟨born, unseen⟩)
    · simp only [step?, releaseInit, live, Section.follow]
  | some pid =>
    obtain ⟨born, unseen⟩ := livePid?_eq_some.mp live
    cases held : c.init.child with
    | none =>
      refine .inl ⟨⟨pid, born, unseen, .inr held⟩, ?_⟩
      simp only [step?, releaseInit, live, held, Section.refuse, Section.follow]
    | some child =>
      cases born.symm.trans (tidy.slot held).1
      obtain ⟨l, there, gone, -⟩ := tidy.init born
      cases l with
      | alive =>
        have running : c.host.ending? pid = none := by
          cases ended : c.host.ending? pid with
          | none => rfl
          | some e => cases there.ending?_eq_some.mp ended
        refine .inl ⟨⟨pid, born, unseen, .inl ⟨held, there⟩⟩, ?_⟩
        simp only [step?, releaseInit, live, held, running, Section.refuse, Section.follow]
      | ended e =>
        refine .inr ⟨?_, { c with
          init := { c.init with exit := some (exitCodeOf e), child := none }
          host := c.host.reap pid }, ?_⟩
        · rintro ⟨q, known, -, ⟨-, alive⟩ | empty⟩
          · cases born.symm.trans known
            cases there.unique alive
          · cases held.symm.trans empty
        · simp only [step?, releaseInit, live, held, there.ending?_eq_some.mpr rfl, Section.follow]
      | reaped => exact absurd unseen (gone rfl)

end LocalController

/-! ## Sessions -/

/-- Why a command cannot be started: there is none, it wants a terminal, or the system cannot start
it; the first of these. -/
inductive Host.Hindrance (h : Host) (o : ExecOptions) (ownGroup : Bool) : ControllerError → Prop
  | empty (none : o.args = []) : Hindrance h o ownGroup (.spawnFailed "empty command")
  | terminal {program : String} {rest : List String} (args : o.args = program :: rest)
    (terminal : o.terminal = true) :
    Hindrance h o ownGroup (.unsupported "terminal sessions need a pty-backed controller")
  | fault {program : String} {rest : List String} {fault : SpawnFault}
    (args : o.args = program :: rest) (plain : o.terminal = false)
    (faulty : h.spawn o ownGroup = .error fault) :
    Hindrance h o ownGroup (.spawnFailed (program ++ ": " ++ fault.message))

/-- A command is started unless something hinders it. -/
theorem Host.launch_cases (h : Host) (o : ExecOptions) (ownGroup : Bool) :
    (∃ e, h.Hindrance o ownGroup e ∧ h.launch o ownGroup = .error e) ∨
      (∀ e, ¬ h.Hindrance o ownGroup e) ∧ ∃ pid host, h.launch o ownGroup = .ok (pid, host) := by
  cases args : o.args with
  | nil => exact .inl ⟨_, .empty args, by simp only [launch, args]⟩
  | cons program rest =>
    cases terminal : o.terminal with
    | true =>
      exact .inl ⟨_, .terminal args terminal, by simp only [launch, args, terminal, if_true]⟩
    | false =>
      cases spawned : h.spawn o ownGroup with
      | error fault =>
        refine .inl ⟨_, .fault args terminal spawned, ?_⟩
        simp only [launch, args, terminal, spawned, Bool.false_eq_true, if_false]
      | ok started =>
        refine .inr ⟨fun e hindrance => ?_, started.1, started.2, ?_⟩
        · cases hindrance with
          | empty none => cases args.symm.trans none
          | terminal _ wants => cases terminal.symm.trans wants
          | fault _ _ faulty => cases spawned.symm.trans faulty
        · simp only [launch, args, terminal, spawned, Bool.false_eq_true, if_false]

/-- The start of a command leaves every child as it is. -/
theorem Host.Child.of_launch {h h' : Host} {o : ExecOptions} {ownGroup : Bool} {pid q : Nat}
    {l : Life} (child : h.Child q l) (launched : h.launch o ownGroup = .ok (pid, h')) :
    h'.Child q l := by
  obtain ⟨p, -, rfl, -⟩ := launch_eq_ok launched
  obtain ⟨found, is, rest⟩ := child
  refine ⟨found, ?_, rest⟩
  have is : h.processes.find? (fun p => p.pid == q) = some found := is
  simp only [find?, add, List.find?_append, is, Option.some_or]

namespace LocalController

variable {c c' : LocalController} {id execId : String} {options : ExecOptions}

/-- What is in the way of a session: its identity is taken, or else what hinders its command. -/
inductive Obstacle (c : LocalController) (id execId : String) (options : ExecOptions) :
    ControllerError → Prop
  | taken (known : execId ∈ c.sessions.map (·.1)) :
    Obstacle c id execId options (.failed ("exec " ++ execId ++ " already exists in " ++ id))
  | hindered {e : ControllerError} (new : execId ∉ c.sessions.map (·.1))
    (hindrance : c.host.Hindrance options false e) : Obstacle c id execId options e

/-- What the start of a session changes: there is one more session, with a child of its own. -/
structure Opened (c c' : LocalController) (execId : String) (pid : Nat) : Prop where
  launch : c'.launch = c.launch
  init : c'.init = c.init
  unknown : execId ∉ c.sessions.map (·.1)
  sessions : c'.sessions = c.sessions ++ [(execId, pid)]
  alive : c'.host.Child pid .alive
  new : ∀ {l}, ¬ c.host.Child pid l
  others : ∀ {q l}, c.host.Child q l → c'.host.Child q l

/-- Sessions need a live init process. -/
theorem step?_exec (c : LocalController) (id execId : String) (options : ExecOptions) :
    c.livePid? = none ∧ c.step? (.begin (.exec id execId options)) =
        some (c, .finished (.error (.notFound id)), []) ∨
      c.livePid? ≠ none ∧ c.step? (.begin (.exec id execId options)) =
        some (c, .opening id execId options, []) := by
  cases live : c.livePid? with
  | none =>
    exact .inl ⟨rfl, by simp only [step?, checkLive, live, Section.refuse, Section.follow]⟩
  | some pid =>
    exact .inr ⟨Option.some_ne_none pid, by simp only [step?, checkLive, live, Section.follow]⟩

private theorem lookup_isSome {sessions : List (String × Nat)} :
    (sessions.lookup execId).isSome = true ↔ execId ∈ sessions.map (·.1) := by
  simp [List.lookup_isSome_iff]

/-- A session is started unless something is in the way. -/
theorem openSession_cases (tidy : c.Tidy) (id execId : String) (options : ExecOptions) :
    (∃ e, Obstacle c id execId options e ∧ c.openSession id execId options = .refuse c e) ∨
      (∀ e, ¬ Obstacle c id execId options e) ∧ ∃ c' pid, Opened c c' execId pid ∧
        c.openSession id execId options = ⟨.ok (.session ⟨execId, some (UInt32.ofNat pid)⟩), c',
          [.sessionSpawned id execId pid], []⟩ := by
  by_cases known : (c.sessions.lookup execId).isSome = true
  · exact .inl ⟨_, .taken (lookup_isSome.mp known), if_pos known⟩
  have new := mt lookup_isSome.mpr known
  rcases c.host.launch_cases options false with
    ⟨e, hindrance, refused⟩ | ⟨free, pid, host, launched⟩
  · refine .inl ⟨e, .hindered new hindrance, ?_⟩
    simp only [openSession, if_neg known, refused]
  · refine .inr ⟨fun e obstacle => ?_,
      { c with host, sessions := c.sessions ++ [(execId, pid)] }, pid, ?_, ?_⟩
    · cases obstacle with
      | taken known => exact new known
      | hindered _ hindrance => exact free e hindrance
    · exact ⟨rfl, rfl, new, rfl, Host.child_of_launch tidy.numbered launched,
        fun child => child.ne_of_launch tidy.numbered launched rfl,
        fun child => child.of_launch launched⟩
    · simp only [openSession, if_neg known, launched]

end LocalController

namespace LocalInterleaving

variable {c d start : LocalInterleaving} {u : Caller} {call : Call} {e : ControllerError}
  {steps : List (LocalController × LocalController)}

/-! ## Courses -/

/-- A call of the caller `u` from `start` on, up to its end at most, while others act and the host
goes on: the controller before and after each of its own steps. -/
inductive During (u : Caller) (start : LocalInterleaving) :
    List (LocalController × LocalController) → LocalInterleaving → Prop
  | begin : During u start [] start
  | own {steps : List (LocalController × LocalController)} {c d : LocalInterleaving}
    (during : During u start steps c) (going : ∀ result, c.stages u ≠ some (.finished result))
    (turn : c.Turn u d) : During u start (steps ++ [(c.controller, d.controller)]) d
  | other {steps : List (LocalController × LocalController)} {c d : LocalInterleaving} {v : Caller}
    (during : During u start steps c) (other : v ≠ u) (turn : c.Turn v d) : During u start steps d
  | pass {steps : List (LocalController × LocalController)} {c : LocalInterleaving} {host : Host}
    (during : During u start steps c) (evolves : c.controller.host.Evolves host) :
    During u start steps { c with controller := { c.controller with host } }

/-- An own step of a call that may still fail has changed nothing, or the call is accepted. -/
private theorem Turn.undecided {s : LocalStage} (turn : c.Turn u d) (place : c.stages u = some s)
    (going : ∀ result, c.stages u ≠ some (.finished result)) (early : s.Undecided) :
    ∃ s', d.stages u = some s' ∧ (d.controller = c.controller ∧ s'.Undecided ∨ s'.Accepted) := by
  cases turn with
  | call _ free | wait _ free => exact nomatch free.symm.trans place
  | leave past => exact absurd past (going _)
  | fault e => exact ⟨_, stages_setStage .., .inl ⟨rfl, trivial⟩⟩
  | work here step =>
    cases here.symm.trans place
    exact ⟨_, stages_setStage .., (LocalController.work_of_step? step).undecided early⟩

/-- An own step of a call that is accepted does not fail. -/
private theorem Turn.accepted {s : LocalStage} (turn : c.Turn u d) (place : c.stages u = some s)
    (going : ∀ result, c.stages u ≠ some (.finished result)) (past : s.Accepted) :
    ∃ s', d.stages u = some s' ∧ s'.Accepted := by
  cases turn with
  | call _ free | wait _ free => exact nomatch free.symm.trans place
  | leave ended => exact absurd ended (going _)
  | fault e here asks =>
    cases here.symm.trans place
    exact nomatch (LocalController.asksSystem_of_accepted past).symm.trans asks
  | work here step =>
    cases here.symm.trans place
    exact ⟨_, stages_setStage .., LocalController.accepted_of_step? past step⟩

/-- **A call changes nothing until it is accepted**, and then it does not fail. -/
theorem During.decides (during : During u start steps d)
    (place : start.stages u = some (.begin call)) :
    ∃ s, d.stages u = some s ∧
      (s.Undecided ∧ (∀ step ∈ steps, step.2 = step.1) ∨ s.Accepted) := by
  induction during with
  | begin => exact ⟨_, place, .inl ⟨trivial, List.forall_mem_nil _⟩⟩
  | own during going turn ih =>
    obtain ⟨s, there, early | past⟩ := ih
    · obtain ⟨s', next, ⟨same, still⟩ | done⟩ := turn.undecided there going early.1
      · refine ⟨s', next, .inl ⟨still, fun step mem => ?_⟩⟩
        rcases List.mem_append.mp mem with mem | mem
        · exact early.2 step mem
        · rw [List.mem_singleton.mp mem]
          exact same
      · exact ⟨s', next, .inr done⟩
    · obtain ⟨s', next, done⟩ := turn.accepted there going past
      exact ⟨s', next, .inr done⟩
  | other during other turn ih =>
    obtain ⟨s, there, so⟩ := ih
    exact ⟨s, (turn.stages_other other.symm).trans there, so⟩
  | pass during evolves ih => exact ih

/-- **Calls that fail change nothing**, whatever the callers of a controller have done before, and
whoever acts meanwhile.

- A call that fails leaves the controller and the host as they were: the init process, its child and
  its exit, the sessions, and every process. That is so of a call with nobody else at work, and of
  each step of a call among others.
- A delete fails by itself for one reason only, that there is an init process whose exit is not
  recorded and which is alive, or whose child was taken by a waiter. After its first section it does
  not fail.
- A session needs a live init process. Then it is started unless something is in the way, and fails
  with the first thing that is. It has a child of its own, and is the only thing that is new. -/
theorem failures_change_nothing (launch : ExecOptions) {host : Host} (numbered : host.Numbered)
    (reachable : Reachable (fresh launch host) c) :
    (∀ {call e}, (c.controller.call call).result = .error e →
      (c.controller.call call).controller = c.controller) ∧
    (∀ {u call steps d e}, c.stages u = some (.begin call) → During u c steps d →
      d.stages u = some (.finished (.error e)) → ∀ step ∈ steps, step.2 = step.1) ∧
    (∀ id, c.controller.Undeletable ∧ (c.controller.init.child = none →
          Taken (fresh launch host) c) ∧ c.controller.step? (.begin (.delete id)) =
            some (c.controller, .finished (.error (.stillRunning id)), []) ∨
        ¬ c.controller.Undeletable ∧
          ∃ controller, c.controller.step? (.begin (.delete id)) =
            some (controller, .draining id, [])) ∧
    (∀ id, ∃ controller ns, c.controller.step? (.draining id) =
      some (controller, .finished (.ok (.answer .done)), ns)) ∧
    ∀ id execId options,
      (c.controller.livePid? = none ∧ c.controller.step? (.begin (.exec id execId options)) =
          some (c.controller, .finished (.error (.notFound id)), []) ∨
        c.controller.livePid? ≠ none ∧ c.controller.step? (.begin (.exec id execId options)) =
          some (c.controller, .opening id execId options, [])) ∧
      ((∃ e, c.controller.Obstacle id execId options e ∧
          c.controller.step? (.opening id execId options) =
            some (c.controller, .finished (.error e), [])) ∨
        (∀ e, ¬ c.controller.Obstacle id execId options e) ∧
          ∃ controller pid, c.controller.Opened controller execId pid ∧
            c.controller.step? (.opening id execId options) = some (controller,
              .finished (.ok (.answer (.session ⟨execId, some (UInt32.ofNat pid)⟩))),
              [.sessionSpawned id execId pid])) := by
  have tidy := (reachable.sound (sound_fresh launch numbered)).tidy
  refine ⟨fun {call e} failed => ?_, fun place during failed => ?_, fun id => ?_,
    fun id => ⟨_, _, rfl⟩,
    fun id execId options => ⟨LocalController.step?_exec _ id execId options, ?_⟩⟩
  · refine (LocalController.runs_call c.controller call).refused (e := e) trivial ?_
    rw [failed]
    rfl
  · obtain ⟨s, there, ⟨-, same⟩ | past⟩ := during.decides place
    · exact same
    · cases failed.symm.trans there
      cases past
  · rcases LocalController.step?_delete tidy id with ⟨running, refused⟩ | goes
    · refine .inl ⟨running, fun gone => ?_, refused⟩
      obtain ⟨pid, born, unseen, -⟩ := running
      exact reachable.taken (fun missing => missing.pid rfl)
        ⟨by rw [born]; exact nofun, gone, unseen⟩
    · exact .inr goes
  · rcases LocalController.openSession_cases tidy id execId options with
      ⟨e, obstacle, refused⟩ | ⟨free, controller, pid, opened, started⟩
    · refine .inl ⟨e, obstacle, ?_⟩
      rw [LocalController.step?, refused]
      rfl
    · refine .inr ⟨free, controller, pid, opened, ?_⟩
      rw [LocalController.step?, started]
      rfl

/-- `/bin/true` runs. It cannot be deleted yet, by one caller alone nor among others, and a session
without a command is refused. -/
theorem failures_change_nothing_running :
    ∃ c steps d, Reachable (fresh { args := ["/bin/true"] } {}) c ∧
      (c.controller.call (.delete "web")).result = .error (.stillRunning "web") ∧
      (c.controller.call (.delete "web")).controller = c.controller ∧
      During 1 c steps d ∧ d.stages 1 = some (.finished (.error (.stillRunning "web"))) ∧
      steps.length = 1 ∧ (∀ step ∈ steps, step.2 = step.1) ∧
      c.controller.step? (.opening "web" "shell" {}) =
        some (c.controller, .finished (.error (.spawnFailed "empty command")), []) := by
  obtain ⟨_, started, known, -, -, free⟩ := exists_startedTrue
  obtain ⟨c, asked, place, controller⟩ : ∃ c, Reachable (fresh { args := ["/bin/true"] } {}) c ∧
      c.stages 1 = some (.begin (.delete "web")) ∧ c.controller = .ofTrue :=
    ⟨_, started.turn 1 (.call (.delete "web") (free 1 (by decide))), stages_setStage .., known⟩
  have running : (c.controller.call (.delete "web")).result = .error (.stillRunning "web") := by
    rw [controller]
    rfl
  have step : c.controller.step? (.begin (.delete "web")) =
      some (.ofTrue, .finished (.error (.stillRunning "web")), []) := by
    rw [controller]
    rfl
  obtain ⟨whole, among, -, -, sessions⟩ := failures_change_nothing _ Host.numbered_empty asked
  have course := During.begin.own (fun result => by rw [place]; exact nofun) (.work place step)
  refine ⟨c, _, _, asked, running, whole running, course, stages_setStage .., rfl,
    among place course (stages_setStage ..), ?_⟩
  rcases (sessions "web" "shell" {}).2 with ⟨e, obstacle, refused⟩ | ⟨free, -⟩
  · cases obstacle with
    | taken known => rw [controller] at known; cases known
    | hindered new hindrance =>
      cases hindrance with
      | empty none => exact refused
      | terminal args => cases args
      | fault args => cases args
  · exact absurd (.hindered (by rw [controller]; exact nofun) (.empty rfl)) (free _)

end LocalInterleaving

end ContainerInit
