import ContainerInit.Interleaving.Basic
import ContainerInit.Proofs.Local.Order

/-!
# Callers of a controller at work at once

Any number of callers make calls of one local controller and wait for its child, while the host goes
on.

- **Turns** (`LocalInterleaving.Turn`): a caller begins a call or a wait, runs its next section, or
  returns. Where a section asks the system for something, the system may refuse it
  (`LocalController.asksSystem`); then nothing changes.
- **Runs** (`LocalInterleaving.Reachable`): turns of any callers in any order, and in between
  whatever the host does by itself.
- **Accounts** (`initPids`, `sessionPids`): the processes that the controller has reported to have
  started. They are the children that its callers add to the host, turn by turn (`Turn.starts`).
- **Invariant** (`LocalInterleaving.Sound`): the controller is in order, each call is at a stage
  that fits, and the accounts are those of the controller.
-/

namespace ContainerInit

open Host (Life)

/-- The next section of a call asks the system for something that it may refuse: to start a
process, to send a signal, or to look at a child. -/
def LocalController.asksSystem (c : LocalController) : LocalStage → Bool
  | .begin (.start _) => c.init.pid.isNone
  | .begin (.kill ..) | .begin (.resume _) => c.livePid?.isSome
  | .begin (.delete _) => c.livePid?.isSome && c.init.child.isSome
  | .opening _ execId _ => (c.sessions.lookup execId).isNone
  | .awaiting .. | .releasing .. => true
  | _ => false

/-- A controller and its callers. -/
structure LocalInterleaving where
  controller : LocalController
  /-- The call that each caller is in. -/
  stages : Caller → Option LocalStage := fun _ => none
  /-- What the controller has reported, oldest first. -/
  notices : List Notice := []
  /-- The signals that the controller has requested to be sent, oldest first. -/
  kills : List Kill := []

namespace LocalInterleaving

/-- A controller that nobody has called. -/
def fresh (launch : ExecOptions) (host : Host) : LocalInterleaving :=
  { controller := { launch, host } }

/-- Changes the call that a caller is in. -/
def setStage (c : LocalInterleaving) (caller : Caller) (stage : Option LocalStage) :
    LocalInterleaving :=
  { c with stages := fun u => if u = caller then stage else c.stages u }

theorem stages_setStage (c : LocalInterleaving) (u : Caller) (stage : Option LocalStage) :
    (c.setStage u stage).stages u = stage := if_pos rfl

/-- The init processes that were started. -/
def initPids (c : LocalInterleaving) : List Nat :=
  c.notices.filterMap Notice.initPid?

/-- The sessions that were started. -/
def sessionPids (c : LocalInterleaving) : List Nat :=
  c.notices.filterMap Notice.sessionPid?

/-- What a caller can do. -/
inductive Turn (c : LocalInterleaving) (u : Caller) : LocalInterleaving → Prop
  | call (call : Call) (free : c.stages u = none) : Turn c u (c.setStage u (some (.begin call)))
  | wait (id : String) (free : c.stages u = none) : Turn c u (c.setStage u (some (.arriving id)))
  | work {s s' : LocalStage} {controller : LocalController} {ns : List Notice}
    (place : c.stages u = some s) (step : c.controller.step? s = some (controller, s', ns)) :
    Turn c u ({ c with
      controller
      notices := c.notices ++ ns
      kills := c.kills ++ c.controller.issued s }.setStage u (some s'))
  | fault {s : LocalStage} (e : ControllerError) (place : c.stages u = some s)
    (asks : c.controller.asksSystem s = true) :
    Turn c u ({ c with
      notices := c.notices ++ LocalController.announced s
      kills := c.kills ++ c.controller.issued s }.setStage u (some (.finished (.error e))))
  | leave {result : Except ControllerError Yield} (place : c.stages u = some (.finished result)) :
    Turn c u (c.setStage u none)

/-- What turns of any callers lead to, and a host that goes on. -/
inductive Reachable (start : LocalInterleaving) : LocalInterleaving → Prop
  | refl : Reachable start start
  | turn {c d : LocalInterleaving} (u : Caller) (reachable : Reachable start c)
    (turn : c.Turn u d) : Reachable start d
  | pass {c : LocalInterleaving} {host : Host} (reachable : Reachable start c)
    (evolves : c.controller.host.Evolves host) :
    Reachable start { c with controller := { c.controller with host } }

end LocalInterleaving

/-! ## Accounts -/

namespace LocalController

variable {c c' : LocalController} {s s' : LocalStage} {ns : List Notice}

/-- No call reports of itself that it has started anything. -/
theorem announced_silent (s : LocalStage) :
    (announced s).filterMap Notice.initPid? = [] ∧
      (announced s).filterMap Notice.sessionPid? = [] := by
  cases s with
  | begin call =>
    cases call with
    | update id resources =>
      simp only [announced]
      cases resources.isEmpty <;> exact ⟨rfl, rfl⟩
    | _ => exact ⟨rfl, rfl⟩
  | _ => exact ⟨rfl, rfl⟩

namespace Work

/-- The init process that is known is the one that was started. -/
theorem initPids (work : Work c s c' s' ns) :
    c'.init.pid.toList = c.init.pid.toList ++ ns.filterMap Notice.initPid? := by
  cases work with
  | refuse | send | skip => rw [(announced_silent _).1, List.append_nil]
  | start unborn launched => rw [unborn]; rfl
  | drain => rw [(drain_notices c _).1, List.append_nil]; rfl
  | _ => exact (List.append_nil _).symm

/-- **The children that a section adds to the host are those that it reports.** -/
theorem children (tidy : c.Tidy) (work : Work c s c' s' ns) : c'.host.children =
    c.host.children ++ ns.filterMap Notice.initPid? ++ ns.filterMap Notice.sessionPid? := by
  have silent {init session : List Nat} (none : init = [] ∧ session = []) :
      c.host.children ++ init ++ session = c.host.children := by
    rw [none.1, none.2, List.append_nil, List.append_nil]
  cases work with
  | refuse | skip => exact (silent (announced_silent _)).symm
  | send _ _ sent =>
    exact (Host.proceeds_signal sent).children.trans (silent (announced_silent _)).symm
  | start _ launched => exact (Host.children_launch launched).trans (List.append_nil _).symm
  | @join _ _ _ pid _ _ launched =>
    exact (Host.children_launch launched).trans (congrArg (· ++ [pid]) (List.append_nil _).symm)
  | @drain id =>
    have drained := drained c id fun session mem => (tidy.sessions session mem).1
    exact drained.children.trans (silent (drain_notices c id)).symm
  | release | letGo => exact (Host.children_reap ..).trans (silent ⟨rfl, rfl⟩).symm
  | _ => exact (silent ⟨rfl, rfl⟩).symm

/-- A session is known from its start until its process is gone. -/
theorem sessionPids (tidy : c.Tidy) (work : Work c s c' s' ns) {pid : Nat}
    (mem : pid ∈ c.sessions.map (·.2) ∨ pid ∈ ns.filterMap Notice.sessionPid?) :
    pid ∈ c'.sessions.map (·.2) ∨ c'.host.Child pid .reaped := by
  cases work with
  | refuse | send | skip =>
    rw [(announced_silent _).2] at mem
    exact .inl (mem.resolve_right List.not_mem_nil)
  | @drain id =>
    rw [(drain_notices c id).2] at mem
    obtain ⟨session, there, rfl⟩ := List.mem_map.mp (mem.resolve_right List.not_mem_nil)
    have drained := drained c id fun session mem => (tidy.sessions session mem).1
    exact .inr (drained.gone session there)
  | join new launched =>
    rw [List.map_append, List.mem_append]
    exact .inl mem
  | _ => exact .inl (mem.resolve_right List.not_mem_nil)

end Work

end LocalController

namespace LocalInterleaving

variable {c d : LocalInterleaving} {u : Caller}

/-! ## The invariant -/

/-- What holds of all callers together. -/
structure Sound (c : LocalInterleaving) : Prop where
  tidy : c.controller.Tidy
  fits : ∀ {u : Caller} {s : LocalStage}, c.stages u = some s → s.Fits c.controller
  initPids : c.initPids = c.controller.init.pid.toList
  sessionPids : ∀ pid ∈ c.sessionPids, pid ∈ c.controller.sessions.map (·.2) ∨
    c.controller.host.Child pid .reaped

theorem sound_fresh (launch : ExecOptions) {host : Host} (numbered : host.Numbered) :
    (fresh launch host).Sound :=
  ⟨⟨numbered, fun _ => ⟨rfl, rfl⟩, nofun, nofun, nofun⟩, nofun, rfl, nofun⟩

theorem initPids_append {ns : List Notice} (notices : d.notices = c.notices ++ ns) :
    d.initPids = c.initPids ++ ns.filterMap Notice.initPid? := by
  rw [initPids, notices, List.filterMap_append]
  rfl

theorem sessionPids_append {ns : List Notice} (notices : d.notices = c.notices ++ ns) :
    d.sessionPids = c.sessionPids ++ ns.filterMap Notice.sessionPid? := by
  rw [sessionPids, notices, List.filterMap_append]
  rfl

/-- A caller moves on to a stage that fits, while the controller gets later. -/
theorem Sound.fits_setStage (sound : c.Sound) (later : c.controller.Later d.controller)
    {next : Option LocalStage} (stages : d.stages = (c.setStage u next).stages)
    (fits : ∀ s, next = some s → s.Fits d.controller) {v : Caller} {s : LocalStage}
    (place : d.stages v = some s) : s.Fits d.controller := by
  rw [stages] at place
  simp only [setStage] at place
  split at place
  · exact fits s place
  · exact later.fits (sound.fits place)

/-- A turn of one caller leaves the calls of the others alone. -/
theorem Turn.stages_other {v : Caller} (turn : c.Turn u d) (other : v ≠ u) :
    d.stages v = c.stages v := by
  cases turn <;> exact if_neg other

theorem Turn.later (sound : c.Sound) (turn : c.Turn u d) : c.controller.Later d.controller := by
  cases turn with
  | work place step => exact (LocalController.work_of_step? step).later sound.tidy
  | _ => exact .refl _

/-- There are new children in the host, and they are those that are reported as started. -/
structure Gains (c d : LocalInterleaving) (init session : List Nat) : Prop where
  children : d.controller.host.children = c.controller.host.children ++ init ++ session
  initPids : d.initPids = c.initPids ++ init
  sessionPids : d.sessionPids = c.sessionPids ++ session

theorem Gains.nothing (host : d.controller.host.children = c.controller.host.children)
    (init : d.initPids = c.initPids) (session : d.sessionPids = c.sessionPids) :
    c.Gains d [] [] :=
  ⟨by simpa using host, by simpa using init, by simpa using session⟩

theorem Gains.unchanged (gains : c.Gains d [] []) :
    d.controller.host.children = c.controller.host.children ∧ d.initPids = c.initPids ∧
      d.sessionPids = c.sessionPids :=
  ⟨by simpa using gains.children, by simpa using gains.initPids, by simpa using gains.sessionPids⟩

/-- Children that are in the host from the start, or reported as started since, stay accounted
for. -/
theorem Gains.account {init session base : List Nat} (gains : c.Gains d init session)
    (account : c.controller.host.children.Perm (base ++ c.initPids ++ c.sessionPids)) :
    d.controller.host.children.Perm (base ++ d.initPids ++ d.sessionPids) := by
  rw [gains.children, gains.initPids, gains.sessionPids]
  refine List.perm_iff_count.mpr fun pid => ?_
  have before := account.count_eq pid
  simp only [List.count_append] at before ⊢
  omega

/-- What a turn starts: nothing, or the init process where none was started, or a session; and the
controller knows it from then on. -/
inductive Starts (c : LocalInterleaving) (u : Caller) (d : LocalInterleaving) : Prop
  | nothing (gains : c.Gains d [] [])
  | init {id : String} {pid : Nat} (place : c.stages u = some (.begin (.start id)))
    (unborn : c.controller.init.pid = none) (born : d.controller.init.pid = some pid)
    (gains : c.Gains d [pid] [])
  | session {id execId : String} {options : ExecOptions} {pid : Nat}
    (place : c.stages u = some (.opening id execId options))
    (known : d.controller.sessions = c.controller.sessions ++ [(execId, pid)])
    (gains : c.Gains d [] [pid])

theorem Starts.gains (starts : c.Starts u d) : ∃ init session, c.Gains d init session := by
  cases starts with
  | nothing gains | init _ _ _ gains | session _ _ gains => exact ⟨_, _, gains⟩

/-- **A turn adds to the host what it reports,** one child at most. -/
theorem Turn.starts (sound : c.Sound) (turn : c.Turn u d) : c.Starts u d := by
  cases turn with
  | call | wait | leave => exact .nothing (.nothing rfl rfl rfl)
  | @fault s e place asks =>
    obtain ⟨init, session⟩ := LocalController.announced_silent s
    refine .nothing (.nothing rfl ?_ ?_)
    · rw [initPids_append (c := c) rfl, init, List.append_nil]
    · rw [sessionPids_append (c := c) rfl, session, List.append_nil]
  | @work s s' controller ns place step =>
    have work := LocalController.work_of_step? step
    have gains : c.Gains ({ c with
        controller
        notices := c.notices ++ ns
        kills := c.kills ++ c.controller.issued s }.setStage u (some s'))
        (ns.filterMap Notice.initPid?) (ns.filterMap Notice.sessionPid?) :=
      ⟨work.children sound.tidy, initPids_append (c := c) rfl, sessionPids_append (c := c) rfl⟩
    cases work with
    | start unborn => exact .init place unborn rfl gains
    | join => exact .session place rfl gains
    | refuse | send | skip =>
      rw [(LocalController.announced_silent _).1, (LocalController.announced_silent _).2] at gains
      exact .nothing gains
    | @drain id =>
      rw [(LocalController.drain_notices _ id).1, (LocalController.drain_notices _ id).2] at gains
      exact .nothing gains
    | _ => exact .nothing gains

/-- **A turn of a caller keeps everything in order.** -/
theorem Sound.turn (sound : c.Sound) (turn : c.Turn u d) : d.Sound := by
  have later := turn.later sound
  cases turn with
  | call call free | wait id free | leave place =>
    refine ⟨sound.tidy, sound.fits_setStage later rfl ?_, sound.initPids, sound.sessionPids⟩
    rintro s ⟨⟩
    try trivial
  | @work s s' controller ns place step =>
    have work := LocalController.work_of_step? step
    refine ⟨work.tidy sound.tidy (sound.fits place), sound.fits_setStage later rfl ?_, ?_,
      fun pid mem => ?_⟩
    · rintro _ ⟨⟩
      exact work.fits sound.tidy (sound.fits place)
    · rw [initPids_append (c := c) rfl, sound.initPids]
      exact work.initPids.symm
    · rw [sessionPids_append (c := c) rfl] at mem
      rcases List.mem_append.mp mem with old | new
      · rcases sound.sessionPids pid old with known | gone
        · exact work.sessionPids sound.tidy (.inl known)
        · exact .inr (later.reaped gone)
      · exact work.sessionPids sound.tidy (.inr new)
  | @fault s e place asks =>
    obtain ⟨init, session⟩ := LocalController.announced_silent s
    refine ⟨sound.tidy, sound.fits_setStage later rfl ?_, ?_, ?_⟩
    · rintro _ ⟨⟩
      trivial
    · rw [initPids_append (c := c) rfl, init, List.append_nil]
      exact sound.initPids
    · rw [sessionPids_append (c := c) rfl, session, List.append_nil]
      exact sound.sessionPids

theorem Sound.pass {host : Host} (sound : c.Sound) (evolves : c.controller.host.Evolves host) :
    ({ c with controller := { c.controller with host } } : LocalInterleaving).Sound := by
  have later := LocalController.Later.of_evolves evolves
  refine ⟨sound.tidy.of_evolves evolves, fun place => later.fits (sound.fits place),
    sound.initPids, fun pid mem => ?_⟩
  exact (sound.sessionPids pid mem).imp_right later.reaped

/-! ## Runs -/

namespace Reachable

variable {start : LocalInterleaving}

theorem sound (reachable : Reachable start c) (sound : start.Sound) : c.Sound := by
  induction reachable with
  | refl => exact sound
  | turn u _ turn ih => exact ih.turn turn
  | pass _ evolves ih => exact ih.pass evolves

theorem later (reachable : Reachable start c) (sound : start.Sound) :
    start.controller.Later c.controller := by
  induction reachable with
  | refl => exact .refl _
  | turn u reachable turn ih => exact ih.trans (turn.later (reachable.sound sound))
  | pass _ evolves ih => exact ih.trans (.of_evolves evolves)

end Reachable

end LocalInterleaving

namespace LocalController

/-- A controller that has started `/bin/true` on an empty host. -/
def ofTrue : LocalController where
  launch := { args := ["/bin/true"] }
  init := { pid := some 100, child := some 100 }
  host := ({} : Host).add { pid := 100, parent := Host.selfPid, group := 100, program := .exit 0 }

theorem step?_startTrue (id : String) :
    LocalController.step? { launch := { args := ["/bin/true"] } } (.begin (.start id)) =
      some (ofTrue, .finished (.ok (.answer .done)), [.initSpawned id 100 ["/bin/true"]]) := by
  simp only [step?, start, Host.launch_true]
  rfl

end LocalController

/-- `/bin/true` is started, and nobody is in a call but the caller that has started it. -/
theorem LocalInterleaving.exists_startedTrue :
    ∃ c, Reachable (fresh { args := ["/bin/true"] } {}) c ∧ c.controller = .ofTrue ∧
      c.initPids = [100] ∧ c.kills = [] ∧ ∀ u, u ≠ 0 → c.stages u = none := by
  have called : Reachable (fresh { args := ["/bin/true"] } {}) _ :=
    Reachable.refl.turn 0 (.call (.start "web") rfl)
  have starts := Turn.work (stages_setStage (fresh { args := ["/bin/true"] } {}) 0 _)
    (LocalController.step?_startTrue "web")
  have quiet : LocalController.issued { launch := { args := ["/bin/true"] } }
      (.begin (.start "web")) = [] :=
    LocalController.issued_eq_nil fun _ same => by cases same; rfl
  exact ⟨_, called.turn 0 starts, rfl, rfl, quiet, fun u other =>
    (starts.stages_other other).trans (if_neg other)⟩

end ContainerInit
