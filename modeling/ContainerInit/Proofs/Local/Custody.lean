import ContainerInit.Proofs.Local.Callers

/-!
# Who has the child, and who records its exit

The init process has one child handle, and its exit is recorded once. The handle lies in the slot of
the controller until a waiter takes it or a delete drops it; the exit is recorded by the waiter that
has the handle, or by a delete that finds the handle in the slot.

- **Custody** (`LocalStage.held?`, `LocalInterleaving.Holds`): a waiter has the child from the
  moment it takes it until it returns.
- **Writing** (`LocalController.written?`): the two sections that write the exit, and no other does
  (`Work.exit_eq`).
- **Invariant** (`LocalInterleaving.Guarded`): one caller at most has the child, and each stage of a
  wait says what is recorded (`LocalStage.Tells`).
- **The books** (`books_kept`): the init process, its handle, its exit, and what waits return.
-/

namespace ContainerInit

open Host (Life Ending)

/-- The child that a call has in hand. -/
def LocalStage.held? : LocalStage → Option Nat
  | .awaiting _ pid | .recording _ pid _ | .releasing _ pid _ => some pid
  | _ => none

/-- What the stages of a wait say of the exit: none is recorded before the waiter records what it
has seen, and the code that it returns is the recorded one. -/
def LocalStage.Tells (c : LocalController) : LocalStage → Prop
  | .awaiting _ _ => c.init.exit = none
  | .recording _ pid code => c.init.exit = none ∧
    ∃ e, c.host.Child pid (.ended e) ∧ code = exitCodeOf e
  | .releasing _ _ code | .finished (.ok (.code code)) => c.init.exit = some code
  | _ => True

namespace LocalController

variable {c c' : LocalController} {s s' : LocalStage} {ns : List Notice} {pid : Nat} {code : Int32}

/-! ## Writing -/

/-- The code that the next section of a call writes as the exit, if it writes one. -/
def written? (c : LocalController) : LocalStage → Option Int32
  | .recording _ _ code => some code
  | .begin (.delete _) => do
    let _ ← c.livePid?
    let child ← c.init.child
    let e ← c.host.ending? child
    return exitCodeOf e
  | _ => none

/-- A delete that writes the exit finds the child in the slot, ended, and no exit recorded. -/
theorem written?_delete {id : String} (writes : c.written? (.begin (.delete id)) = some code) :
    ∃ pid child e, c.livePid? = some pid ∧ c.init.child = some child ∧
      c.host.ending? child = some e ∧ code = exitCodeOf e := by
  simp only [written?, bind, Option.bind_eq_some_iff, pure, Option.some.injEq] at writes
  obtain ⟨pid, live, child, held, e, ended, rfl⟩ := writes
  exact ⟨pid, child, e, live, held, ended, rfl⟩

/-- The code that a waiter has seen is that of the ending. -/
theorem reportedCode_eq_ok {e : Ending} (reported : reportedCode e = .ok code) :
    code = exitCodeOf e := by
  unfold reportedCode at reported
  split at reported
  · cases reported; rfl
  · split at reported <;> cases reported
    rfl

/-- What a waiter cannot report is an error of the system. -/
theorem reportedCode_eq_error {e : Ending} {error : ControllerError}
    (reported : reportedCode e = .error error) : ∃ reason, error = .io reason := by
  unfold reportedCode at reported
  split at reported
  · cases reported
  · split at reported <;> cases reported
    exact ⟨_, rfl⟩

/-- An init process was started, its exit is not recorded, and its child is not in the slot. -/
structure Missing (c : LocalController) : Prop where
  pid : c.init.pid ≠ none
  child : c.init.child = none
  exit : c.init.exit = none

namespace Work

/-- Only a section that writes the exit changes it. -/
theorem exit_eq (work : Work c s c' s' ns) :
    c'.init.exit = c.init.exit ∨ ∃ code, c.written? s = some code ∧ c'.init.exit = some code := by
  cases work with
  | release live held ended =>
    exact .inr ⟨_, by simp [written?, live, held, ended], rfl⟩
  | record => exact .inr ⟨_, rfl, rfl⟩
  | _ => exact .inl rfl

/-- A recorded exit is not written again. -/
theorem exit_stays (tells : s.Tells c) (work : Work c s c' s' ns) (exit : c.init.exit = some code) :
    c'.init.exit = some code := by
  cases work with
  | release live => exact nomatch exit.symm.trans (livePid?_eq_some.mp live).2
  | record => exact nomatch exit.symm.trans tells.1
  | _ => exact exit

/-- While somebody has the child, nobody else writes the exit. -/
theorem exit_unwritten (other : s.held? = none) (work : Work c s c' s' ns)
    (taken : c.init.child = none) : c'.init.exit = c.init.exit := by
  cases work with
  | release _ held => exact nomatch taken.symm.trans held
  | record => exact nomatch other
  | _ => rfl

/-- While somebody has the child, nobody else lets it go. -/
theorem ended_stays {e : Ending} (tidy : c.Tidy) (other : s.held? = none)
    (work : Work c s c' s' ns) (born : c.init.pid = some pid) (taken : c.init.child = none)
    (child : c.host.Child pid (.ended e)) : c'.host.Child pid (.ended e) := by
  have evolves {h : Host} (evolves : c.host.Evolves h) : h.Child pid (.ended e) := by
    obtain ⟨l, child, become⟩ := evolves.child child
    exact become.of_ended ▸ child
  cases work with
  | start unborn => exact nomatch born.symm.trans unborn
  | send _ _ sent => exact evolves (Host.evolves_signal sent)
  | join _ launched => exact evolves (Host.evolves_launch launched)
  | release _ held => exact nomatch taken.symm.trans held
  | letGo => exact nomatch other
  | @drain id =>
    have drained := drained c id fun session mem => (tidy.sessions session mem).1
    have apart : pid ∉ c.sessions.map (·.2) := fun mem => by
      obtain ⟨session, mem, same⟩ := List.mem_map.mp mem
      exact (tidy.sessions session mem).2 (same ▸ born)
    obtain ⟨l, child, become⟩ := drained.other child apart
    exact become.of_ended ▸ child
  | _ => exact child

/-- A section leaves its own call at a stage that tells the truth. -/
theorem tells (fits : s.Fits c) (tidy : c.Tidy) (tells : s.Tells c) (work : Work c s c' s' ns) :
    s'.Tells c' := by
  cases work with
  | remember known => exact known
  | take unknown => exact unknown
  | @see id pid e code ended reported =>
    obtain ⟨l, child, -⟩ := tidy.init fits.1
    exact ⟨tells, e, (child.ending?_eq_some.mp ended) ▸ child, reportedCode_eq_ok reported⟩
  | record => rfl
  | letGo => exact tells
  | _ => trivial

/-- Who has the child took it from the slot. -/
theorem held (work : Work c s c' s' ns) (holds : s'.held? = some pid) :
    s.held? = some pid ∨ c.init.child = some pid := by
  cases work with
  | take _ held => cases holds; exact .inr held
  | see | record => exact .inl holds
  | _ => cases holds

/-- Without a record of the exit, the child leaves the slot only into the hand of a waiter. -/
theorem child_missing (work : Work c s c' s' ns) (missing : c'.Missing) :
    c.Missing ∨ ∃ id pid, s = .arriving id ∧ s' = .awaiting id pid := by
  cases work with
  | start => exact nomatch missing.child
  | forget past =>
    obtain ⟨pid, born⟩ := Option.ne_none_iff_exists'.mp missing.pid
    exact nomatch past.symm.trans (livePid?_eq_some.mpr ⟨born, missing.exit⟩)
  | release => exact nomatch missing.exit
  | record => exact nomatch missing.exit
  | take => exact .inr ⟨_, _, rfl, rfl⟩
  | _ => exact .inl ⟨missing.pid, missing.child, missing.exit⟩

end Work

/-- A wait that begins fails only where no exit is recorded and the child is not in the slot. -/
theorem eq_notFound_of_arriving {id : String} {e : ControllerError}
    (step : c.step? (.arriving id) = some (c', .finished (.error e), ns)) :
    e = .notFound id ∧ c.init.exit = none ∧ c.init.child = none := by
  have taken := Option.some.inj step
  simp only [takeChild] at taken
  split at taken
  · cases taken
  · cases taken
  · cases taken
    exact ⟨rfl, ‹_›, ‹_›⟩

/-- A waiter that has the child can fail, but never for want of a process. -/
theorem eq_io_of_held {e : ControllerError} (holds : s.held? = some pid)
    (step : c.step? s = some (c', .finished (.error e), ns)) : ∃ reason, e = .io reason := by
  cases s with
  | awaiting id pid =>
    simp only [step?, seen?] at step
    cases ended : c.host.ending? pid with
    | none => rw [ended] at step; cases step
    | some ending =>
      rw [ended, Option.map_some] at step
      cases reported : reportedCode ending with
      | ok code => rw [reported] at step; cases step
      | error error =>
        rw [reported] at step
        cases step
        exact reportedCode_eq_error reported
  | recording => cases step
  | releasing => cases step
  | _ => cases holds

theorem private_ofTrue : ofTrue.host.Private :=
  Host.private_of_exit (List.forall_mem_singleton.mpr ⟨rfl, by decide⟩)

end LocalController

namespace LocalInterleaving

variable {c d start : LocalInterleaving} {u v : Caller} {s : LocalStage} {pid : Nat} {code : Int32}

/-! ## Custody -/

/-- The caller has the child in hand. -/
def Holds (c : LocalInterleaving) (u : Caller) (pid : Nat) : Prop :=
  ∃ s, c.stages u = some s ∧ s.held? = some pid

/-- One caller at most has the child, and the stages of waits tell the truth. -/
structure Guarded (c : LocalInterleaving) : Prop where
  alone : ∀ {u v : Caller} {p q : Nat}, c.Holds u p → c.Holds v q → v = u
  tells : ∀ {u : Caller} {s : LocalStage}, c.stages u = some s → s.Tells c.controller

theorem guarded_fresh (launch : ExecOptions) (host : Host) : (fresh launch host).Guarded :=
  ⟨fun holds _ => (nomatch holds.choose_spec.1), nofun⟩

/-- Who has the child has the init process, and the slot is empty. -/
theorem Sound.holds (sound : c.Sound) (holds : c.Holds u pid) :
    c.controller.init.pid = some pid ∧ c.controller.init.child = none := by
  obtain ⟨s, place, held⟩ := holds
  have fits := sound.fits place
  cases s with
  | awaiting => cases held; exact fits
  | recording | releasing => cases held; exact ⟨fits.1, fits.2.1⟩
  | _ => cases held

/-- What is true of the stage of one caller stays true while another one works. -/
theorem Guarded.tells_of_work (guarded : c.Guarded) (sound : c.Sound) {s s' t : LocalStage}
    {controller : LocalController} {ns : List Notice} (other : v ≠ u) (place : c.stages u = some s)
    (work : LocalController.Work c.controller s controller s' ns) (there : c.stages v = some t) :
    t.Tells controller := by
  have tells := guarded.tells there
  -- Somebody else has the child, so the caller at work has not.
  have apart {pid : Nat} (held : t.held? = some pid) : s.held? = none := by
    rcases own : s.held? with _ | q
    · rfl
    · exact absurd (guarded.alone ⟨s, place, own⟩ ⟨t, there, held⟩) other
  have taken {pid : Nat} (held : t.held? = some pid) := sound.holds ⟨t, there, held⟩
  cases t with
  | awaiting id pid =>
    exact (work.exit_unwritten (apart rfl) (taken rfl).2).trans tells
  | recording id pid code =>
    obtain ⟨unseen, e, child, rfl⟩ := tells
    exact ⟨(work.exit_unwritten (apart rfl) (taken rfl).2).trans unseen, e,
      work.ended_stays sound.tidy (apart rfl) (taken rfl).1 (taken rfl).2 child, rfl⟩
  | releasing id pid code => exact work.exit_stays (guarded.tells place) tells
  | finished result =>
    cases result with
    | error e => trivial
    | ok yield =>
      cases yield with
      | answer => trivial
      | code code => exact work.exit_stays (guarded.tells place) tells
  | _ => trivial

/-- A caller that moves on to a stage at which it has no child keeps custody as it was. -/
theorem Guarded.moved (guarded : c.Guarded) {next : Option LocalStage}
    (controller : d.controller = c.controller) (stages : d.stages = (c.setStage u next).stages)
    (free : ∀ s, next = some s → s.held? = none ∧ s.Tells c.controller) : d.Guarded := by
  have before {v : Caller} {s : LocalStage} (place : d.stages v = some s) :
      (v ≠ u ∧ c.stages v = some s) ∨ (s.held? = none ∧ s.Tells c.controller) := by
    rw [stages] at place
    simp only [LocalInterleaving.setStage] at place
    split at place
    · exact .inr (free s place)
    · exact .inl ⟨‹_›, place⟩
  have holds {v : Caller} {p : Nat} : d.Holds v p → c.Holds v p := by
    rintro ⟨s, place, held⟩
    rcases before place with ⟨-, place⟩ | ⟨none, -⟩
    · exact ⟨s, place, held⟩
    · cases none.symm.trans held
  refine ⟨fun first second => guarded.alone (holds first) (holds second), fun place => ?_⟩
  rw [controller]
  rcases before place with ⟨-, place⟩ | ⟨-, tells⟩
  · exact guarded.tells place
  · exact tells

/-- **A turn of a caller keeps custody.** -/
theorem Guarded.turn (guarded : c.Guarded) (sound : c.Sound) (turn : c.Turn u d) : d.Guarded := by
  cases turn with
  | call | wait | fault =>
    refine guarded.moved rfl rfl ?_
    rintro _ ⟨⟩
    exact ⟨rfl, trivial⟩
  | leave =>
    refine guarded.moved rfl rfl fun s place => ?_
    cases place
  | @work s s' controller ns place step =>
    have work := LocalController.work_of_step? step
    refine ⟨fun {v w p q} first second => ?_, fun {v t} there => ?_⟩
    · -- Whoever has the child now had it before, or has just found it in the slot.
      have before {v : Caller} {p : Nat}
          (holds :
            Holds ({ c with controller, notices := c.notices ++ ns }.setStage u (some s')) v p) :
          c.Holds v p ∨ (v = u ∧ c.controller.init.child = some p) := by
        obtain ⟨t, there, held⟩ := holds
        simp only [setStage] at there
        split at there
        · cases there
          rcases work.held held with own | found
          · exact .inl ⟨s, ‹v = u› ▸ place, own⟩
          · exact .inr ⟨‹_›, found⟩
        · exact .inl ⟨t, there, held⟩
      rcases before first with had | ⟨own, found⟩ <;>
        rcases before second with had' | ⟨own', found'⟩
      · exact guarded.alone had had'
      · cases (sound.holds had).2.symm.trans found'
      · cases (sound.holds had').2.symm.trans found
      · exact own'.trans own.symm
    · simp only [setStage] at there
      split at there
      · cases there
        exact work.tells (sound.fits place) sound.tidy (guarded.tells place)
      · exact guarded.tells_of_work sound ‹_› place work there

theorem Guarded.pass {host : Host} (guarded : c.Guarded)
    (evolves : c.controller.host.Evolves host) :
    ({ c with controller := { c.controller with host } } : LocalInterleaving).Guarded := by
  refine ⟨guarded.alone, fun {u s} place => ?_⟩
  have tells := guarded.tells place
  cases s with
  | recording id pid code =>
    obtain ⟨unseen, e, child, rfl⟩ := tells
    obtain ⟨l, child, become⟩ := evolves.child child
    exact ⟨unseen, e, become.of_ended ▸ child, rfl⟩
  | finished result =>
    cases result with
    | error e => trivial
    | ok yield => cases yield <;> exact tells
  | _ => exact tells

theorem Reachable.guarded (reachable : Reachable start c) (sound : start.Sound)
    (guarded : start.Guarded) : c.Guarded := by
  induction reachable with
  | refl => exact guarded
  | turn u reachable turn ih => exact ih.turn (reachable.sound sound) turn
  | pass _ evolves ih => exact ih.pass evolves

/-- No turn writes the exit but one that is to write it. -/
theorem Turn.exit_eq (turn : c.Turn u d) :
    d.controller.init.exit = c.controller.init.exit ∨ ∃ s code, c.stages u = some s ∧
      c.controller.written? s = some code ∧ d.controller.init.exit = some code := by
  cases turn with
  | work place step =>
    refine (LocalController.work_of_step? step).exit_eq.imp_right ?_
    rintro ⟨code, writes, exit⟩
    exact ⟨_, code, place, writes, exit⟩
  | _ => exact .inl rfl

/-- A recorded exit stays. -/
theorem Reachable.exit_stays (reachable : Reachable c d) (sound : c.Sound) (guarded : c.Guarded)
    (exit : c.controller.init.exit = some code) : d.controller.init.exit = some code := by
  induction reachable with
  | refl => exact exit
  | pass _ _ ih => exact ih
  | turn u reachable turn ih =>
    cases turn with
    | work place step =>
      exact (LocalController.work_of_step? step).exit_stays
        ((reachable.guarded sound guarded).tells place) ih
    | _ => exact ih

/-- In the run from `start` to `c`, a wait has taken the child. -/
def Taken (start c : LocalInterleaving) : Prop :=
  ∃ a b u id pid, Reachable start a ∧ a.stages u = some (.arriving id) ∧ a.Turn u b ∧
    b.stages u = some (.awaiting id pid) ∧ Reachable b c

theorem Taken.turn (taken : Taken start c) (turn : c.Turn u d) : Taken start d := by
  obtain ⟨a, b, v, id, pid, before, place, takes, place', after⟩ := taken
  exact ⟨a, b, v, id, pid, before, place, takes, place', after.turn u turn⟩

theorem Taken.pass {host : Host} (taken : Taken start c)
    (evolves : c.controller.host.Evolves host) :
    Taken start { c with controller := { c.controller with host } } := by
  obtain ⟨a, b, v, id, pid, before, place, takes, place', after⟩ := taken
  exact ⟨a, b, v, id, pid, before, place, takes, place', after.pass evolves⟩

/-- A child that is missing was taken. -/
theorem Reachable.taken (reachable : Reachable start c) (kept : ¬ start.controller.Missing)
    (missing : c.controller.Missing) : Taken start c := by
  induction reachable with
  | refl => exact absurd missing kept
  | pass _ evolves ih => exact (ih ⟨missing.pid, missing.child, missing.exit⟩).pass evolves
  | @turn c d u reachable turn ih =>
    cases id turn with
    | work place step =>
      rcases (LocalController.work_of_step? step).child_missing missing with
        before | ⟨id, pid, rfl, rfl⟩
      · exact (ih before).turn turn
      · exact ⟨c, _, u, id, pid, reachable, place, turn, stages_setStage .., .refl⟩
    | _ => exact (ih missing).turn turn

/-! ## The books -/

/-- What the books say of the init process, whoever is at work. -/
structure Booked (c : LocalInterleaving) : Prop where
  /-- One init process at most was started, and it is the one in the books. -/
  started : c.initPids = c.controller.init.pid.toList
  /-- It is a child in the host. -/
  child : ∀ pid ∈ c.initPids, ∃ l, c.controller.host.Child pid l
  /-- A waiter that has the child has the init process, which then lies in no slot, and nobody else
  has it. -/
  held : ∀ {u : Caller} {pid : Nat}, c.Holds u pid → c.controller.init.pid = some pid ∧
    c.controller.init.child = none ∧ ∀ {v : Caller} {q : Nat}, c.Holds v q → v = u
  /-- A child in the slot is the init process, and its exit is not recorded. -/
  slot : ∀ {pid : Nat}, c.controller.init.child = some pid →
    c.controller.init.pid = some pid ∧ c.controller.init.exit = none
  /-- Who is to write the exit finds none recorded, and writes how the init process has ended. -/
  writes : ∀ {u : Caller} {s : LocalStage} {code : Int32}, c.stages u = some s →
    c.controller.written? s = some code → c.controller.init.exit = none ∧
      ∃ pid e, c.controller.init.pid = some pid ∧ c.controller.host.Child pid (.ended e) ∧
        code = exitCodeOf e
  /-- A wait that succeeds gives the recorded code. -/
  waited : ∀ {u : Caller} {code : Int32}, c.stages u = some (.finished (.ok (.code code))) →
    c.controller.init.exit = some code

theorem Sound.booked (sound : c.Sound) (guarded : c.Guarded) : c.Booked where
  started := sound.initPids
  child pid mem := by
    rw [sound.initPids] at mem
    exact (sound.tidy.init (Option.mem_toList.mp mem)).imp fun _ there => there.1
  held holds :=
    ⟨(sound.holds holds).1, (sound.holds holds).2, fun other => guarded.alone holds other⟩
  slot := sound.tidy.slot
  writes {u s code} place writes := by
    cases s with
    | recording id pid code =>
      cases writes
      obtain ⟨unseen, e, child, rfl⟩ := guarded.tells place
      exact ⟨unseen, pid, e, (sound.fits place).1, child, rfl⟩
    | begin call =>
      cases call with
      | delete id =>
        obtain ⟨pid, child, e, live, held, ended, rfl⟩ := LocalController.written?_delete writes
        obtain ⟨born, unseen⟩ := LocalController.livePid?_eq_some.mp live
        obtain ⟨l, there, -⟩ := sound.tidy.init born
        cases born.symm.trans (sound.tidy.slot held).1
        exact ⟨unseen, pid, e, born, (there.ending?_eq_some.mp ended) ▸ there, rfl⟩
      | _ => cases writes
    | _ => cases writes
  waited place := guarded.tells place

/-- **The books of a controller.** Whatever callers of a fresh controller do, any number of them
waiting, and whenever the host ends its processes:

- The books are in order: one init process at most, one holder of its child at most, and an exit
  that is written where none is recorded, after the init process has ended (`Booked`).
- A turn adds one child to the host at most, and the controller reports it and knows it. An init
  process is added only by a start that finds none in the books, and is in them from then on
  (`Starts`).
- No other turn changes the exit, and neither the init process nor a recorded exit changes any more.
  So the exit is written once at most, and all waits that ever succeed give the same code.
- A wait that fails when it begins finds no process, and that only if none was started, or if
  another wait has taken the child and no exit is recorded. A waiter that has the child fails with
  an error of the system only. -/
theorem books_kept (launch : ExecOptions) {host : Host} (numbered : host.Numbered)
    (reachable : Reachable (fresh launch host) c) :
    c.Booked ∧
    (∀ {u : Caller} {d : LocalInterleaving}, c.Turn u d → c.Starts u d) ∧
    (∀ {u : Caller} {d : LocalInterleaving}, c.Turn u d →
      d.controller.init.exit = c.controller.init.exit ∨ ∃ s code, c.stages u = some s ∧
        c.controller.written? s = some code ∧ d.controller.init.exit = some code) ∧
    (∀ {d : LocalInterleaving}, Reachable c d →
      (∀ {pid : Nat}, c.controller.init.pid = some pid → d.controller.init.pid = some pid) ∧
      ∀ {code : Int32}, c.controller.init.exit = some code →
        d.controller.init.exit = some code) ∧
    (∀ {u : Caller} {id : String} {e : ControllerError} {d : LocalInterleaving},
      c.stages u = some (.arriving id) → c.Turn u d → d.stages u = some (.finished (.error e)) →
      e = .notFound id ∧ (c.controller.init.pid = none ∨
        Taken (fresh launch host) c ∧ c.controller.init.exit = none)) ∧
    ∀ {u : Caller} {s : LocalStage} {pid : Nat} {controller : LocalController}
      {ns : List Notice} {e : ControllerError}, c.stages u = some s → s.held? = some pid →
      c.controller.step? s = some (controller, .finished (.error e), ns) →
      ∃ reason, e = .io reason := by
  have sound := reachable.sound (sound_fresh launch numbered)
  have guarded := reachable.guarded (sound_fresh launch numbered) (guarded_fresh launch host)
  refine ⟨sound.booked guarded, Turn.starts sound, Turn.exit_eq,
    fun later => ⟨(later.later sound).pid, later.exit_stays sound guarded⟩,
    fun {u id e d} place turn failed => ?_,
    fun _ held step => LocalController.eq_io_of_held held step⟩
  cases turn with
  | call _ free | wait _ free => exact nomatch free.symm.trans place
  | leave past => exact nomatch past.symm.trans place
  | fault _ past asks => cases past.symm.trans place; cases asks
  | @work s s' controller ns here step =>
    cases here.symm.trans place
    cases (stages_setStage ..).symm.trans failed
    obtain ⟨rfl, unrecorded, gone⟩ := LocalController.eq_notFound_of_arriving step
    refine ⟨rfl, or_iff_not_imp_left.mpr fun born => ⟨?_, unrecorded⟩⟩
    exact reachable.taken (fun missing => missing.pid rfl) ⟨born, gone, unrecorded⟩

/-- `/bin/true` is started, and two callers wait for it. The one that comes first has the child, the
other one finds none; a third one comes when it is over. -/
theorem books_kept_threeWaits :
    ∃ c, Reachable (fresh { args := ["/bin/true"] } {}) c ∧ c.initPids = [100] ∧
      c.controller.host.children = [100] ∧ c.stages 1 = some (.finished (.ok (.code 0))) ∧
      c.stages 2 = some (.finished (.error (.notFound "web"))) ∧
      c.stages 3 = some (.finished (.ok (.code 0))) ∧ c.controller.init.exit = some 0 := by
  have started : Reachable (fresh { args := ["/bin/true"] } {}) _ :=
    (Reachable.refl.turn 0 (.call (.start "web") rfl)).turn 0
      (.work (stages_setStage ..) (LocalController.step?_startTrue "web"))
  have taken := (started.turn 1 (.wait "web" rfl)).turn 1 (.work (stages_setStage ..) rfl)
  have refused := (taken.turn 2 (.wait "web" rfl)).turn 2 (.work (stages_setStage ..) rfl)
  have ticked : LocalController.ofTrue.host.tick? = some _ := rfl
  have numbered := (refused.sound (sound_fresh _ Host.numbered_empty)).tidy.numbered
  have passed := refused.pass
    (Host.proceeds_tick numbered LocalController.private_ofTrue ticked).toEvolves
  have seen := passed.turn 1 (.work (s := .awaiting "web" 100) rfl rfl)
  have recorded := seen.turn 1 (.work (stages_setStage ..) rfl)
  have returned := recorded.turn 1 (.work (stages_setStage ..) rfl)
  have answered := (returned.turn 3 (.wait "web" rfl)).turn 3 (.work (stages_setStage ..) rfl)
  exact ⟨_, answered, rfl, rfl, rfl, rfl, rfl,
    (books_kept _ Host.numbered_empty answered).1.waited (u := 1) rfl⟩

end LocalInterleaving

end ContainerInit
