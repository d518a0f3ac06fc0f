import ContainerInit.Proofs.Interleaving.Schedule
import ContainerInit.Proofs.Interleaving.Sound
import ContainerInit.Proofs.Local.Callers

/-!
# An init process over a local controller

Callers at work on an init process whose controller is a local one, with everything that they do
there section by section.

- **Steps** (`Joint.Step`): a step of a caller on the process; the call of the controller that an
  operation or a resume makes, one section after the other; a wait for the child, which goes past
  the process; and whatever the host does. The controller does not act on the process.
- **Projections** (`Step.process`, `Step.under`): each step is one of the process or none, and one
  of the controller or none. So all that holds of either alone holds of both together.
- **Service** (`Joint.Sound.serves`): a call of the controller serves the innermost call of its
  caller, and a wait that of nobody.
-/

namespace ContainerInit

/-- The call that the controller is at. -/
def Stage.call? (id : String) : Stage → Option Call
  | .performing _ call _ _ => some call
  | .resuming _ => some (.resume id)
  | _ => none

/-- The stage is one of the given call. -/
def LocalStage.Serves (call : Call) : LocalStage → Prop
  | .begin c => c = call
  | .draining id => call = .delete id
  | .opening id execId options => call = .exec id execId options
  | .finished _ => True
  | _ => False

/-- The stage is one of a wait. -/
def LocalStage.IsWait : LocalStage → Prop
  | .arriving _ | .awaiting .. | .recording .. | .releasing .. | .finished _ => True
  | _ => False

/-- An init process and its controller, with their callers. -/
structure Joint where
  process : Interleaving
  under : LocalInterleaving

namespace Joint

/-- A new process over a new controller. -/
def fresh (id : String) (moments : Nat → Moment) (launch : ExecOptions) (host : Host) : Joint :=
  ⟨.initial id .created moments, .fresh launch host⟩

/-- What can happen. -/
inductive Step (c : Joint) : Joint → Prop
  /-- A caller whose controller is not at work takes a step on the process. -/
  | act {u : Caller} {choice : Choice} {process : Interleaving} (idle : c.under.stages u = none)
    (own : ∀ f outer, c.process.frames u = f :: outer → f.stage.isPerforming = false)
    (step : c.process.step? u choice = some process) : Step c { c with process }
  /-- The controller is called. -/
  | consult {u : Caller} {f : Frame} {outer : List Frame} {call : Call}
    (top : c.process.frames u = f :: outer) (asks : f.stage.call? c.process.id = some call)
    (idle : c.under.stages u = none) :
    Step c { c with under := c.under.setStage u (some (.begin call)) }
  /-- A caller that is in no call of the process begins to wait for the child. -/
  | wait {u : Caller} (id : String) (free : c.process.frames u = [])
    (idle : c.under.stages u = none) :
    Step c { c with under := c.under.setStage u (some (.arriving id)) }
  /-- A call of the controller or a wait goes on. -/
  | work {u : Caller} {s s' : LocalStage} {under : LocalInterleaving} (turn : c.under.Turn u under)
    (before : c.under.stages u = some s) (after : under.stages u = some s') :
    Step c { c with under }
  /-- The controller returns to the process. -/
  | answer {u : Caller} {outcome : Except ControllerError Answer} {process : Interleaving}
    (past : c.under.stages u = some (.finished (outcome.map .answer)))
    (step : c.process.step? u (.finish outcome) = some process) :
    Step c ⟨process, c.under.setStage u none⟩
  /-- A wait returns. -/
  | leave {u : Caller} {result : Except ControllerError Yield}
    (past : c.under.stages u = some (.finished result)) (free : c.process.frames u = []) :
    Step c { c with under := c.under.setStage u none }
  /-- The host goes on, and starts nothing for the controller. -/
  | pass {host : Host} (proceeds : c.under.controller.host.Proceeds host) :
    Step c { c with under := { c.under with controller := { c.under.controller with host } } }

/-- What steps lead to. -/
inductive Reachable (start : Joint) : Joint → Prop
  | refl : Reachable start start
  | step {c d : Joint} (reachable : Reachable start c) (step : c.Step d) : Reachable start d

variable {c d : Joint}

/-! ## Projections -/

theorem Step.process (step : c.Step d) :
    d.process = c.process ∨ ∃ u choice, c.process.step? u choice = some d.process := by
  cases step with
  | act _ _ step => exact .inr ⟨_, _, step⟩
  | answer _ step => exact .inr ⟨_, _, step⟩
  | _ => exact .inl rfl

theorem Step.under (step : c.Step d) :
    d.under = c.under ∨ (∃ u, c.under.Turn u d.under) ∨
      ∃ host, c.under.controller.host.Proceeds host ∧
        d.under = { c.under with controller := { c.under.controller with host } } := by
  cases step with
  | act => exact .inl rfl
  | consult _ _ idle => exact .inr (.inl ⟨_, .call _ idle⟩)
  | wait id _ idle => exact .inr (.inl ⟨_, .wait id idle⟩)
  | work turn => exact .inr (.inl ⟨_, turn⟩)
  | answer past => exact .inr (.inl ⟨_, .leave past⟩)
  | leave past => exact .inr (.inl ⟨_, .leave past⟩)
  | pass proceeds => exact .inr (.inr ⟨_, proceeds, rfl⟩)

/-! ## Service -/

/-- What holds of the process and its controller together. -/
structure Sound (c : Joint) : Prop where
  process : c.process.Sound
  under : c.under.Sound
  serves : ∀ {u : Caller} {s : LocalStage}, c.under.stages u = some s →
    (∃ f outer call, c.process.frames u = f :: outer ∧ f.stage.call? c.process.id = some call ∧
      s.Serves call) ∨
    c.process.frames u = [] ∧ s.IsWait

theorem sound_fresh (id : String) (moments : Nat → Moment) (launch : ExecOptions) {host : Host}
    (numbered : host.Numbered) : (fresh id moments launch host).Sound :=
  ⟨Interleaving.sound_initial id .created moments, LocalInterleaving.sound_fresh launch numbered,
    nofun⟩

end Joint

namespace LocalController.Work

variable {c c' : LocalController} {s s' : LocalStage} {ns : List Notice}

/-- A call goes on with what it is about. -/
theorem serves (work : Work c s c' s' ns) {call : Call} (serves : s.Serves call) :
    s'.Serves call := by
  cases work with
  | forget | release | check => exact serves.symm
  | take | see | record => cases serves
  | _ => trivial

theorem isWait (work : Work c s c' s' ns) (wait : s.IsWait) : s'.IsWait := by
  cases work with
  | forget | release | check => cases wait
  | _ => trivial

end LocalController.Work

namespace Joint

variable {c d : Joint}

/-- The stage of a call in the middle of it, after a turn. -/
theorem serves_of_turn {under under' : LocalInterleaving} {u : Caller} {s s' : LocalStage}
    (turn : under.Turn u under') (before : under.stages u = some s)
    (after : under'.stages u = some s') :
    (∀ call, s.Serves call → s'.Serves call) ∧ (s.IsWait → s'.IsWait) := by
  cases turn with
  | call _ free | wait _ free => exact nomatch free.symm.trans before
  | leave => exact nomatch (LocalInterleaving.stages_setStage ..).symm.trans after
  | work place step =>
    cases place.symm.trans before
    cases (LocalInterleaving.stages_setStage ..).symm.trans after
    have work := LocalController.work_of_step? step
    exact ⟨fun call => work.serves, work.isWait⟩
  | fault e place =>
    cases (LocalInterleaving.stages_setStage ..).symm.trans after
    exact ⟨fun _ _ => trivial, fun _ => trivial⟩

/-- What the controller does for a caller is not touched by a step of the process. -/
theorem Sound.serves_of_step? (sound : c.Sound) {u v : Caller} {choice : Choice}
    {process : Interleaving} (step : c.process.step? u choice = some process) (other : v ≠ u)
    {s : LocalStage} (place : c.under.stages v = some s) :
    (∃ f outer call, process.frames v = f :: outer ∧ f.stage.call? process.id = some call ∧
      s.Serves call) ∨ process.frames v = [] ∧ s.IsWait := by
  rw [Interleaving.frames_of_step? step other,
    ((sound.process.move step).change sound.process.numbered).id_eq]
  exact sound.serves place

/-- **Every step keeps process and controller together.** -/
theorem Sound.step (sound : c.Sound) (step : c.Step d) : d.Sound := by
  refine ⟨?_, ?_, fun {v s} place => ?_⟩
  · rcases step.process with same | ⟨u, choice, taken⟩
    · rw [same]
      exact sound.process
    · exact sound.process.of_move (sound.process.move taken)
  · rcases step.under with same | ⟨u, turn⟩ | ⟨host, proceeds, same⟩
    · rw [same]
      exact sound.under
    · exact sound.under.turn turn
    · rw [same]
      exact sound.under.pass proceeds.toEvolves
  · cases step with
    | act idle own taken =>
      refine sound.serves_of_step? taken (fun same => ?_) place
      subst same
      exact nomatch idle.symm.trans place
    | answer past taken =>
      simp only [LocalInterleaving.setStage] at place
      split at place
      · cases place
      · exact sound.serves_of_step? taken ‹_› place
    | @consult u f outer call top asks idle =>
      simp only [LocalInterleaving.setStage] at place
      split at place
      · rename_i same
        cases place
        exact .inl ⟨f, outer, call, same ▸ top, asks, rfl⟩
      · exact sound.serves place
    | wait id free idle =>
      simp only [LocalInterleaving.setStage] at place
      split at place
      · rename_i same
        cases place
        exact .inr ⟨same ▸ free, trivial⟩
      · exact sound.serves place
    | leave past free =>
      simp only [LocalInterleaving.setStage] at place
      split at place
      · cases place
      · exact sound.serves place
    | @work u before after under turn was is =>
      by_cases same : v = u
      · subst same
        cases is.symm.trans place
        obtain ⟨serves, waits⟩ := serves_of_turn turn was is
        refine (sound.serves was).imp ?_ (And.imp_right waits)
        rintro ⟨f, outer, call, top, asks, fits⟩
        exact ⟨f, outer, call, top, asks, serves call fits⟩
      · exact sound.serves (turn.stages_other same ▸ place)
    | pass => exact sound.serves place

namespace Reachable

variable {start : Joint}

theorem trans (first : Reachable start c) (second : Reachable c d) : Reachable start d := by
  induction second with
  | refl => exact first
  | step _ step ih => exact .step ih step

theorem sound (reachable : Reachable start c) (sound : start.Sound) : c.Sound := by
  induction reachable with
  | refl => exact sound
  | step _ step ih => exact ih.step step

end Reachable

end Joint

/-! ## One caller at work -/

namespace Interleaving

/-- What a caller does on a process one step after the other, while its controller is not at
work. -/
def acts? (c : Interleaving) (u : Caller) : List Choice → Option Interleaving
  | [] => some c
  | choice :: rest =>
    if (c.frames u).head?.all fun f => !f.stage.isPerforming then
      match c.step? u choice with
      | none => none
      | some d => d.acts? u rest
    else none

end Interleaving

namespace Joint

variable {c : Joint} {u : Caller} {process : Interleaving}

theorem reachable_of_acts? {choices : List Choice} (idle : c.under.stages u = none)
    (h : c.process.acts? u choices = some process) : Reachable c { c with process } := by
  induction choices generalizing c with
  | nil => cases h; exact .refl
  | cons choice rest ih =>
    unfold Interleaving.acts? at h
    split at h
    · rename_i own
      split at h
      · cases h
      · rename_i d taken
        have step : c.Step { c with process := d } := .act idle (fun f outer top => by
          rw [top] at own
          simpa using own) taken
        exact (Reachable.refl.step step).trans (ih idle h)
    · cases h

theorem reachable_of_runs (process : Interleaving) (under : LocalInterleaving)
    {controller : LocalController} {s s' : LocalStage} {ns : List Notice}
    (runs : under.controller.Runs s controller s' ns)
    (place : under.stages u = some s) :
    ∃ under', Reachable ⟨process, under⟩ ⟨process, under'⟩ ∧ under'.controller = controller ∧
      under'.notices = under.notices ++ ns ∧ under'.stages u = some s' ∧
      ∀ v, v ≠ u → under'.stages v = under.stages v := by
  generalize start : under.controller = old at runs
  induction runs generalizing under with
  | refl => exact ⟨under, .refl, start, (List.append_nil _).symm, place, fun _ _ => rfl⟩
  | @step c c' c'' s s' s'' ns ns' first rest ih =>
    subst start
    have turn := LocalInterleaving.Turn.work place first
    obtain ⟨under', reachable, known, told, there, other⟩ :=
      ih ({ under with
        controller := c'
        notices := under.notices ++ ns
        kills := under.kills ++ under.controller.issued s }.setStage u (some s'))
        (LocalInterleaving.stages_setStage ..) rfl
    have stepped : Step ⟨process, under⟩ ⟨process, _⟩ :=
      .work turn place (LocalInterleaving.stages_setStage ..)
    refine ⟨under', (Reachable.refl.step stepped).trans reachable, known, ?_, there,
      fun v apart => (other v apart).trans (turn.stages_other apart)⟩
    rw [told]
    exact List.append_assoc ..

/-- The controller does what it is called for with nobody in between. -/
theorem Reachable.call {start : Joint} (reachable : Reachable start c) {call : Call}
    {s : Section Answer} (done : c.under.controller.call call = s) (idle : c.under.stages u = none)
    (asks : (c.process.frames u).head?.bind (·.stage.call? c.process.id) = some call)
    (answered : c.process.step? u (.finish s.result) = some process) :
    ∃ kills, Reachable start ⟨process, { c.under with
      controller := s.controller, notices := c.under.notices ++ s.notices, kills }⟩ := by
  subst done
  obtain ⟨f, first, asks⟩ := Option.bind_eq_some_iff.mp asks
  obtain ⟨outer, top⟩ := List.head?_eq_some_iff.mp first
  have called : c.Step { c with under := c.under.setStage u (some (.begin call)) } :=
    .consult top asks idle
  obtain ⟨⟨controller, stages, notices, kills⟩, ran, known, told, there, other⟩ :=
    reachable_of_runs c.process (c.under.setStage u (some (.begin call)))
      (c.under.controller.runs_call call) (LocalInterleaving.stages_setStage ..)
  cases known
  cases told
  have back := ((reachable.step called).trans ran).step (.answer there answered)
  have same : (fun v => if v = u then none else stages v) = c.under.stages := by
    funext v
    split
    · rename_i here
      exact here ▸ idle.symm
    · exact (other v ‹_›).trans (if_neg ‹_›)
  unfold LocalInterleaving.setStage at back
  rw [same] at back
  exact ⟨kills, back⟩

end Joint

end ContainerInit
