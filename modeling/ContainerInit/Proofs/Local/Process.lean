import ContainerInit.Local.Session
import ContainerInit.Proofs.InitProcess.Ends
import ContainerInit.Proofs.InitProcess.Frames
import ContainerInit.Proofs.Local.Order

/-!
# An init process over a local controller

What a computation on an init process does to its controller when that is a local one, and to the
process.

- **Calls** (`call_of_signalOf?`, `call_start`): sending a signal touches nothing but the host, and
  a start that succeeds starts one process.
- **Local controllers** (`operate_local`, `setExited_local`): an accepted operation is the call of
  the controller, whatever that gives, and the report of an exit is a change of the slot.
-/

namespace ContainerInit

open InitProcess (Core)

/-! ## Local controllers -/

namespace LocalController

variable {c : LocalController}

/-- A call that sends a signal changes the host, if anything, and that is an evolution. -/
theorem call_of_signalOf? {call : Call} {signal : Signal} {group : Bool}
    (sends : signalOf? call = some (signal, group)) :
    ∃ host, c.host.Evolves host ∧ (c.call call).controller = { c with host } := by
  have same : (c.call call).controller = (c.signal call.id signal group).controller := by
    cases call <;> cases sends <;> rfl
  rw [same]
  cases live : c.livePid? with
  | none => exact ⟨c.host, .refl _, by rw [LocalController.signal, live]; rfl⟩
  | some pid =>
    rcases controller_signal live with unchanged | ⟨host, sent, changed⟩
    · exact ⟨c.host, .refl _, unchanged⟩
    · exact ⟨host, Host.evolves_signal sent, changed⟩

/-- A process whose exit is recorded can be deleted. -/
theorem call_delete_of_exit (id : String) (exit : c.init.exit ≠ none) :
    (c.call (.delete id)).result = .ok .done := by
  have past := livePid?_of_exit exit
  simp [call, chain, releaseInit, past, drain]

/-- A process that somebody else has taken, and whose exit is not recorded, cannot be deleted. -/
theorem call_delete_of_taken (id : String) (born : c.init.pid ≠ none) (exit : c.init.exit = none)
    (taken : c.init.child = none) :
    (c.call (.delete id)).result = .error (.stillRunning id) ∧
      (c.call (.delete id)).controller = c := by
  obtain ⟨pid, some⟩ := Option.ne_none_iff_exists'.mp born
  have live := livePid?_eq_some.mpr ⟨some, exit⟩
  simp [call, chain, releaseInit, live, taken, Section.refuse]

/-- The start of a process that succeeds, starts one. -/
theorem call_start {launch : ExecOptions} {host : Host} {id : String} {a : Answer}
    (started : (call { launch, host } (.start id)).result = .ok a) :
    ∃ pid, (call { launch, host } (.start id)).controller.init = ⟨some pid, some pid, none⟩ := by
  simp only [call, start, Option.isSome_none, Bool.false_eq_true, if_false] at started ⊢
  cases launched : host.launch launch true with
  | error e => rw [launched] at started; cases started
  | ok found => exact ⟨found.1, rfl⟩

end LocalController

namespace InitProcess

open Run

variable {p q : LocalProcess} {k : Core}

theorem asController_eq_ok {call : Call} {outcome : Except ControllerError Answer}
    (h : LocalController.asController call p = .ok (outcome, q)) :
    q.id = p.id ∧ q.controller = (p.controller.call call).controller ∧
      outcome = (p.controller.call call).result := by
  cases h
  exact ⟨rfl, rfl, rfl⟩

theorem written_asController {call : Call} {outcome : Except ControllerError Answer}
    (h : LocalController.asController call p = .ok (outcome, q)) :
    q.controller.host.written = p.controller.host.written := by
  rw [(asController_eq_ok h).2.1]
  exact (LocalController.runs_call p.controller call).written

/-- No operation on the process writes anything. -/
theorem written_operate {r : Request} {a : Except LifecycleError Answer}
    (h : operate LocalController.asController r p = .ok (a, q)) :
    q.controller.host.written = p.controller.host.written := by
  rcases operate_eq_ok h with ⟨same, -⟩ | ⟨_, p', _, q', -, before, answered, after, -⟩
  · rw [same.controller]
  · rw [after.controller, written_asController answered, before.controller]

/-- Nor does the report of an exit. -/
theorem written_setExited {code : Int32} {u : Unit}
    (h : setExited LocalController.asController code p = .ok (u, q)) :
    q.controller.host.written = p.controller.host.written := by
  rcases setExited_eq_ok h with same | ⟨p', _, q', before, answered, after⟩
  · rw [same.controller]
  · rw [after.controller, written_asController answered, before.controller]

/-- A call of a local controller changes nothing that the calls of the process depend on. -/
theorem ends_asController (call : Call) :
    Ends k (LocalController.asController call) fun _ k' => ∃ told, k' = { k with told } := by
  rintro p rfl
  exact ⟨_, _, rfl, _, rfl⟩

/-- **An accepted operation is the call of the local controller.** -/
theorem operate_local {r : Request} {next : Option State} {call : Call} (free : p.busy = false)
    (accepted : p.slot.state.dispatch r.operation = .ok (.delegate next))
    (asks : r.call? p.id = some call) :
    ∃ q, operate LocalController.asController r p =
        .ok ((p.controller.call call).result.mapError .controller, q) ∧
      q.id = p.id ∧ q.busy = false ∧ q.controller = (p.controller.call call).controller ∧
      q.slot = p.slot.afterEffect (p.controller.call call).result next := by
  have ends : Ends p.core (operate LocalController.asController r) fun a k =>
      ∃ outcome : Except ControllerError Answer, a = outcome.mapError .controller ∧
        k.busy = false ∧ k.slot = p.slot.afterEffect outcome next := by
    refine ends_operate_delegate free accepted asks ((ends_asController call).mono ?_)
    rintro outcome _ ⟨told, rfl⟩
    refine ⟨outcome, rfl, rfl, ?_⟩
    cases outcome with
    | error e => cases next <;> rfl
    | ok a =>
      cases next with
      | none => rfl
      | some target =>
        have edge := State.mayBecome_of_dispatch accepted
        rw [Core.conclude_of_mayBecome edge]
        rfl
  obtain ⟨a, q, ran, outcome, rfl, unlocked, slot⟩ := ends p rfl
  rcases operate_eq_ok ran with ⟨-, rejection, rejected⟩ |
    ⟨call', p', outcome', q', asks', before, answered, after, result⟩
  · cases outcome <;> cases rejected
  · cases asks.symm.trans asks'
    obtain ⟨id, controller, rfl⟩ := asController_eq_ok answered
    rw [before.controller] at controller
    have same : outcome = (p.controller.call call).result := by
      rw [before.controller] at result
      cases outcome <;> cases given : (p.controller.call call).result <;> rw [given] at result <;>
        cases result <;> rfl
    exact ⟨q, same ▸ ran, after.id.trans (id.trans before.id), unlocked,
      after.controller.trans controller, same ▸ slot⟩

/-- **The report of an exit stops a process that runs, and sends a signal at most.** -/
theorem setExited_local (code : Int32) (unseen : p.slot.exit = none)
    (stops : p.slot.state.onExit = .stop) :
    ∃ q moment, setExited LocalController.asController code p = .ok ((), q) ∧
      q.id = p.id ∧ q.busy = p.busy ∧ q.slot = ⟨.stopped, some ⟨code, moment⟩⟩ ∧
      ∃ host, p.controller.host.Evolves host ∧ q.controller = { p.controller with host } := by
  have ends : Ends p.core (setExited LocalController.asController code) fun _ k =>
      ∃ moment, k.id = p.id ∧ k.busy = p.busy ∧ k.slot = ⟨.stopped, some ⟨code, moment⟩⟩ := by
    refine (ends_setExited unseen stops).mono ?_
    rintro _ _ ⟨moment, rfl⟩
    exact ⟨moment, rfl, rfl, rfl⟩
  obtain ⟨⟨⟩, q, ran, moment, id, busy, slot⟩ := ends p rfl
  refine ⟨q, moment, ran, id, busy, slot, ?_⟩
  rcases setExited_eq_ok ran with same | ⟨p', outcome, q', before, answered, after⟩
  · exact ⟨p.controller.host, .refl _, same.controller⟩
  · obtain ⟨-, controller, -⟩ := asController_eq_ok answered
    have sends : LocalController.signalOf? (.resume p.id) = some (.resume, true) := rfl
    obtain ⟨host, evolves, resumed⟩ := LocalController.call_of_signalOf? (c := p.controller) sends
    rw [before.controller, resumed] at controller
    exact ⟨host, evolves, after.controller.trans controller⟩

end InitProcess

end ContainerInit
