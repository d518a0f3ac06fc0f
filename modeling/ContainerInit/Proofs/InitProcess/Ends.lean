import ContainerInit.InitProcess

/-!
# How a computation on a process ends

Computations on an init process write to the log, emit events and read the clock. What they do to
the rest of the process, its `Core`, does not depend on any of this; nor does what they tell the
sink, up to the times of the events.

- **Messages** (`Message`, `InitProcess.told`): what the sink has received, whether it keeps the
  events or writes them to the log.
- **Ends** (`Run.Ends`): a computation that is begun in any process with a given core returns, and
  what it returns and leaves behind is known. There is one rule for each way to put computations
  together (`Ends.ret`, `Ends.bind`, `Ends.read`, `Ends.write`), and for each step of a process
  (`ends_emit`, `ends_withSpan`, `ends_exclusively`, `ends_consult`).
- **Calls** (`ends_operate_reject`, `ends_operate_delegate`, `ends_setExited_ignore`,
  `ends_setExited`, `ends_setExited_frozen`): what a call does, given what the controller does in
  it; `ends_operate` is the case of a controller that only answers.
-/

namespace ContainerInit

/-- An event without its time. -/
structure Message where
  severity : Severity
  id : String
  payload : Payload
  deriving DecidableEq

/-- The message of an event. -/
def Event.message (e : Event) : Message :=
  ⟨e.severity, e.id, e.payload⟩

/-- The message of an event that was written to the log. -/
def LogEntry.message? : LogEntry → Option Message
  | .notice (.lifecycleEvent id payload severity) => some ⟨severity, id, payload⟩
  | _ => none

/-- What the sink of a process has received, oldest first. -/
def InitProcess.told {κ : Type} (p : InitProcess κ) : List Message :=
  match p.sink with
  | .memory => p.events.events.map Event.message
  | .log => p.log.filterMap LogEntry.message?

/-- The part of a process that its calls depend on, and what it has told its sink. -/
structure InitProcess.Core where
  id : String
  slot : Slot
  busy : Bool
  calls : List Call
  told : List Message

/-- The core of a process. -/
def InitProcess.core {κ : Type} (p : InitProcess κ) : InitProcess.Core :=
  ⟨p.id, p.slot, p.busy, p.calls, p.told⟩

namespace InitProcess.Core

/-- One more event is told. -/
def tell (k : Core) (severity : Severity) (payload : Payload) : Core :=
  { k with told := k.told ++ [⟨severity, k.id, payload⟩] }

/-- The end of an operation that was dispatched in the state `source` with the successor `next`,
when its side effect has returned: a failure is told; a successor is installed or, if it may no
longer follow, superseded, and which of the two is told. -/
def conclude (k : Core) (o : Operation) (source : State) :
    Option State → Except ControllerError Answer → Core
  | _, .error e => k.tell .error (.controllerFailed o e.message)
  | none, .ok _ => k
  | some next, .ok _ =>
    if k.slot.state ≠ source ∧ k.slot.state.mayBecome next = false then
      k.tell .info (.transitionSuperseded o next k.slot.state)
    else
      { k with slot := { k.slot with state := next } }.tell .info
        (.stateChanged o k.slot.state next)

/-- Where the table has the edge, the successor is installed. -/
theorem conclude_of_mayBecome {k : Core} {o : Operation} {source next : State} {a : Answer}
    (edge : k.slot.state.mayBecome next = true) :
    k.conclude o source (some next) (.ok a) =
      { k with slot := { k.slot with state := next } }.tell .info
        (.stateChanged o k.slot.state next) := by
  rw [conclude, if_neg fun stale => by rw [edge] at stale; cases stale.2]

/-- Where the table has the edge from the state before but not from the one now, the successor is
superseded. -/
theorem conclude_of_stale {k : Core} {o : Operation} {source next : State} {a : Answer}
    (before : source.mayBecome next = true) (now : k.slot.state.mayBecome next = false) :
    k.conclude o source (some next) (.ok a) =
      k.tell .info (.transitionSuperseded o next k.slot.state) := by
  have changed : k.slot.state ≠ source := by
    rintro rfl
    rw [before] at now
    cases now
  rw [conclude, if_pos ⟨changed, now⟩]

/-- The end of a resume that a report of an exit has brought about: a failure is told. -/
def resumed (k : Core) : Except ControllerError Answer → Core
  | .error e => k.tell .error (.compensatingResumeFailed e.message)
  | .ok _ => k

end InitProcess.Core

namespace Run

variable {κ α β : Type} {k : InitProcess.Core}

/-- Begun in any process with the core `k`, the computation returns, and what it returns and the
core that it leaves behind satisfy `Q`. -/
def Ends (k : InitProcess.Core) (m : Run κ α) (Q : α → InitProcess.Core → Prop) : Prop :=
  ∀ p : InitProcess κ, p.core = k → ∃ a q, m p = .ok (a, q) ∧ Q a q.core

namespace Ends

variable {m : Run κ α} {Q R : α → InitProcess.Core → Prop}

theorem mono (h : Ends k m Q) (hq : ∀ a k', Q a k' → R a k') : Ends k m R := by
  intro p hp
  obtain ⟨a, q, e, hQ⟩ := h p hp
  exact ⟨a, q, e, hq a _ hQ⟩

theorem ret {a : α} (h : Q a k) : Ends k (pure a : Run κ α) Q :=
  fun p hp => ⟨a, p, rfl, hp ▸ h⟩

theorem bind {f : α → Run κ β} {S : β → InitProcess.Core → Prop}
    (h : Ends k m fun a k' => Ends k' (f a) S) : Ends k (m >>= f) S := by
  intro p hp
  obtain ⟨a, q, e, hf⟩ := h p hp
  obtain ⟨b, r, e', hS⟩ := hf q rfl
  refine ⟨b, r, ?_, hS⟩
  rw [← e']
  show (m p >>= fun s => f s.1 s.2) = _
  rw [e]
  rfl

/-- Reading the process. -/
theorem read {f : InitProcess κ → Run κ β} {S : β → InitProcess.Core → Prop}
    (h : ∀ p, p.core = k → Ends k (f p) S) : Ends k (get >>= f) S :=
  bind fun p hp => ⟨p, p, rfl, hp ▸ h p hp⟩

/-- Writing the process. -/
theorem write {f : InitProcess κ → InitProcess κ} {Q : Unit → InitProcess.Core → Prop}
    (h : ∀ p, p.core = k → Q () (f p).core) : Ends k (modify f : Run κ Unit) Q :=
  fun p hp => ⟨(), f p, rfl, h p hp⟩

end Ends

end Run

/-- The slot after a side effect in which nobody else has changed it. -/
def Slot.afterEffect (slot : Slot) : Except ControllerError Answer → Option State → Slot
  | .ok _, some target => { slot with state := target }
  | _, _ => slot

namespace InitProcess

open Run

variable {κ α : Type} {k : Core} {Q : α → Core → Prop}

/-! ## Steps -/

/-- Entries of the log that stand for no event. -/
theorem ends_record {entries : Log} (h : entries.filterMap LogEntry.message? = []) :
    Ends k (record entries : Run κ Unit) fun _ k' => k' = k := by
  refine Ends.write fun p hp => ?_
  have told : ({ p with log := p.log ++ entries } : InitProcess κ).told = p.told := by
    unfold InitProcess.told
    cases p.sink with
    | memory => rfl
    | log => simp only [List.filterMap_append, h, List.append_nil]
  rw [← hp, core, told]
  rfl

theorem ends_emit {severity : Severity} {payload : Payload} :
    Ends k (emit severity payload : Run κ Unit) fun _ k' => k' = k.tell severity payload := by
  refine Ends.write fun p hp => ?_
  rw [← hp]
  cases hs : p.sink with
  | memory => simp [core, Core.tell, told, hs, Event.message]
  | log =>
    simp [core, Core.tell, told, hs, Sink.entries, Notice.ofEvent, LogEntry.message?]

theorem ends_write {slot : Slot} :
    Ends k (modify fun p => { p with slot } : Run κ Unit) fun _ k' => k' = { k with slot } :=
  Ends.write fun p hp => by rw [← hp]; rfl

theorem ends_sleep {millis : Nat} : Ends k (sleep millis : Run κ Unit) fun _ k' => k' = k :=
  Ends.write fun _ hp => hp

theorem ends_withSpan {operation : Operation} {body : Run κ α} (h : Ends k body Q) :
    Ends k (withSpan operation body) Q := by
  refine Ends.read fun opened _ => Ends.bind ((ends_record rfl).mono ?_)
  rintro _ _ rfl
  refine Ends.bind (h.mono fun a k' hQ => Ends.read fun closed _ =>
    Ends.bind ((ends_record ?_).mono ?_))
  · unfold Span.closing
    split <;> rfl
  rintro _ _ rfl
  exact Ends.ret hQ

/-- The only operation on a process is not kept from it. -/
theorem ends_exclusively {body : Run κ α} (free : k.busy = false)
    (h : Ends { k with busy := true } body fun a k' => Q a { k' with busy := false }) :
    Ends k (exclusively body) Q := by
  refine Ends.read fun p hp => ?_
  have hb : p.busy = false := by rw [← free, ← hp]; rfl
  rw [hb, if_neg Bool.false_ne_true]
  refine Ends.bind (Ends.write (Q := fun _ k' => Ends k' _ Q) fun q hq => ?_)
  have hk : ({ q with busy := true } : InitProcess κ).core = { k with busy := true } := by
    rw [← hq]; rfl
  rw [hk]
  refine Ends.bind (h.mono fun a k' hQ => Ends.bind (Ends.write fun r hr => Ends.ret ?_))
  rw [← hr] at hQ
  exact hQ

theorem ends_checked {r : Except Violation α} {a : α} (hr : r = .ok a) (h : Q a k) :
    Ends k (checked r : Run κ α) Q := by
  rw [hr]
  exact Ends.ret h

theorem ends_consult {controller : Controller κ} {call : Call}
    {Q : Except ControllerError Answer → Core → Prop}
    (h : Ends { k with calls := k.calls ++ [call] } (controller call) Q) :
    Ends k (consult controller call) Q := by
  refine Ends.bind (Ends.write fun p hp => ?_)
  have hk : ({ p with calls := p.calls ++ [call] } : InitProcess κ).core =
      { k with calls := k.calls ++ [call] } := by
    rw [← hp]
    rfl
  rwa [hk]

/-! ## Calls -/

/-- A request that is refused changes nothing. -/
theorem ends_operate_reject {controller : Controller κ} {r : Request} {rejection : Rejection}
    (free : k.busy = false) (h : k.slot.state.dispatch r.operation = .error rejection) :
    Ends k (operate controller r) fun a k' => a = .error (.rejected rejection) ∧
      k' = k.tell .info (.operationRejected r.operation rejection.state) := by
  refine ends_withSpan (ends_exclusively free (Ends.read fun p hp => ?_))
  have hd : p.slot.state.dispatch r.operation = .error rejection := by
    rw [show p.slot = k.slot from congrArg Core.slot hp, h]
  simp only [hd]
  refine Ends.bind ((ends_record rfl).mono ?_)
  rintro _ _ rfl
  refine Ends.bind (ends_emit.mono ?_)
  rintro _ _ rfl
  exact Ends.ret ⟨rfl, by rw [← free]; rfl⟩

/-- A commit installs its successor, unless what came between stands. -/
theorem ends_commit {operation : Operation} {source next : State}
    (edge : source.mayBecome next = true) {a : Answer} :
    Ends k (commit operation source next : Run κ Unit) fun _ k' =>
      k' = k.conclude operation source (some next) (.ok a) := by
  refine Ends.read fun p hp => Ends.bind ?_
  have hslot : p.slot = k.slot := congrArg Core.slot hp
  rw [hslot]
  cases now : k.slot.state.mayBecome next with
  | true =>
    rw [Core.conclude_of_mayBecome now]
    refine ends_checked (Slot.commit_of_mayBecome now) (Ends.bind (ends_write.mono ?_))
    rintro _ _ rfl
    exact ends_emit
  | false =>
    rw [Core.conclude_of_stale edge now]
    have changed : k.slot.state ≠ source := by
      intro same
      rw [same, edge] at now
      cases now
    exact ends_checked (Slot.commit_of_ne changed now) ends_emit

/-- A request that is accepted calls the controller, once, and ends with what that leaves behind. -/
theorem ends_operate_delegate {controller : Controller κ} {r : Request} {next : Option State}
    {call : Call} {Q : Except LifecycleError Answer → Core → Prop} (free : k.busy = false)
    (h : k.slot.state.dispatch r.operation = .ok (.delegate next)) (hc : r.call? k.id = some call)
    (effect : Ends { k with busy := true, calls := k.calls ++ [call] } (controller call)
      fun outcome k' => Q (outcome.mapError .controller)
        { k'.conclude r.operation k.slot.state next outcome with busy := false }) :
    Ends k (operate controller r) Q := by
  refine ends_withSpan (ends_exclusively free (Ends.read fun p hp => ?_))
  have hslot : p.slot = k.slot := congrArg Core.slot hp
  have hd : p.slot.state.dispatch r.operation = .ok (.delegate next) := by rw [hslot, h]
  simp only [hd]
  refine Ends.read fun p' hp' => ?_
  have hid : r.call? p'.id = some call := by
    rw [show p'.id = k.id from congrArg Core.id hp', hc]
  simp only [hid]
  refine Ends.bind (ends_consult (effect.mono fun outcome k' hQ => ?_))
  cases outcome with
  | error e =>
    refine Ends.bind ((ends_record rfl).mono ?_)
    rintro _ _ rfl
    refine Ends.bind (ends_emit.mono ?_)
    rintro _ _ rfl
    exact Ends.ret hQ
  | ok a =>
    cases next with
    | none =>
      refine Ends.bind ((ends_record rfl).mono ?_)
      rintro _ _ rfl
      exact Ends.ret hQ
    | some target =>
      rw [hslot]
      refine Ends.bind ((ends_commit (State.mayBecome_of_dispatch h) (a := a)).mono ?_)
      rintro _ _ rfl
      refine Ends.bind ((ends_record rfl).mono ?_)
      rintro _ _ rfl
      exact Ends.ret hQ

/-- A request that is accepted, when the controller only answers. -/
theorem ends_operate {r : Request} {next : Option State} {call : Call}
    {outcome : Except ControllerError Answer} (free : k.busy = false)
    (h : k.slot.state.dispatch r.operation = .ok (.delegate next))
    (hc : r.call? k.id = some call) :
    Ends k (operate (κ := κ) (fun _ => return outcome) r) fun a k' =>
      a = outcome.mapError .controller ∧ ∃ told, k' =
        { k with calls := k.calls ++ [call], slot := k.slot.afterEffect outcome next, told } := by
  refine ends_operate_delegate free h hc (Ends.ret ⟨rfl, ?_⟩)
  cases outcome with
  | error e => exact ⟨_, by rw [← free]; rfl⟩
  | ok a =>
    cases next with
    | none => exact ⟨_, by rw [← free]; rfl⟩
    | some target =>
      rw [Core.conclude_of_mayBecome (k := { k with busy := true, calls := k.calls ++ [call] })
        (State.mayBecome_of_dispatch h)]
      exact ⟨_, by rw [← free]; rfl⟩

/-- A report of an exit that comes too late changes nothing. -/
theorem ends_setExited_ignore {controller : Controller κ} {code : Int32}
    (h : k.slot.exit.isSome = true ∨ k.slot.state.onExit = .ignore) :
    Ends k (setExited controller code) fun _ k' => k' = k := by
  refine ends_withSpan (Ends.read fun p hp => Ends.bind ?_)
  have hp' : p.slot.exit.isSome = true ∨ p.slot.state.onExit = .ignore := by
    rwa [show p.slot = k.slot from congrArg Core.slot hp]
  exact ends_checked (Slot.claim_of_ignore hp') (ends_record rfl)

/-- The first report of the exit of a process that is not frozen stops it. -/
theorem ends_setExited {controller : Controller κ} {code : Int32} (hx : k.slot.exit = none)
    (h : k.slot.state.onExit = .stop) :
    Ends k (setExited controller code) fun _ k' =>
      ∃ moment, k' = ({ k with slot := ⟨.stopped, some ⟨code, moment⟩⟩ }.tell .info
        (.exitRecorded code k.slot.state)).tell .info
          (.stateChanged .setExited k.slot.state .stopped) := by
  refine ends_withSpan (Ends.read fun p hp => Ends.bind ?_)
  have hslot : p.slot = k.slot := congrArg Core.slot hp
  rw [hslot]
  refine ends_checked (Slot.claim_of_stop hx h) (Ends.bind (ends_write.mono ?_))
  rintro _ _ rfl
  refine Ends.bind (ends_emit.mono ?_)
  rintro _ _ rfl
  rw [if_neg Bool.false_ne_true]
  exact ends_emit.mono fun _ k' hk => ⟨Moment.ofMillis p.clock, hk⟩

/-- A frozen process whose exit is recorded is resumed, and stopped whatever became of that. -/
private theorem ends_compensate {controller : Controller κ} {Q : Unit → Core → Prop}
    (effect : Ends { k with calls := k.calls ++ [.resume k.id] } (controller (.resume k.id))
      fun outcome k' => k'.slot.state.mayBecome .stopped = true ∧
        Q () { k'.resumed outcome with slot := { k'.slot with state := .stopped } }) :
    Ends k (compensate controller) Q := by
  refine Ends.read fun p hp => Ends.bind (ends_consult ?_)
  rw [show p.id = k.id from congrArg Core.id hp]
  refine effect.mono fun outcome k' ⟨edge, hQ⟩ => ?_
  have stop : ∀ told, Ends { k' with told } (do
      let slot ← checked (← get).slot.stop
      modify fun p => { p with slot } : Run κ Unit) fun _ k'' =>
        k'' = { k' with slot := { k'.slot with state := .stopped }, told } := by
    intro told
    refine Ends.read fun q hq => Ends.bind ?_
    rw [show q.slot = k'.slot from congrArg Core.slot hq]
    exact ends_checked (Slot.stop_of_mayBecome edge) ends_write
  cases outcome with
  | error e =>
    refine Ends.bind (ends_emit.mono ?_)
    rintro _ _ rfl
    refine (stop _).mono ?_
    rintro _ _ rfl
    exact hQ
  | ok a =>
    refine (stop k'.told).mono ?_
    rintro _ _ rfl
    exact hQ

/-- The first report of the exit of a frozen process resumes it, and then stops it. -/
theorem ends_setExited_frozen {controller : Controller κ} {code : Int32} {Q : Core → Prop}
    (hx : k.slot.exit = none) (h : k.slot.state.onExit = .resumeThenStop)
    (effect : ∀ moment, Ends
      { { k with slot := { k.slot with exit := some ⟨code, moment⟩ } }.tell .info
          (.exitRecorded code k.slot.state) with calls := k.calls ++ [.resume k.id] }
      (controller (.resume k.id)) fun outcome k' => k'.slot.state.mayBecome .stopped = true ∧
        Q ({ k'.resumed outcome with slot := { k'.slot with state := .stopped } }.tell .info
          (.stateChanged .setExited k.slot.state .stopped))) :
    Ends k (setExited controller code) fun _ k' => Q k' := by
  refine ends_withSpan (Ends.read fun p hp => Ends.bind ?_)
  have hslot : p.slot = k.slot := congrArg Core.slot hp
  rw [hslot]
  refine ends_checked (Slot.claim_of_resumeThenStop hx h) (Ends.bind (ends_write.mono ?_))
  rintro _ _ rfl
  refine Ends.bind (ends_emit.mono ?_)
  rintro _ _ rfl
  rw [if_pos rfl]
  refine Ends.bind (ends_compensate ((effect _).mono fun outcome k' ⟨edge, hQ⟩ => ⟨edge, ?_⟩))
  refine ends_emit.mono ?_
  rintro _ _ rfl
  exact hQ

/-- A question is answered from the slot. -/
theorem ends_ask {query : Query} :
    Ends k (ask query : Run κ Reply) fun a k' =>
      a = query.reply ⟨k.id, k.slot.state, k.slot.exit⟩ ∧ k' = k :=
  Ends.read fun p hp => Ends.ret ⟨by rw [← hp]; rfl, rfl⟩

end InitProcess

end ContainerInit
