import ContainerInit.Proofs.InitProcess.Ends

/-!
# The events of nested calls

One caller makes calls, and the controller makes further calls on the same process from inside of
them, to any depth. The sink receives what the calls contribute, neither more nor less, and what it
receives tells the state of the process and its exit (`messages_account`).

- **Scripts** (`Script`): who does what, where each reply decides what comes next. Operations wait
  for each other, so none is allowed inside of an operation (`Script.Allowed`).
- **Contributions** (`Contributes`): what the sink receives from a call, by what became of it. What
  it receives from a script is what it receives from the calls, one after the other
  (`Script.Plays`).
- **Replays** (`Face.replay?`): the state and the exit code, as the events tell them. A process
  whose exit is recorded and that is still frozen is not changed by any call (`Contributes.frozen`),
  so the events of a nested call never contradict those of the call that it is in.
-/

namespace ContainerInit

/-! ## Scripts -/

/-- What a caller does, or a controller that is called. -/
inductive Script where
  /-- It returns. -/
  | finish (outcome : Except ControllerError Answer)
  /-- It takes its time. -/
  | sleep (millis : Nat) (rest : Script)
  /-- It makes a call, in which the controller does what `inner` says, if it is called. -/
  | act (action : Action) (inner : Script) (rest : Reply → Script)

namespace Script

/-- Does what a script says. -/
def run {κ : Type} : Script → Run κ (Except ControllerError Answer)
  | .finish outcome => return outcome
  | .sleep millis rest => do
    InitProcess.sleep millis
    rest.run
  | .act action inner rest => do
    let reply ← InitProcess.perform (fun _ => inner.run) action
    (rest reply).run

/-- No operation is asked for inside of an operation; `busy` tells that one is under way. -/
def Allowed : Bool → Script → Prop
  | _, .finish _ => True
  | busy, .sleep _ rest => rest.Allowed busy
  | busy, .act (.request _) inner rest =>
    busy = false ∧ inner.Allowed true ∧ ∀ reply, (rest reply).Allowed busy
  | busy, .act (.exited _) inner rest =>
    inner.Allowed busy ∧ ∀ reply, (rest reply).Allowed busy
  | busy, .act (.query _) _ rest => ∀ reply, (rest reply).Allowed busy

end Script

/-! ## Contributions -/

section Contributes

variable (id : String)

/-- What is told of a resume that an exit has brought about. -/
def resumeMessages : Except ControllerError Answer → List Message
  | .error e => [⟨.error, id, .compensatingResumeFailed e.message⟩]
  | .ok _ => []

/-- What the sink receives from a call, by what becomes of the call; `effect` is what the controller
does in it, with what the sink receives from that. -/
inductive Contributes
    (effect : Slot → List Message → Except ControllerError Answer → Slot → Prop) :
    Slot → Action → List Message → Reply → Slot → Prop
  | asked {s : Slot} {q : Query} :
    Contributes effect s (.query q) [] (q.reply ⟨id, s.state, s.exit⟩) s
  | rejected {s : Slot} {r : Request} {rejection : Rejection}
    (h : s.state.dispatch r.operation = .error rejection) :
    Contributes effect s (.request r) [⟨.info, id, .operationRejected r.operation s.state⟩]
      (.failed (.rejected rejection)) s
  | failed {s t : Slot} {r : Request} {next : Option State} {messages : List Message}
    {e : ControllerError} (h : s.state.dispatch r.operation = .ok (.delegate next))
    (inner : effect s messages (.error e) t) :
    Contributes effect s (.request r)
      (messages ++ [⟨.error, id, .controllerFailed r.operation e.message⟩])
      (.failed (.controller e)) t
  | performed {s t : Slot} {r : Request} {messages : List Message} {a : Answer}
    (h : s.state.dispatch r.operation = .ok (.delegate none))
    (inner : effect s messages (.ok a) t) :
    Contributes effect s (.request r) messages (.answer a) t
  | installed {s t : Slot} {r : Request} {next : State} {messages : List Message} {a : Answer}
    (h : s.state.dispatch r.operation = .ok (.delegate (some next)))
    (inner : effect s messages (.ok a) t) (edge : t.state.mayBecome next = true) :
    Contributes effect s (.request r)
      (messages ++ [⟨.info, id, .stateChanged r.operation t.state next⟩]) (.answer a)
      { t with state := next }
  | superseded {s t : Slot} {r : Request} {next : State} {messages : List Message} {a : Answer}
    (h : s.state.dispatch r.operation = .ok (.delegate (some next)))
    (inner : effect s messages (.ok a) t) (edge : t.state.mayBecome next = false) :
    Contributes effect s (.request r)
      (messages ++ [⟨.info, id, .transitionSuperseded r.operation next t.state⟩]) (.answer a) t
  | ignored {s : Slot} {code : Int32} (h : s.exit.isSome = true ∨ s.state.onExit = .ignore) :
    Contributes effect s (.exited code) [] (.answer .done) s
  | stopped {s : Slot} {code : Int32} {moment : Moment} (hx : s.exit = none)
    (h : s.state.onExit = .stop) :
    Contributes effect s (.exited code)
      [⟨.info, id, .exitRecorded code s.state⟩,
        ⟨.info, id, .stateChanged .setExited s.state .stopped⟩]
      (.answer .done) ⟨.stopped, some ⟨code, moment⟩⟩
  | thawed {s t : Slot} {code : Int32} {moment : Moment} {messages : List Message}
    {outcome : Except ControllerError Answer} (hx : s.exit = none)
    (h : s.state.onExit = .resumeThenStop)
    (inner : effect { s with exit := some ⟨code, moment⟩ } messages outcome t) :
    Contributes effect s (.exited code)
      (⟨.info, id, .exitRecorded code s.state⟩ :: (messages ++ resumeMessages id outcome ++
        [⟨.info, id, .stateChanged .setExited s.state .stopped⟩]))
      (.answer .done) { t with state := .stopped }

/-- What the sink receives from a script, and what the script makes of the slot. -/
def Script.Plays : Script → Slot → List Message → Except ControllerError Answer → Slot → Prop
  | .finish outcome, s, messages, outcome', t => messages = [] ∧ outcome' = outcome ∧ t = s
  | .sleep _ rest, s, messages, outcome, t => rest.Plays s messages outcome t
  | .act action inner rest, s, messages, outcome, t => ∃ first reply v later,
    Contributes id inner.Plays s action first reply v ∧ messages = first ++ later ∧
      (rest reply).Plays v later outcome t

end Contributes

/-! ## Frozen processes -/

/-- The exit of the process is recorded, and it is still frozen. -/
def Slot.Frozen (s : Slot) : Prop :=
  s.state = .paused ∧ s.exit.isSome = true

section Frozen

variable {id : String}
  {effect : Slot → List Message → Except ControllerError Answer → Slot → Prop}

/-- A frozen process has no operation with a successor state. -/
theorem Request.next_of_paused {r : Request} {next : Option State}
    (h : State.paused.dispatch r.operation = .ok (.delegate next)) : next = none := by
  cases r <;> cases h <;> rfl

/-- A call on a process whose exit is recorded and that is frozen does not change it. -/
theorem Contributes.frozen {s t : Slot} {action : Action} {messages : List Message} {reply : Reply}
    (h : Contributes id effect s action messages reply t) (frozen : s.Frozen)
    (inner : ∀ messages outcome t, effect s messages outcome t → t = s) : t = s := by
  have single : ∀ {r : Request} {next : Option State},
      s.state.dispatch r.operation = .ok (.delegate next) → next = none :=
    fun h => Request.next_of_paused (frozen.1 ▸ h)
  have recorded : s.exit ≠ none := by
    intro hx
    rw [Slot.Frozen, hx] at frozen
    cases frozen.2
  cases h with
  | asked | rejected | ignored => rfl
  | failed _ he | performed _ he | superseded _ he => exact inner _ _ _ he
  | installed h => cases single h
  | stopped hx | thawed hx => exact absurd hx recorded

theorem Script.Plays.frozen {script : Script} {s t : Slot} {messages : List Message}
    {outcome : Except ControllerError Answer} (h : script.Plays id s messages outcome t)
    (frozen : s.Frozen) : t = s := by
  induction script generalizing s t messages outcome with
  | finish => exact h.2.2
  | sleep millis rest ih => exact ih h frozen
  | act action inner rest ihInner ih =>
    obtain ⟨first, reply, v, later, hc, -, hr⟩ := h
    obtain rfl := hc.frozen frozen fun _ _ _ he => ihInner he frozen
    exact ih reply hr frozen

end Frozen

/-! ## Replays -/

/-- What the events of a process tell of it: its state, and the code of its exit. -/
structure Face where
  state : State
  exit : Option Int32 := none
  deriving DecidableEq

/-- What a slot shows. -/
def Slot.face (s : Slot) : Face :=
  ⟨s.state, s.exit.map ExitStatus.code⟩

namespace Face

/-- What an event makes of what was told before; none if it does not fit to that. -/
def after? (f : Face) : Payload → Option Face
  | .stateChanged _ source target => if source = f.state then some { f with state := target } else none
  | .exitRecorded code previous =>
    if previous = f.state ∧ f.exit = none then some { f with exit := some code } else none
  | _ => some f

/-- What one message after the other makes of what was told before. -/
def replay? (f : Face) (messages : List Message) : Option Face :=
  messages.foldlM (fun f m => f.after? m.payload) f

theorem replay?_nil (f : Face) : f.replay? [] = some f := rfl

theorem replay?_cons (f : Face) (m : Message) (messages : List Message) :
    f.replay? (m :: messages) = (f.after? m.payload).bind (replay? · messages) := rfl

theorem replay?_append (f : Face) (messages later : List Message) :
    f.replay? (messages ++ later) = (f.replay? messages).bind (replay? · later) :=
  List.foldlM_append

end Face

section Replay

variable {id : String}
  {effect : Slot → List Message → Except ControllerError Answer → Slot → Prop}

theorem Face.replay?_resumeMessages (f : Face) (outcome : Except ControllerError Answer) :
    f.replay? (resumeMessages id outcome) = some f := by
  cases outcome <;> rfl

/-- What the sink receives from a call tells what becomes of the slot. -/
theorem Contributes.replay {s t : Slot} {action : Action} {messages : List Message} {reply : Reply}
    (h : Contributes id effect s action messages reply t)
    (inner : ∀ s messages outcome t, effect s messages outcome t →
      s.face.replay? messages = some t.face)
    (frozen : ∀ s messages outcome t, s.Frozen → effect s messages outcome t → t = s) :
    s.face.replay? messages = some t.face := by
  cases h with
  | asked | rejected | ignored => rfl
  | performed _ he => exact inner _ _ _ _ he
  | failed _ he | superseded _ he =>
    rw [Face.replay?_append, inner _ _ _ _ he]
    rfl
  | installed _ he =>
    rw [Face.replay?_append, inner _ _ _ _ he]
    simp [Face.replay?_cons, Face.replay?_nil, Face.after?, Slot.face]
  | stopped hx =>
    simp [Face.replay?_cons, Face.replay?_nil, Face.after?, Slot.face, hx]
  | @thawed t code moment messages outcome hx h he =>
    have halfway : Slot.Frozen { s with exit := some ⟨code, moment⟩ } :=
      ⟨State.eq_paused_of_onExit h, rfl⟩
    obtain rfl := frozen _ _ _ _ halfway he
    have recorded : s.face.after? (.exitRecorded code s.state) =
        some (Slot.face { s with exit := some ⟨code, moment⟩ }) := by
      simp [Face.after?, Slot.face, hx]
    rw [Face.replay?_cons, recorded, Option.bind_some, Face.replay?_append, Face.replay?_append,
      inner _ _ _ _ he, Option.bind_some, Face.replay?_resumeMessages, Option.bind_some]
    simp [Face.replay?_cons, Face.replay?_nil, Face.after?, Slot.face]

theorem Script.Plays.replay {script : Script} {s t : Slot} {messages : List Message}
    {outcome : Except ControllerError Answer} (h : script.Plays id s messages outcome t) :
    s.face.replay? messages = some t.face := by
  induction script generalizing s t messages outcome with
  | finish =>
    obtain ⟨rfl, -, rfl⟩ := h
    rfl
  | sleep millis rest ih => exact ih h
  | act action inner rest ihInner ih =>
    obtain ⟨first, reply, v, later, hc, rfl, hr⟩ := h
    rw [Face.replay?_append, hc.replay (fun _ _ _ _ he => ihInner he)
      (fun _ _ _ _ frozen he => he.frozen frozen), Option.bind_some, ih reply hr]

end Replay

/-! ## Runs -/

open InitProcess Run

variable {κ : Type} {k k' k'' : Core} {messages later : List Message}

/-- The sink has received messages, and nothing that is under way has ended or begun. -/
structure InitProcess.Core.Adds (k : Core) (messages : List Message) (k' : Core) : Prop where
  id : k'.id = k.id
  busy : k'.busy = k.busy
  told : k'.told = k.told ++ messages

namespace InitProcess.Core.Adds

theorem nil : k.Adds [] k := ⟨rfl, rfl, (List.append_nil _).symm⟩

theorem trans (h : k.Adds messages k') (h' : k'.Adds later k'') :
    k.Adds (messages ++ later) k'' :=
  ⟨h'.id.trans h.id, h'.busy.trans h.busy, by rw [h'.told, h.told, List.append_assoc]⟩

theorem tell (h : k.Adds messages k') (severity : Severity) (payload : Payload) :
    k.Adds (messages ++ [⟨severity, k.id, payload⟩]) (k'.tell severity payload) :=
  ⟨h.id, h.busy, by rw [Core.tell, h.told, h.id, List.append_assoc]⟩

theorem write (h : k.Adds messages k') (slot : Slot) : k.Adds messages { k' with slot } :=
  ⟨h.id, h.busy, h.told⟩

theorem call (h : k.Adds messages k') (calls : List Call) :
    k.Adds messages { k' with calls } :=
  ⟨h.id, h.busy, h.told⟩

theorem resumed (h : k.Adds messages k') (outcome : Except ControllerError Answer) :
    k.Adds (messages ++ resumeMessages k.id outcome) (k'.resumed outcome) := by
  cases outcome with
  | error e => exact h.tell _ _
  | ok a =>
    rw [show resumeMessages k.id (.ok a) = [] from rfl, List.append_nil]
    exact h

/-- An operation that is over has told what was told while it was under way. -/
theorem release {calls : List Call} (free : k.busy = false)
    (h : { k with busy := true, calls }.Adds messages k') :
    k.Adds messages { k' with busy := false } :=
  ⟨h.id, free.symm, h.told⟩

end InitProcess.Core.Adds

/-- Done by a process with the core `k`, the script returns, and the sink receives what it is to
receive from it. -/
def Script.Told (κ : Type) (script : Script) (k : Core) : Prop :=
  Ends k (script.run : Run κ (Except ControllerError Answer)) fun outcome k' =>
    ∃ messages, k.Adds messages k' ∧ script.Plays k.id k.slot messages outcome k'.slot

section Calls

variable {inner : Script}

/-- The sink receives from a request what it contributes. -/
private theorem ends_request (r : Request) (free : k.busy = false)
    (effect : ∀ k : Core, k.busy = true → inner.Told κ k) :
    Ends k (operate (κ := κ) (fun _ => inner.run) r) fun a k' => ∃ messages,
      k.Adds messages k' ∧
        Contributes k.id (inner.Plays k.id) k.slot (.request r) messages (.ofResult a) k'.slot := by
  cases hd : k.slot.state.dispatch r.operation with
  | error rejection =>
    refine (ends_operate_reject free hd).mono ?_
    rintro _ _ ⟨rfl, rfl⟩
    rw [(State.dispatch_rejection hd).2]
    exact ⟨_, Core.Adds.nil.tell _ _, .rejected hd⟩
  | ok d =>
    cases d with
    | observe => exact absurd hd (r.dispatch_ne_observe _)
    | delegate next =>
      obtain ⟨call, hc⟩ : ∃ call, r.call? k.id = some call :=
        Option.ne_none_iff_exists'.mp (r.call?_ne_none hd)
      refine ends_operate_delegate free hd hc ((effect _ rfl).mono ?_)
      rintro outcome k' ⟨messages, adds, plays⟩
      cases outcome with
      | error e => exact ⟨_, (adds.tell _ _).release free, .failed hd plays⟩
      | ok a =>
        cases next with
        | none => exact ⟨_, adds.release free, .performed hd plays⟩
        | some target =>
          cases edge : k'.slot.state.mayBecome target with
          | true =>
            rw [Core.conclude_of_mayBecome edge]
            exact ⟨_, ((adds.write _).tell _ _).release free, .installed hd plays edge⟩
          | false =>
            rw [Core.conclude_of_stale (State.mayBecome_of_dispatch hd) edge]
            exact ⟨_, (adds.tell _ _).release free, .superseded hd plays edge⟩

/-- The sink receives from the report of an exit what it contributes. -/
private theorem ends_exited (code : Int32)
    (effect : ∀ k' : Core, k'.busy = k.busy → inner.Told κ k') :
    Ends k (setExited (κ := κ) (fun _ => inner.run) code) fun _ k' => ∃ messages,
      k.Adds messages k' ∧
        Contributes k.id (inner.Plays k.id) k.slot (.exited code) messages (.answer .done)
          k'.slot := by
  by_cases late : k.slot.exit.isSome = true ∨ k.slot.state.onExit = .ignore
  · refine (ends_setExited_ignore late).mono ?_
    rintro _ _ rfl
    exact ⟨[], .nil, .ignored late⟩
  · obtain ⟨unrecorded, live⟩ := not_or.mp late
    have hx : k.slot.exit = none := by simpa using unrecorded
    cases hs : k.slot.state.onExit with
    | ignore => exact absurd hs live
    | stop =>
      refine (ends_setExited hx hs).mono ?_
      rintro _ _ ⟨moment, rfl⟩
      exact ⟨_, ((Core.Adds.nil.write _).tell _ _).tell _ _, .stopped hx hs⟩
    | resumeThenStop =>
      refine ends_setExited_frozen hx hs fun moment => Ends.mono (effect _ ?_) ?_
      · rfl
      rintro outcome k' ⟨messages, adds, plays⟩
      have hp := State.eq_paused_of_onExit hs
      have same : k'.slot = { k.slot with exit := some ⟨code, moment⟩ } := plays.frozen ⟨hp, rfl⟩
      refine ⟨?_, ?_⟩
      · rw [same]
        exact State.mayBecome_stopped_of_onExit (by rw [hs]; decide)
      · have recorded := (Core.Adds.nil (k := k)).write { k.slot with exit := some ⟨code, moment⟩ }
        have before := (recorded.tell .info (.exitRecorded code k.slot.state)).call
          (k.calls ++ [.resume k.id])
        have stopped := ((before.trans adds).resumed outcome).write
          { k'.slot with state := .stopped }
        exact ⟨_, stopped.tell .info (.stateChanged .setExited k.slot.state .stopped),
          .thawed hx hs plays⟩

/-- The sink receives from a call what it contributes. -/
private theorem ends_act {action : Action} {rest : Reply → Script}
    (allowed : (Script.act action inner rest).Allowed k.busy)
    (effect : ∀ k : Core, inner.Allowed k.busy → inner.Told κ k) :
    Ends k (perform (κ := κ) (fun _ => inner.run) action) fun reply k' => ∃ messages,
      k.Adds messages k' ∧
        Contributes k.id (inner.Plays k.id) k.slot action messages reply k'.slot := by
  cases action with
  | request r =>
    obtain ⟨free, once, -⟩ := allowed
    exact Ends.bind ((ends_request r free fun k hk => effect k (hk ▸ once)).mono
      fun a k' h => Ends.ret h)
  | exited code =>
    exact Ends.bind ((ends_exited code fun k' hk => effect k' (hk ▸ allowed.1)).mono
      fun _ k' h => Ends.ret h)
  | query q =>
    refine ends_ask.mono ?_
    rintro _ _ ⟨rfl, rfl⟩
    exact ⟨[], .nil, .asked⟩

end Calls

/-- **Run.** A script that is allowed returns, and the sink receives what it is to receive. -/
theorem Script.told {script : Script} {k : Core} (allowed : script.Allowed k.busy) :
    script.Told κ k := by
  induction script generalizing k with
  | finish outcome => exact Ends.ret ⟨[], .nil, rfl, rfl, rfl⟩
  | sleep millis rest ih =>
    refine Ends.bind (ends_sleep.mono ?_)
    rintro _ _ rfl
    exact ih allowed
  | act action inner rest ihInner ih =>
    refine Ends.bind ((ends_act allowed fun k => ihInner).mono ?_)
    rintro reply k' ⟨first, adds, contributes⟩
    have later : (rest reply).Allowed k'.busy := by
      rw [adds.busy]
      cases action with
      | request => exact allowed.2.2 reply
      | exited => exact allowed.2 reply
      | query => exact allowed reply
    refine (ih reply later).mono ?_
    rintro outcome k'' ⟨messages, adds', plays⟩
    refine ⟨first ++ messages, adds.trans adds', first, reply, k'.slot, messages, contributes, rfl, ?_⟩
    rw [← adds.id]
    exact plays

/-- The script, done by the process, returns; what the sink holds then is what it is to receive from
the script; and its events, replayed from the state in which the process was, tell the state in
which the process is, and the code of its exit. -/
def Script.Accounted {κ : Type} (script : Script) (p : InitProcess κ) : Prop :=
  ∃ outcome q, script.run p = .ok (outcome, q) ∧
    script.Plays p.id p.slot q.told outcome q.slot ∧
    p.slot.face.replay? q.told = some q.slot.face

/-- **The events account for the run.** Whatever one caller does to a process, restored in any state
or just made, and whatever the controller does in between, as long as no operation is asked for
inside of another one: every call returns; the sink receives from each call what it contributes,
neither more nor less; and a replay of what it received ends in the state of the process, with the
code of the exit that was recorded. -/
theorem messages_account (id : String) (controller : κ) (sink : Sink) (state : State)
    {script : Script} (allowed : script.Allowed false) :
    script.Accounted (restore id controller state sink) ∧
      script.Accounted (create id controller sink) := by
  have start : ∀ p : InitProcess κ, p.busy = false → p.told = [] → script.Accounted p := by
    intro p free fresh
    have idle : script.Allowed p.core.busy := by
      rw [show p.core.busy = false from free]
      exact allowed
    have told : script.Told κ p.core := Script.told idle
    obtain ⟨outcome, q, run, messages, adds, plays⟩ := told p rfl
    have received : q.told = messages := by
      rw [show q.told = p.told ++ messages from adds.told, fresh, List.nil_append]
    rw [← received] at plays
    exact ⟨outcome, q, run, plays, plays.replay⟩
  have quiet : ∀ (p : InitProcess κ), p.events.events = [] →
      p.log.filterMap LogEntry.message? = [] → p.told = [] := by
    intro p events log
    unfold InitProcess.told
    split
    · rw [events]
      rfl
    · exact log
  exact ⟨start _ rfl (quiet _ rfl rfl), start _ rfl (quiet _ rfl rfl)⟩

/-- The exit of a frozen process is reported; while it is resumed, it is started and another exit is
reported, and the resume fails; after that it is deleted, and the controller reports an exit. -/
def thaw : Script :=
  .act (.exited 7)
    (.act (.request .start) (.finish (.ok .done)) fun _ =>
      .act (.exited 8) (.finish (.ok .done)) fun _ =>
        .finish (.error (.failed "thaw"))) fun _ =>
    .act (.request .delete)
      (.act (.exited 9) (.finish (.ok .done)) fun _ => .finish (.ok .done)) fun _ =>
      .finish (.ok .done)

theorem messages_account_thaw :
    thaw.Allowed false ∧
    ∃ outcome q, thaw.run (restore "web" () .paused .log) = .ok (outcome, q) ∧
      q.told.map Message.payload = [.exitRecorded 7 .paused, .operationRejected .start .paused,
        .compensatingResumeFailed "thaw", .stateChanged .setExited .paused .stopped,
        .stateChanged .delete .stopped .deleted] ∧
      Face.replay? { state := .paused } q.told = some ⟨.deleted, some 7⟩ := by
  have allowed : thaw.Allowed false := by
    simp [thaw, Script.Allowed]
  have shown : (thaw.run (restore "web" () .paused .log)).toOption.map (fun r =>
      (r.2.told.map Message.payload, r.2.slot.face)) =
        some ([.exitRecorded 7 .paused, .operationRejected .start .paused,
          .compensatingResumeFailed "thaw", .stateChanged .setExited .paused .stopped,
          .stateChanged .delete .stopped .deleted], ⟨.deleted, some 7⟩) := by
    decide +kernel
  obtain ⟨outcome, q, run, -, replay⟩ := (messages_account "web" () .log .paused allowed).1
  rw [run] at shown
  obtain ⟨payloads, face⟩ := Prod.mk.inj (Option.some.inj shown)
  exact ⟨allowed, outcome, q, run, payloads, face ▸ replay⟩

end ContainerInit
