import ContainerInit.Proofs.InitProcess.Ends

/-!
# The specification table

What the ten operations do in the five states, as one table (`table`), and a machine that does what
the table says and nothing else (`Machine`). A process that is given one operation after the other
by one caller, with a controller that only answers, does the same as the machine
(`observe_eq_run`).

- **Tasks** (`Task`): operations with their arguments. What is seen of a task is its reply, the
  state and the recorded exit after it, and the calls of the controller in it (`Observed`), of which
  nothing is lost (`Call.made_injective`).
- **The machine** (`Machine.does`, `Machine.run`): what it does is decided by its state alone. The
  exit code that it recorded is seen, and has no say.
- **Agreement** (`State.dispatch_eq`, `State.onExit_eq`, `State.status_eq`): the tables of the
  program say what the table says. `Models` relates the machine to the core of a process; an exit is
  recorded only where the table ignores a further one.
-/

namespace ContainerInit

/-! ## The table -/

/-- What an operation does in a state. -/
inductive Cell where
  | error
  | notImplemented
  /-- The controller does it; on success the process is in the state `next`, if there is one. -/
  | delegate (next : Option State)
  /-- The exit is recorded and the process is stopped; `resume` tells that it is resumed before. -/
  | stop (resume : Bool)
  | nothing
  /-- The name of the state is given. -/
  | name (text : String)

/-- What an operation does in each state. -/
structure Row where
  created : Cell
  running : Cell
  paused : Cell
  stopped : Cell
  deleted : Cell

/-- The cell of a state in a row. -/
def Row.cell (row : Row) : State → Cell
  | .created => row.created
  | .running => row.running
  | .paused => row.paused
  | .stopped => row.stopped
  | .deleted => row.deleted

/-- The specification table. -/
def table : Operation → Row
  | .start => ⟨.delegate (some .running), .error, .error, .error, .error⟩
  | .pause => ⟨.error, .notImplemented, .error, .error, .error⟩
  | .resume => ⟨.error, .error, .notImplemented, .error, .error⟩
  | .update => ⟨.delegate none, .delegate none, .delegate none, .error, .error⟩
  | .checkpoint => ⟨.error, .notImplemented, .notImplemented, .error, .error⟩
  | .delete =>
    ⟨.delegate (some .deleted), .error, .error, .delegate (some .deleted), .error⟩
  | .kill => ⟨.delegate none, .delegate none, .delegate none, .delegate none, .error⟩
  | .exec => ⟨.delegate none, .delegate none, .error, .error, .error⟩
  | .setExited => ⟨.stop false, .stop false, .stop true, .nothing, .nothing⟩
  | .status => ⟨.name "created", .name "running", .name "paused", .name "stopped", .error⟩

/-! ## Tasks -/

/-- An operation with its arguments. -/
inductive Task where
  | request (request : Request)
  | exited (code : Int32)
  | status

/-- The arguments of an operation, and of a method of the controller. -/
inductive Arguments where
  | none
  | resources (resources : ResourceSpec)
  | config (config : CheckpointConfig)
  | signal (signal : Signal) (all : Bool)
  | session (execId : String) (options : ExecOptions)

namespace Task

/-- The operation of a task. -/
def operation : Task → Operation
  | .request r => r.operation
  | .exited _ => .setExited
  | .status => .status

/-- What the caller does. -/
def action : Task → Action
  | .request r => .request r
  | .exited code => .exited code
  | .status => .query .status

/-- The arguments that the caller gives for the controller. -/
def arguments : Task → Arguments
  | .request (.update resources) => .resources resources
  | .request (.checkpoint config) => .config config
  | .request (.kill signal all) => .signal signal all
  | .request (.exec execId options) => .session execId options
  | _ => .none

/-- The exit code that is reported. -/
def code? : Task → Option Int32
  | .exited code => some code
  | _ => none

end Task

/-- A call of the controller: the name of the method, the process, and the arguments. -/
structure Made where
  method : String
  id : String
  arguments : Arguments

/-- How a call is made. -/
def Call.made : Call → Made
  | .start id => ⟨"start", id, .none⟩
  | .kill id signal all => ⟨"kill", id, .signal signal all⟩
  | .delete id => ⟨"delete", id, .none⟩
  | .update id resources => ⟨"update", id, .resources resources⟩
  | .exec id execId options => ⟨"exec", id, .session execId options⟩
  | .resume id => ⟨"resume", id, .none⟩
  | .checkpoint id config => ⟨"checkpoint", id, .config config⟩

/-- Different calls are made differently. -/
theorem Call.made_injective {a b : Call} (h : a.made = b.made) : a = b := by
  cases a <;> cases b <;> simp_all [Call.made]

/-- What is seen of a task. -/
structure Observed where
  reply : Reply
  state : State
  exit : Option Int32
  calls : List Made

/-! ## The machine -/

/-- The machine of the specification: its state, the exit code that was recorded, and how often it
has called the controller. -/
structure Machine where
  state : State
  exit : Option Int32 := none
  called : Nat := 0

namespace Machine

/-- What the machine for the process `id` does for a task, with the controller answering its calls
by `outcomes`. -/
def does (id : String) (outcomes : Nat → Except ControllerError Answer) (m : Machine) (t : Task) :
    Observed :=
  match (table t.operation).cell m.state with
  | .error => ⟨.failed (.rejected ⟨.illegal, t.operation, m.state⟩), m.state, m.exit, []⟩
  | .notImplemented =>
    ⟨.failed (.rejected ⟨.notImplemented, t.operation, m.state⟩), m.state, m.exit, []⟩
  | .delegate next =>
    let calls := [⟨t.operation.name, id, t.arguments⟩]
    match outcomes m.called with
    | .ok a => ⟨.answer a, next.getD m.state, m.exit, calls⟩
    | .error e => ⟨.failed (.controller e), m.state, m.exit, calls⟩
  | .stop resume =>
    ⟨.answer .done, .stopped, t.code?, if resume then [⟨"resume", id, .none⟩] else []⟩
  | .nothing => ⟨.answer .done, m.state, m.exit, []⟩
  | .name text => ⟨.text text, m.state, m.exit, []⟩

/-- The machine after what was seen. -/
def after (m : Machine) (o : Observed) : Machine :=
  ⟨o.state, o.exit, m.called + o.calls.length⟩

/-- What the machine does for one task after the other. -/
def run (id : String) (outcomes : Nat → Except ControllerError Answer) (m : Machine) :
    List Task → List Observed
  | [] => []
  | t :: rest => m.does id outcomes t :: (m.after (m.does id outcomes t)).run id outcomes rest

end Machine

/-! ## Processes -/

section Processes

variable {κ : Type}

/-- The controller that only answers: its calls, from the first on, by `outcomes`. -/
def scripted (outcomes : Nat → Except ControllerError Answer) : Controller κ := fun _ => do
  return outcomes ((← get).calls.length - 1)

/-- Does a task on a process. -/
def Task.observe (controller : Controller κ) (t : Task) : Run κ Observed := do
  let before ← get
  let reply ← InitProcess.perform controller t.action
  let after ← get
  return ⟨reply, after.slot.state, after.slot.exit.map ExitStatus.code,
    (after.calls.drop before.calls.length).map Call.made⟩

/-- Does one task after the other on a process. -/
def observe (controller : Controller κ) : List Task → Run κ (List Observed)
  | [] => return []
  | t :: rest => do
    let first ← t.observe controller
    let others ← observe controller rest
    return first :: others

end Processes

/-! ## Agreement of the tables -/

/-- Dispatch says what the table says. -/
theorem State.dispatch_eq (s : State) (r : Request) :
    s.dispatch r.operation = match (table r.operation).cell s with
      | .notImplemented => .error ⟨.notImplemented, r.operation, s⟩
      | .delegate next => .ok (.delegate next)
      | _ => .error ⟨.illegal, r.operation, s⟩ := by
  cases r <;> cases s <;> rfl

/-- The cell that refuses an operation. -/
def Refusal.cell : Refusal → Cell
  | .illegal => .error
  | .notImplemented => .notImplemented

/-- A request is refused, or left to the controller. -/
theorem Request.cell_eq (r : Request) (s : State) :
    (∃ refusal : Refusal, (table r.operation).cell s = refusal.cell) ∨
      ∃ next, (table r.operation).cell s = .delegate next := by
  cases r <;> cases s <;>
    first | exact .inl ⟨.illegal, rfl⟩ | exact .inl ⟨.notImplemented, rfl⟩ | exact .inr ⟨_, rfl⟩

/-- The reaction to an exit is what the table says. -/
theorem State.onExit_eq (s : State) :
    (table .setExited).cell s = match s.onExit with
      | .stop => .stop false
      | .resumeThenStop => .stop true
      | .ignore => .nothing := by
  cases s <;> rfl

/-- The name of a state is what the table says. -/
theorem State.status_eq (s : State) :
    s.status = match (table .status).cell s with
      | .name text => .ok text
      | _ => .error ⟨.illegal, .status, s⟩ := by
  cases s <;> rfl

/-- A question for the state is answered, or an error. -/
theorem State.cell_status (s : State) :
    (table .status).cell s = .error ∨ ∃ text, (table .status).cell s = .name text := by
  cases s <;> first | exact .inl rfl | exact .inr ⟨_, rfl⟩

/-- A request that is left to the controller calls the method of its name, with its arguments. -/
theorem Request.made_call {r : Request} {s : State} {next : Option State} (id : String)
    (h : (table r.operation).cell s = .delegate next) :
    ∃ call, r.call? id = some call ∧
      call.made = ⟨r.operation.name, id, (Task.request r).arguments⟩ := by
  cases r with
  | pause => cases s <;> cases h
  | _ => exact ⟨_, rfl, rfl⟩

/-- Where a further exit is ignored, it stays ignored. -/
theorem Request.onExit_of_cell {r : Request} {s target : State}
    (h : (table r.operation).cell s = .delegate (some target)) (ended : s.onExit = .ignore) :
    target.onExit = .ignore := by
  cases r <;> cases s <;> cases h <;> first | rfl | cases ended

/-! ## The process does what the machine does -/

open InitProcess Run

variable {κ : Type} {id : String} {outcomes : Nat → Except ControllerError Answer} {m : Machine}
  {k : Core}

/-- The machine stands for a process: nothing is under way, and an exit is recorded only where a
further one is ignored. -/
structure Machine.Models (m : Machine) (id : String) (k : Core) : Prop where
  id : k.id = id
  free : k.busy = false
  state : k.slot.state = m.state
  exit : k.slot.exit.map ExitStatus.code = m.exit
  called : k.calls.length = m.called
  ended : k.slot.exit.isSome = true → k.slot.state.onExit = .ignore

/-- The core `k` has become `k'` by a task of which the machine shows `o`. -/
structure Follows (id : String) (k : Core) (o : Observed) (reply : Reply) (k' : Core) : Prop where
  reply : reply = o.reply
  state : k'.slot.state = o.state
  exit : k'.slot.exit.map ExitStatus.code = o.exit
  calls : ∃ calls, k'.calls = k.calls ++ calls ∧ calls.map Call.made = o.calls
  id : k'.id = id
  free : k'.busy = false
  ended : k'.slot.exit.isSome = true → k'.slot.state.onExit = .ignore

theorem ends_scripted {call : Call} {calls : List Call} (hk : k.calls = calls ++ [call]) :
    Ends k (scripted (κ := κ) outcomes call) fun outcome k' =>
      outcome = outcomes calls.length ∧ k' = k := by
  refine Ends.read fun p hp => Ends.ret ⟨?_, rfl⟩
  rw [show p.calls = k.calls from congrArg Core.calls hp, hk, List.length_append]
  rfl

namespace Machine.Models

/-- After a task, the machine again stands for the process. -/
theorem after (h : m.Models id k) {o : Observed} {reply : Reply} {k' : Core}
    (f : Follows id k o reply k') : (m.after o).Models id k' := by
  obtain ⟨calls, hc, made⟩ := f.calls
  refine ⟨f.id, f.free, f.state, f.exit, ?_, f.ended⟩
  rw [hc, List.length_append, h.called, Machine.after, ← made, List.length_map]

/-- A task that changes nothing. -/
private theorem still (h : m.Models id k) {k' : Core} {reply : Reply} (hid : k'.id = k.id)
    (slot : k'.slot = k.slot) (busy : k'.busy = k.busy) (calls : k'.calls = k.calls) :
    Follows id k ⟨reply, m.state, m.exit, []⟩ reply k' := by
  refine ⟨rfl, ?_, ?_, ⟨[], ?_, rfl⟩, hid.trans h.id, busy.trans h.free, ?_⟩
  · rw [slot, h.state]
  · rw [slot, h.exit]
  · rw [calls, List.append_nil]
  · rw [slot]
    exact h.ended

/-- A request is refused as the table says. -/
private theorem reject (h : m.Models id k) {r : Request} {refusal : Refusal}
    (cell : (table r.operation).cell m.state = refusal.cell) :
    Ends k (operate (scripted (κ := κ) outcomes) r) fun a k' =>
      Follows id k (m.does id outcomes (.request r)) (.ofResult a) k' := by
  have hd : k.slot.state.dispatch r.operation = .error ⟨refusal, r.operation, m.state⟩ := by
    rw [h.state, State.dispatch_eq, cell]
    cases refusal <;> rfl
  refine (ends_operate_reject h.free hd).mono ?_
  rintro _ _ ⟨rfl, rfl⟩
  unfold Machine.does
  simp only [Task.operation, cell]
  cases refusal <;> exact h.still rfl rfl rfl rfl

/-- A request is left to the controller as the table says. -/
private theorem delegate (h : m.Models id k) {r : Request} {next : Option State}
    (cell : (table r.operation).cell m.state = .delegate next) :
    Ends k (operate (scripted (κ := κ) outcomes) r) fun a k' =>
      Follows id k (m.does id outcomes (.request r)) (.ofResult a) k' := by
  have hd : k.slot.state.dispatch r.operation = .ok (.delegate next) := by
    rw [State.dispatch_eq, h.state, cell]
  obtain ⟨call, hc, made⟩ := r.made_call id cell
  refine ends_operate_delegate h.free hd (h.id ▸ hc) ((ends_scripted rfl).mono ?_)
  rintro outcome _ ⟨ho, rfl⟩
  rw [h.called] at ho
  have calls : ∃ calls, k.calls ++ [call] = k.calls ++ calls ∧ calls.map Call.made =
      [⟨r.operation.name, id, (Task.request r).arguments⟩] := ⟨[call], rfl, by rw [← made]; rfl⟩
  unfold Machine.does
  simp only [Task.operation, cell, ← ho]
  cases outcome with
  | error e => exact ⟨rfl, h.state, h.exit, calls, h.id, rfl, h.ended⟩
  | ok a =>
    cases next with
    | none => exact ⟨rfl, h.state, h.exit, calls, h.id, rfl, h.ended⟩
    | some target =>
      rw [Core.conclude_of_mayBecome (k := { k with busy := true, calls := k.calls ++ [call] })
        (State.mayBecome_of_dispatch hd)]
      exact ⟨rfl, rfl, h.exit, calls, h.id, rfl,
        fun hx => r.onExit_of_cell cell (h.state ▸ h.ended hx)⟩

/-- A request is done as the table says. -/
private theorem request (h : m.Models id k) (r : Request) :
    Ends k (operate (scripted (κ := κ) outcomes) r) fun a k' =>
      Follows id k (m.does id outcomes (.request r)) (.ofResult a) k' := by
  rcases r.cell_eq m.state with ⟨refusal, cell⟩ | ⟨next, cell⟩
  · exact h.reject cell
  · exact h.delegate cell

/-- The report of an exit is taken as the table says. -/
private theorem exited (h : m.Models id k) (code : Int32) :
    Ends k (setExited (scripted (κ := κ) outcomes) code) fun _ k' =>
      Follows id k (m.does id outcomes (.exited code)) (.answer .done) k' := by
  have cell := m.state.onExit_eq
  have live : m.state.onExit ≠ .ignore → k.slot.exit = none := by
    intro hs
    cases hx : k.slot.exit with
    | none => rfl
    | some e => exact absurd (h.state ▸ h.ended (by rw [hx]; rfl)) hs
  unfold Machine.does
  simp only [Task.operation, Task.code?, cell]
  cases hs : m.state.onExit with
  | ignore =>
    refine (ends_setExited_ignore (.inr (h.state ▸ hs))).mono ?_
    rintro _ _ rfl
    exact h.still rfl rfl rfl rfl
  | stop =>
    refine (ends_setExited (live (by rw [hs]; decide)) (h.state ▸ hs)).mono ?_
    rintro _ _ ⟨moment, rfl⟩
    exact ⟨rfl, rfl, rfl, ⟨[], (List.append_nil _).symm, rfl⟩, h.id, h.free, fun _ => rfl⟩
  | resumeThenStop =>
    refine ends_setExited_frozen (live (by rw [hs]; decide)) (h.state ▸ hs) fun moment =>
      (ends_scripted rfl).mono ?_
    rintro outcome _ ⟨-, rfl⟩
    refine ⟨State.mayBecome_stopped_of_onExit (s := k.slot.state) (by rw [h.state, hs]; decide), ?_⟩
    have calls : ∃ calls, k.calls ++ [.resume k.id] = k.calls ++ calls ∧ calls.map Call.made =
        [⟨"resume", id, .none⟩] := ⟨_, rfl, by rw [h.id]; rfl⟩
    cases outcome <;> exact ⟨rfl, rfl, rfl, calls, h.id, h.free, fun _ => rfl⟩

/-- The state is named as the table says. -/
private theorem status (h : m.Models id k) :
    Ends k (ask .status : Run κ Reply) fun reply k' =>
      Follows id k (m.does id outcomes .status) reply k' := by
  refine ends_ask.mono ?_
  rintro _ _ ⟨rfl, rfl⟩
  have named := m.state.status_eq
  unfold Machine.does
  simp only [Task.operation, Query.reply, h.state]
  rcases m.state.cell_status with cell | ⟨text, cell⟩ <;> rw [cell] at named ⊢ <;> rw [named]
  · exact h.still rfl rfl rfl rfl
  · exact h.still rfl rfl rfl rfl

/-- **Step.** A task is done as the table says. -/
theorem observe (h : m.Models id k) (t : Task) :
    Ends k (t.observe (scripted (κ := κ) outcomes)) fun o k' =>
      o = m.does id outcomes t ∧ (m.after o).Models id k' := by
  have perform : Ends k (perform (scripted (κ := κ) outcomes) t.action) fun reply k' =>
      Follows id k (m.does id outcomes t) reply k' := by
    cases t with
    | request r => exact Ends.bind ((h.request r).mono fun a k' f => Ends.ret f)
    | exited code => exact Ends.bind ((h.exited code).mono fun _ k' f => Ends.ret f)
    | status => exact h.status
  refine Ends.read fun before hb => Ends.bind (perform.mono fun reply k' f => ?_)
  refine Ends.read fun later hl => Ends.ret ?_
  have ho : (⟨reply, later.slot.state, later.slot.exit.map ExitStatus.code,
      (later.calls.drop before.calls.length).map Call.made⟩ : Observed) = m.does id outcomes t := by
    obtain ⟨calls, hc, made⟩ := f.calls
    rw [show later.calls = k'.calls from congrArg Core.calls hl, hc,
      show before.calls = k.calls from congrArg Core.calls hb, List.drop_left, made, f.reply,
      show later.slot = k'.slot from congrArg Core.slot hl, f.state, f.exit]
  exact ⟨ho, ho ▸ h.after f⟩

end Machine.Models

/-- **Run.** Tasks are done one after the other as the table says. -/
theorem Machine.Models.run (h : m.Models id k) (tasks : List Task) :
    Ends k (ContainerInit.observe (scripted (κ := κ) outcomes) tasks) fun os _ =>
      os = m.run id outcomes tasks := by
  induction tasks generalizing m k with
  | nil => exact Ends.ret rfl
  | cons t rest ih =>
    refine Ends.bind ((h.observe t).mono ?_)
    rintro _ k' ⟨rfl, h'⟩
    refine Ends.bind ((ih h').mono ?_)
    rintro _ _ rfl
    exact Ends.ret rfl

/-- **A process does what the specification table says.** Restored in any state, or just made, given
any tasks one after the other, and whatever the controller answers: every task returns, and its
reply, the state and the exit code after it, and the calls of the controller in it are those of the
machine. -/
theorem observe_eq_run (id : String) (controller : κ) (sink : Sink) (state : State)
    (outcomes : Nat → Except ControllerError Answer) (tasks : List Task) :
    (∃ q, observe (scripted outcomes) tasks (restore id controller state sink) =
      .ok (Machine.run id outcomes { state } tasks, q)) ∧
    ∃ q, observe (scripted outcomes) tasks (create id controller sink) =
      .ok (Machine.run id outcomes { state := .created } tasks, q) := by
  have start : ∀ p : InitProcess κ, p.id = id → p.slot = { state := p.slot.state } →
      p.busy = false → p.calls = [] → ∃ q, observe (scripted outcomes) tasks p =
        .ok (Machine.run id outcomes { state := p.slot.state } tasks, q) := by
    intro p hid slot free calls
    have models : Machine.Models { state := p.slot.state } id p.core :=
      ⟨hid, free, rfl, by rw [core, slot]; rfl, by rw [core, calls]; rfl,
        fun h => by rw [core, slot] at h; cases h⟩
    have done : Ends p.core (observe (scripted (κ := κ) outcomes) tasks) _ := models.run tasks
    obtain ⟨os, q, e, rfl⟩ := done p rfl
    exact ⟨q, e⟩
  exact ⟨start _ rfl rfl rfl rfl, start _ rfl rfl rfl rfl⟩

end ContainerInit
